import Mathlib.Data.List.Forall2

/-!
# Runs of a partial step function

A machine as a function from a state and a label to the next state, nothing
where the label cannot be taken. A run follows a list of labels.

* `run`: the state after a list of labels;
* `Along`: a condition on every step of a run, about the state before it;
* `run_invariant`: what every step preserves, a run preserves;
* `Each`, `each_iff`, `foldl_iff`, `foldl_related`: the same for a total step
  function, about one run and about two.
-/

namespace Runs

variable {σ α : Type} (step : σ → α → Option σ)

def run : σ → List α → Option σ
  | c, [] => some c
  | c, a :: rest => (step c a).bind fun c' => run c' rest

def Along (P : σ → α → Prop) : σ → List α → Prop
  | _, [] => True
  | c, a :: rest => P c a ∧ ∀ c', step c a = some c' → Along P c' rest

/-- `Along`, evaluated. -/
def check (p : σ → α → Bool) : σ → List α → Bool
  | _, [] => true
  | c, a :: rest => p c a && (step c a).all fun c' => check p c' rest

variable {step} {P Q : σ → α → Prop} {c c' : σ} {a : α} {xs ys : List α}

theorem run_cons : run step c (a :: xs) = some c' ↔
    ∃ next, step c a = some next ∧ run step next xs = some c' :=
  Option.bind_eq_some_iff

theorem run_append : run step c (xs ++ ys) = some c' ↔
    ∃ next, run step c xs = some next ∧ run step next ys = some c' := by
  induction xs generalizing c with
  | nil => simp [run]
  | cons a rest ih =>
    simp only [List.cons_append, run_cons, ih]
    constructor
    · rintro ⟨first, stepped, next, reached, rest⟩
      exact ⟨next, ⟨first, stepped, reached⟩, rest⟩
    · rintro ⟨next, ⟨first, stepped, reached⟩, rest⟩
      exact ⟨first, stepped, next, reached, rest⟩

theorem along_always (always : ∀ c a, P c a) (c : σ) (xs : List α) : Along step P c xs := by
  induction xs generalizing c with
  | nil => trivial
  | cons a rest ih => exact ⟨always c a, fun c' _ => ih c'⟩

/-- The evaluated condition may rest on an invariant of the run. -/
theorem along_of_check {p : σ → α → Bool} {I : σ → Prop}
    (preserved : ∀ c a c', I c → p c a = true → step c a = some c' → I c')
    (sound : ∀ c a, I c → p c a = true → P c a) (start : I c)
    (h : check step p c xs = true) : Along step P c xs := by
  induction xs generalizing c with
  | nil => trivial
  | cons a rest ih =>
    simp only [check, Bool.and_eq_true] at h
    refine ⟨sound c a start h.1, ?_⟩
    intro c' stepped
    have tail := h.2
    rw [stepped] at tail
    exact ih (preserved c a c' start h.1 stepped) tail

/-- **Invariants.** What holds at the start, and is preserved by every step that
meets the condition of the run, holds at the end. -/
theorem run_invariant {I : σ → Prop}
    (preserved : ∀ c a c', I c → P c a → step c a = some c' → I c')
    (start : I c) (cond : Along step P c xs) (h : run step c xs = some c') : I c' := by
  induction xs generalizing c with
  | nil =>
    cases h
    exact start
  | cons a rest ih =>
    obtain ⟨next, stepped, tail⟩ := run_cons.mp h
    exact ih (preserved c a next start cond.1 stepped) (cond.2 next stepped) tail

/-- An invariant that holds of every step. -/
theorem run_preserves {I : σ → Prop} (preserved : ∀ c a c', I c → step c a = some c' → I c')
    (start : I c) (h : run step c xs = some c') : I c' :=
  run_invariant (P := fun _ _ => True) (fun c a c' hI _ => preserved c a c' hI) start
    (along_always (fun _ _ => trivial) c xs) h

/-! ## Two runs of total steps -/

section
variable {τ β : Type}

/-- A condition on every step of a run that cannot get stuck. -/
def Each (step : σ → α → σ) (P : σ → α → Prop) : σ → List α → Prop
  | _, [] => True
  | c, a :: rest => P c a ∧ Each step P (step c a) rest

instance decidableEach {step : σ → α → σ} {P : σ → α → Prop} [∀ c a, Decidable (P c a)] :
    ∀ c xs, Decidable (Each step P c xs)
  | _, [] => isTrue trivial
  | c, a :: rest =>
    have : Decidable (Each step P (step c a) rest) := decidableEach _ rest
    inferInstanceAs (Decidable (P c a ∧ Each step P (step c a) rest))

/-- **A property and its conditions.** Where every step keeps the property exactly
when it meets its condition, a run does when all its steps do. -/
theorem foldl_iff {step : σ → α → σ} {I Good : σ → Prop} {P : σ → α → Prop}
    (keeps : ∀ c a, I c → I (step c a)) (exact_ : ∀ c a, I c → (Good (step c a) ↔ Good c ∧ P c a))
    (start : I c) (xs : List α) : Good (xs.foldl step c) ↔ Good c ∧ Each step P c xs := by
  induction xs generalizing c with
  | nil => exact (and_iff_left trivial).symm
  | cons a rest ih =>
    rw [List.foldl_cons, ih (keeps c a start), exact_ c a start, and_assoc]
    rfl

theorem each_append {step : σ → α → σ} {P : σ → α → Prop} :
    Each step P c (xs ++ ys) ↔ Each step P c xs ∧ Each step P (xs.foldl step c) ys := by
  induction xs generalizing c with
  | nil => simp [Each]
  | cons a rest ih => simp only [List.cons_append, Each, List.foldl_cons, ih, and_assoc]

/-- What every step that meets its condition preserves. -/
theorem Each.preserves {step : σ → α → σ} {I : σ → Prop} {P : σ → α → Prop}
    (h : Each step P c xs) (preserved : ∀ c a, I c → P c a → I (step c a)) (start : I c) :
    I (xs.foldl step c) := by
  induction xs generalizing c with
  | nil => exact start
  | cons a rest ih => exact ih h.2 (preserved c a start h.1)

/-- What every label of a run meets in every state of an invariant. -/
theorem each_of_invariant {step : σ → α → σ} {I : σ → Prop} {P : σ → α → Prop}
    (keeps : ∀ c, ∀ a ∈ xs, I c → I (step c a)) (h : ∀ c, ∀ a ∈ xs, I c → P c a) (start : I c) :
    Each step P c xs := by
  induction xs generalizing c with
  | nil => trivial
  | cons a rest ih =>
    refine ⟨h c a List.mem_cons_self start, ?_⟩
    exact ih (fun c b hb => keeps c b (List.mem_cons_of_mem a hb))
      (fun c b hb => h c b (List.mem_cons_of_mem a hb)) (keeps c a List.mem_cons_self start)

/-- What every label of a run meets in every state. -/
theorem each_of_forall {step : σ → α → σ} {P : σ → α → Prop} (h : ∀ c, ∀ a ∈ xs, P c a) :
    Each step P c xs :=
  each_of_invariant (I := fun _ => True) (fun _ _ _ _ => trivial) (fun c a ha _ => h c a ha) trivial

/-- What holds after every step holds at the end. -/
theorem Each.foldl {step : σ → α → σ} {Good : σ → Prop} (start : Good c)
    (h : Each step (fun c a => Good (step c a)) c xs) : Good (xs.foldl step c) := by
  induction xs generalizing c with
  | nil => exact start
  | cons a rest ih => exact ih h.1 h.2

/-- **A property after every step.** Where a step from a good state leads to a good
state exactly when it meets its condition, a run stays good exactly when all its
steps meet theirs. -/
theorem each_iff {step : σ → α → σ} {I Good : σ → Prop} {P : σ → α → Prop}
    (keeps : ∀ c a, I c → Good c → P c a → I (step c a))
    (exact_ : ∀ c a, I c → Good c → (Good (step c a) ↔ P c a)) (start : I c) (good : Good c) :
    Each step (fun c a => Good (step c a)) c xs ↔ Each step P c xs := by
  induction xs generalizing c with
  | nil => exact Iff.rfl
  | cons a rest ih =>
    constructor
    · rintro ⟨next, later⟩
      have cond := (exact_ c a start good).mp next
      exact ⟨cond, (ih (keeps c a start good cond) next).mp later⟩
    · rintro ⟨cond, later⟩
      have next := (exact_ c a start good).mpr cond
      exact ⟨next, (ih (keeps c a start good cond) next).mpr later⟩

/-- **Simulation.** What related steps that meet their conditions preserve is
preserved by two runs, step for step. -/
theorem foldl_related {step : σ → α → σ} {step' : τ → β → τ} {P : σ → α → Prop}
    {P' : τ → β → Prop} {L : α → β → Prop} {R : σ → τ → Prop}
    (preserved : ∀ c d a b, R c d → L a b → P c a → P' d b → R (step c a) (step' d b))
    {c : σ} {d : τ} {xs : List α} {ys : List β} (start : R c d) (labels : List.Forall₂ L xs ys)
    (cond : Each step P c xs) (cond' : Each step' P' d ys) :
    R (xs.foldl step c) (ys.foldl step' d) := by
  induction labels generalizing c d with
  | nil => exact start
  | @cons a b xs ys label _ ih =>
    exact ih (preserved c d a b start label cond.1 cond'.1) cond.2 cond'.2

end

end Runs
