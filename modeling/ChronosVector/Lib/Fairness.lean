import Mathlib.Order.RelClasses
import ChronosVector.Lib.Runs

/-!
# Endless runs and fairness

Runs of a partial step function that never stop, and what their fairness gives.

* `Endless`: a run as states and labels by time;
* `Endless.Fair`: no actor that is ready is passed over forever;
* `Endless.eventually`: a rank that no step raises, and that some ready actor
  can lower, leads to the goal.
-/

namespace Runs

variable {σ α ι W : Type} {step : σ → α → Option σ}

structure Endless (step : σ → α → Option σ) where
  state : Nat → σ
  label : Nat → α
  step_eq : ∀ n, step (state n) (label n) = some (state (n + 1))

namespace Endless

variable (run : Endless step)

/-- An actor that is ready from some time on takes a step. A label that belongs
to no actor is a step of the environment. -/
def Fair (actor : α → Option ι) (Ready : σ → ι → Prop) : Prop :=
  ∀ i n, (∀ m, n ≤ m → Ready (run.state m) i) → ∃ m, n ≤ m ∧ actor (run.label m) = some i

variable {run} {I : σ → Prop}

/-- An invariant, from any time on. -/
theorem always (preserved : ∀ c a c', I c → step c a = some c' → I c') {n m : Nat}
    (start : I (run.state n)) (later : n ≤ m) : I (run.state m) := by
  induction later with
  | refl => exact start
  | @step m _ ih => exact preserved _ _ _ ih (run.step_eq m)

section
variable [Preorder W] [WellFoundedLT W] (rank : σ → W) (helper : σ → ι) (actor : α → Option ι)
  {Ready : σ → ι → Prop}

/-- A step that lowers the rank, or else leaves it and its helper alone and is
not the helper's. -/
def Lowers (c : σ) (a : α) (c' : σ) : Prop :=
  rank c' < rank c ∨ rank c' = rank c ∧ helper c' = helper c ∧ actor a ≠ some (helper c)

variable {rank helper actor}

omit [WellFoundedLT W] in
theorem Lowers.le {c c' : σ} {a : α} (h : Lowers rank helper actor c a c') : rank c' ≤ rank c :=
  h.elim le_of_lt fun same => le_of_eq same.1

/-- **Fair runs reach the goal.** Before the goal the helper is ready, its steps
lower the rank, and no other step raises the rank or changes the helper without
lowering it. -/
theorem eventually (Goal : σ → Prop) (fair : run.Fair actor Ready)
    (preserved : ∀ c a c', I c → step c a = some c' → I c')
    (ready : ∀ c, I c → ¬ Goal c → Ready c (helper c))
    (lowers : ∀ c a c', I c → ¬ Goal c → step c a = some c' →
      Goal c' ∨ Lowers rank helper actor c a c')
    {n : Nat} (start : I (run.state n)) : ∃ m, n ≤ m ∧ Goal (run.state m) := by
  generalize rank_eq : rank (run.state n) = w
  induction w using WellFoundedLT.induction generalizing n with
  | ind w ih =>
    subst rank_eq
    by_contra never
    push Not at never
    have steps (k : Nat) (later : n ≤ k) :
        Lowers rank helper actor (run.state k) (run.label k) (run.state (k + 1)) :=
      (lowers _ _ _ (always preserved start later) (never k later) (run.step_eq k)).resolve_left
        (never (k + 1) (by omega))
    by_cases lowered : ∃ k, n ≤ k ∧ rank (run.state (k + 1)) < rank (run.state k)
    · obtain ⟨k, later, less⟩ := lowered
      have falls : rank (run.state k) ≤ rank (run.state n) := by
        clear less
        induction later with
        | refl => exact le_refl _
        | @step k later ih => exact le_trans (steps k later).le ih
      obtain ⟨m, after, goal⟩ := ih _ (lt_of_lt_of_le less falls)
        (always preserved start (Nat.le_succ_of_le later)) rfl
      exact never m (by omega) goal
    · -- the rank stays, so one helper waits forever
      push Not at lowered
      have same (k : Nat) (later : n ≤ k) := (steps k later).resolve_left (lowered k later)
      have still (k : Nat) (later : n ≤ k) : helper (run.state k) = helper (run.state n) := by
        induction later with
        | refl => rfl
        | @step k later ih => exact (same k later).2.1.trans ih
      have waiting : ∀ m, n ≤ m → Ready (run.state m) (helper (run.state n)) := by
        intro m later
        rw [← still m later]
        exact ready _ (always preserved start later) (never m later)
      obtain ⟨m, later, moves⟩ := fair _ n waiting
      apply (same m later).2.2
      rw [still m later]
      exact moves

end

/-! ## Runs that come to rest -/

section
variable {c c' : σ} {xs : List α} {a : α}

/-- A run of finitely many labels to a state that the label `a` leaves alone, and
`a` from then on. -/
def settle (h : Runs.run step c xs = some c') (rest : step c' a = some c') : Endless step where
  state n := (Runs.run step c (xs.take n)).getD c'
  label n := xs[n]?.getD a
  step_eq n := by
    obtain before | after := Nat.lt_or_ge n xs.length
    · have taken : xs.take (n + 1) = xs.take n ++ [xs[n]] := by
        rw [List.take_add_one, List.getElem?_eq_getElem before, Option.toList_some]
      have whole := h
      rw [← List.take_append_drop (n + 1) xs, taken, run_append] at whole
      obtain ⟨next, reached, -⟩ := whole
      obtain ⟨here, first, second⟩ := run_append.mp reached
      rw [taken, reached, first, List.getElem?_eq_getElem before]
      simpa [Runs.run] using second
    · rw [List.take_of_length_le after, List.take_of_length_le (Nat.le_succ_of_le after), h,
        List.getElem?_eq_none after]
      exact rest

theorem settle_end (h : Runs.run step c xs = some c') (rest : step c' a = some c') {n : Nat}
    (late : xs.length ≤ n) : (settle h rest).state n = c' := by
  simp [settle, List.take_of_length_le late, h]

/-- Where nobody is ready at the end, nobody is passed over. -/
theorem settle_fair (h : Runs.run step c xs = some c') (rest : step c' a = some c')
    {actor : α → Option ι} {Ready : σ → ι → Prop} (calm : ∀ i, ¬ Ready c' i) :
    (settle h rest).Fair actor Ready := by
  intro i n ready
  have late := ready (max n xs.length) (by omega)
  rw [settle_end h rest (by omega)] at late
  exact (calm i late).elim

end

end Endless

end Runs
