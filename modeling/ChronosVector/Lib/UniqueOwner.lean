import ChronosVector.Lib.Runs
import Mathlib.Data.List.Nodup
import Mathlib.Logic.Function.Basic

/-!
# Move-only owners

Objects of a class that holds one handle, or null, gives it back in its destructor
and can be moved. Handles are numbers in the order of their creation. A step is
undefined where a handle is used or given back that is no longer there.

* `Owned`: every thing has one owner, and every handle was given back once or is
  alive;
* `run_owned`: no program that minds the lifetimes of its objects is undefined, and
  it keeps to that;
* `all_given_back`: where no object is left, nothing is left;
* `thing_of_handle`: moves apart, a thing is what was made of it through its owners.
-/

namespace UniqueOwner

structure State (ι α : Type) where
  /-- The handle in an object, for the objects that are in their lifetime. -/
  slot : ι → Option (Option Nat)
  heap : Nat → Option α
  freed : List Nat
  next : Nat

inductive Op (ι α : Type)
  | create (x : ι) (a : α)
  | moveConstruct (x y : ι)
  | moveAssign (x y : ι)
  | use (x : ι) (f : α → α)
  | destruct (x : ι)

variable {ι α : Type} [DecidableEq ι]

namespace State

def empty : State ι α := ⟨fun _ => none, fun _ => none, [], 0⟩

variable (s : State ι α)

def put (x : ι) (v : Option (Option Nat)) : State ι α := { s with slot := Function.update s.slot x v }

/-- Put `y`'s handle into `x`, and null into `y`. -/
def transfer (x y : ι) : Option (State ι α) :=
  match s.slot y with
  | none => none
  | some v => some ((s.put y (some none)).put x (some v))

/-- Give back the handle of `x`, if it has one. -/
def reset (x : ι) : Option (State ι α) :=
  match s.slot x with
  | none => none
  | some none => some s
  | some (some h) =>
    match s.heap h with
    | none => none
    | some _ => some { s.put x (some none) with
        heap := Function.update s.heap h none
        freed := s.freed ++ [h] }

def step : Op ι α → Option (State ι α)
  | .create x a =>
    some { s.put x (some (some s.next)) with
      heap := Function.update s.heap s.next (some a)
      next := s.next + 1 }
  | .moveConstruct x y => s.transfer x y
  | .moveAssign x y => if x = y then some s else (s.reset x).bind fun s' => s'.transfer x y
  | .use x f =>
    match s.slot x with
    | none => none
    | some none => some s
    | some (some h) =>
      match s.heap h with
      | none => none
      | some a => some { s with heap := Function.update s.heap h (some (f a)) }
  | .destruct x => (s.reset x).map fun s' => s'.put x none

def run : State ι α → List (Op ι α) → Option (State ι α) := Runs.run step

/-- The lifetimes, which the language sees to. -/
def Lives : Op ι α → Prop
  | .create x _ => s.slot x = none
  | .moveConstruct x y => s.slot x = none ∧ s.slot y ≠ none
  | .moveAssign x y => s.slot x ≠ none ∧ s.slot y ≠ none
  | .use x _ => s.slot x ≠ none
  | .destruct x => s.slot x ≠ none

instance : ∀ op : Op ι α, Decidable (s.Lives op)
  | .create x _ => inferInstanceAs (Decidable (s.slot x = none))
  | .moveConstruct x y => inferInstanceAs (Decidable (s.slot x = none ∧ s.slot y ≠ none))
  | .moveAssign x y => inferInstanceAs (Decidable (s.slot x ≠ none ∧ s.slot y ≠ none))
  | .use x _ => inferInstanceAs (Decidable (s.slot x ≠ none))
  | .destruct x => inferInstanceAs (Decidable (s.slot x ≠ none))

structure Owned : Prop where
  alive : ∀ {x h}, s.slot x = some (some h) → (s.heap h).isSome
  unique : ∀ {x y h}, s.slot x = some (some h) → s.slot y = some (some h) → x = y
  covered : ∀ {h}, (s.heap h).isSome → ∃ x, s.slot x = some (some h)
  once : s.freed.Nodup
  born : ∀ {h}, h < s.next ↔ (s.heap h).isSome ∨ h ∈ s.freed
  gone : ∀ {h}, h ∈ s.freed → s.heap h = none

end State

open State

variable {s s' : State ι α} {x y : ι} {h : Nat}

omit [DecidableEq ι] in
theorem empty_owned : (empty : State ι α).Owned := by
  refine ⟨?_, ?_, ?_, List.nodup_nil, ?_, ?_⟩ <;> simp [empty]

@[simp] theorem slot_put_self (s : State ι α) (x : ι) (v : Option (Option Nat)) :
    (s.put x v).slot x = v := Function.update_self ..

theorem slot_put_ne (s : State ι α) (v : Option (Option Nat)) (other : y ≠ x) :
    (s.put x v).slot y = s.slot y := Function.update_of_ne other ..

/-! ## The steps -/

theorem reset_spec (o : s.Owned) (live : s.slot x ≠ none) :
    ∃ s', s.reset x = some s' ∧ s'.Owned ∧ s'.slot = Function.update s.slot x (some none) := by
  unfold reset
  cases held : s.slot x with
  | none => exact absurd held live
  | some v =>
    cases v with
    | none => exact ⟨s, rfl, o, by rw [← held, Function.update_eq_self]⟩
    | some h =>
      obtain ⟨a, there⟩ := Option.isSome_iff_exists.mp (o.alive held)
      simp only [there]
      refine ⟨_, rfl, ?_, rfl⟩
      have fresh : h ∉ s.freed := by
        intro freed
        rw [o.gone freed] at there
        cases there
      have elsewhere : ∀ {y k}, (s.put x (some none)).slot y = some (some k) →
          s.slot y = some (some k) ∧ k ≠ h := by
        intro y k holds
        by_cases same : y = x
        · subst same
          simp at holds
        · rw [slot_put_ne s _ same] at holds
          refine ⟨holds, ?_⟩
          rintro rfl
          exact same (o.unique holds held)
      refine ⟨?_, ?_, ?_, ?_, ?_, ?_⟩
      · intro y k holds
        obtain ⟨holds, other⟩ := elsewhere holds
        simp only [Function.update_of_ne other]
        exact o.alive holds
      · intro y z k holds holds'
        exact o.unique (elsewhere holds).1 (elsewhere holds').1
      · intro k some
        by_cases same : k = h
        · subst same
          simp at some
        · simp only [Function.update_of_ne same] at some
          obtain ⟨y, holds⟩ := o.covered some
          refine ⟨y, ?_⟩
          have other : y ≠ x := by
            rintro rfl
            rw [held] at holds
            exact same (by simpa using holds.symm)
          exact (slot_put_ne s _ other).trans holds
      · rw [List.nodup_append]
        refine ⟨o.once, List.nodup_singleton h, ?_⟩
        intro k mem k' mem'
        rw [List.mem_singleton.mp mem']
        rintro rfl
        exact fresh mem
      · intro k
        rw [List.mem_append, List.mem_singleton]
        by_cases same : k = h
        · subst same
          exact iff_of_true (o.born.mpr (.inl (o.alive held))) (.inr (.inr rfl))
        · simp only [Function.update_of_ne same, same, or_false]
          exact o.born
      · intro k freed
        by_cases same : k = h
        · subst same
          exact Function.update_self ..
        · simp only [Function.update_of_ne same]
          obtain freed | last := List.mem_append.mp freed
          · exact o.gone freed
          · exact absurd (List.mem_singleton.mp last) same

/-- What an object that holds nothing takes over. -/
theorem transfer_spec (o : s.Owned) (other : x ≠ y) (none : ∀ h, s.slot x ≠ some (some h))
    (live : s.slot y ≠ Option.none) :
    ∃ s', s.transfer x y = some s' ∧ s'.Owned := by
  unfold transfer
  obtain ⟨v, held⟩ := Option.ne_none_iff_exists'.mp live
  simp only [held]
  refine ⟨_, rfl, ?_⟩
  have slots : ((s.put y (some Option.none)).put x (some v)).slot =
      Function.update (Function.update s.slot y (some Option.none)) x (some v) := rfl
  -- who holds a handle now held it before, or took it from `y`
  have before : ∀ {z k}, ((s.put y (some Option.none)).put x (some v)).slot z = some (some k) →
      z = x ∧ s.slot y = some (some k) ∨ z ≠ x ∧ z ≠ y ∧ s.slot z = some (some k) := by
    intro z k holds
    rw [slots] at holds
    by_cases first : z = x
    · subst first
      rw [Function.update_self] at holds
      exact .inl ⟨rfl, held.trans holds⟩
    · rw [Function.update_of_ne first] at holds
      by_cases second : z = y
      · subst second
        simp at holds
      · rw [Function.update_of_ne second] at holds
        exact .inr ⟨first, second, holds⟩
  refine ⟨?_, ?_, ?_, o.once, o.born, o.gone⟩
  · intro z k holds
    obtain ⟨-, held⟩ | ⟨-, -, held⟩ := before holds <;> exact o.alive held
  · intro z z' k holds holds'
    obtain ⟨first, held⟩ | ⟨-, apart, held⟩ := before holds
    · obtain ⟨second, -⟩ | ⟨-, apart', held'⟩ := before holds'
      · exact first.trans second.symm
      · exact absurd (o.unique held' held) apart'
    · obtain ⟨-, held'⟩ | ⟨-, -, held'⟩ := before holds'
      · exact absurd (o.unique held held') apart
      · exact o.unique held held'
  · intro k some
    obtain ⟨z, holds⟩ := o.covered some
    by_cases same : z = y
    · subst same
      refine ⟨x, ?_⟩
      rw [slots, Function.update_self, ← held, holds]
    · refine ⟨z, ?_⟩
      have notFirst : z ≠ x := by
        rintro rfl
        exact none k holds
      rw [slots, Function.update_of_ne notFirst, Function.update_of_ne same, holds]

theorem create_owned (o : s.Owned) (none : s.slot x = none) (a : α) :
    ∃ s', s.step (.create x a) = some s' ∧ s'.Owned := by
  refine ⟨_, rfl, ?_⟩
  have unborn : s.heap s.next = Option.none := by
    by_contra some
    exact Nat.lt_irrefl _ (o.born.mpr (.inl (Option.isSome_iff_ne_none.mpr some)))
  have unfreed : s.next ∉ s.freed := fun freed => Nat.lt_irrefl _ (o.born.mpr (.inr freed))
  have older : ∀ {z k}, s.slot z = some (some k) → k ≠ s.next := by
    rintro z k holds rfl
    have there := o.alive holds
    rw [unborn] at there
    cases there
  refine ⟨?_, ?_, ?_, o.once, ?_, ?_⟩
  · intro z k holds
    by_cases same : z = x
    · subst same
      obtain rfl : s.next = k := by simpa [put] using holds
      simp
    · simp only [put, Function.update_of_ne same] at holds
      simp only [Function.update_of_ne (older holds)]
      exact o.alive holds
  · intro z z' k holds holds'
    by_cases same : z = x <;> by_cases same' : z' = x
    · exact same.trans same'.symm
    · subst same
      obtain rfl : s.next = k := by simpa [put] using holds
      simp only [put, Function.update_of_ne same'] at holds'
      exact absurd rfl (older holds')
    · subst same'
      obtain rfl : s.next = k := by simpa [put] using holds'
      simp only [put, Function.update_of_ne same] at holds
      exact absurd rfl (older holds)
    · simp only [put, Function.update_of_ne same, Function.update_of_ne same'] at holds holds'
      exact o.unique holds holds'
  · intro k some
    by_cases new : k = s.next
    · exact ⟨x, by simp [put, new]⟩
    · simp only [Function.update_of_ne new] at some
      obtain ⟨z, holds⟩ := o.covered some
      refine ⟨z, ?_⟩
      have other : z ≠ x := by
        rintro rfl
        rw [none] at holds
        cases holds
      simp only [put, Function.update_of_ne other]
      exact holds
  · intro k
    by_cases new : k = s.next
    · subst new
      simp
    · simp only [Function.update_of_ne new]
      exact ⟨fun less => o.born.mp (by omega), fun known => Nat.lt_succ_of_lt (o.born.mpr known)⟩
  · intro k freed
    by_cases new : k = s.next
    · subst new
      exact absurd freed unfreed
    · simp only [Function.update_of_ne new]
      exact o.gone freed

theorem use_owned (o : s.Owned) (live : s.slot x ≠ none) (f : α → α) :
    ∃ s', s.step (.use x f) = some s' ∧ s'.Owned := by
  simp only [step]
  cases held : s.slot x with
  | none => exact absurd held live
  | some v =>
    cases v with
    | none => exact ⟨s, rfl, o⟩
    | some h =>
      obtain ⟨a, there⟩ := Option.isSome_iff_exists.mp (o.alive held)
      simp only [there]
      refine ⟨_, rfl, ?_⟩
      have same : ∀ k, (Function.update s.heap h (some (f a)) k).isSome = (s.heap k).isSome := by
        intro k
        by_cases here : k = h
        · subst here
          rw [Function.update_self, there]
          rfl
        · rw [Function.update_of_ne here]
      refine ⟨?_, o.unique, ?_, o.once, ?_, ?_⟩
      · intro z k holds
        rw [same]
        exact o.alive holds
      · intro k some
        rw [same] at some
        exact o.covered some
      · intro k
        rw [same]
        exact o.born
      · intro k freed
        have none := o.gone freed
        rw [← Option.not_isSome_iff_eq_none, same, none]
        exact Bool.false_ne_true

theorem destruct_owned (o : s.Owned) (live : s.slot x ≠ none) :
    ∃ s', s.step (.destruct x) = some s' ∧ s'.Owned := by
  obtain ⟨s', reset, o', slots⟩ := reset_spec o live
  refine ⟨s'.put x none, by simp only [step, reset, Option.map_some], ?_⟩
  -- the object that ends holds nothing
  have null : s'.slot x = some none := by rw [slots, Function.update_self]
  have others : ∀ {z k}, (s'.put x none).slot z = some (some k) ↔ s'.slot z = some (some k) := by
    intro z k
    by_cases same : z = x
    · subst same
      simp [null]
    · rw [slot_put_ne s' _ same]
  exact ⟨fun holds => o'.alive (others.mp holds),
    fun holds holds' => o'.unique (others.mp holds) (others.mp holds'),
    fun some => (o'.covered some).imp fun _ holds => others.mpr holds, o'.once, o'.born, o'.gone⟩

/-- **One step.** -/
theorem step_owned (o : s.Owned) {op : Op ι α} (lives : s.Lives op) :
    ∃ s', s.step op = some s' ∧ s'.Owned := by
  cases op with
  | create x a => exact create_owned o lives a
  | moveConstruct x y =>
    obtain ⟨none, live⟩ := lives
    refine transfer_spec o ?_ (by simp [none]) live
    rintro rfl
    exact live none
  | moveAssign x y =>
    obtain ⟨live, live'⟩ := lives
    simp only [step]
    by_cases self : x = y
    · exact ⟨s, if_pos self, o⟩
    · obtain ⟨s', reset, o', slots⟩ := reset_spec o live
      rw [if_neg self, reset, Option.bind_some]
      apply transfer_spec o' self
      · simp [slots]
      · rwa [slots, Function.update_of_ne (Ne.symm self)]
  | use x f => exact use_owned o lives f
  | destruct x => exact destruct_owned o lives

/-! ## Programs -/

/-- **Programs are defined.** A program that minds the lifetimes of its objects
never uses or gives back a handle that is gone. -/
theorem run_owned {ops : List (Op ι α)} (o : s.Owned) (lives : Runs.Along step Lives s ops) :
    ∃ s', s.run ops = some s' ∧ s'.Owned := by
  induction ops generalizing s with
  | nil => exact ⟨s, rfl, o⟩
  | cons op rest ih =>
    obtain ⟨s₁, stepped, o₁⟩ := step_owned o lives.1
    obtain ⟨s', ran, o'⟩ := ih o₁ (lives.2 s₁ stepped)
    exact ⟨s', Runs.run_cons.mpr ⟨s₁, stepped, ran⟩, o'⟩

omit [DecidableEq ι] in
/-- Without objects, every handle has been given back, and once. -/
theorem all_given_back (o : s.Owned) (ended : ∀ x, s.slot x = none) :
    ∀ h < s.next, s.heap h = none ∧ s.freed.count h = 1 := by
  intro h known
  have gone : s.heap h = none := by
    by_contra some
    obtain ⟨x, holds⟩ := o.covered (Option.isSome_iff_ne_none.mpr some)
    rw [ended x] at holds
    cases holds
  have freed : h ∈ s.freed := by
    obtain there | freed := o.born.mp known
    · rw [gone] at there
      cases there
    · exact freed
  exact ⟨gone, List.count_eq_one_of_mem o.once freed⟩

/-! ## What becomes of a thing -/

/-- The things created, in the order of their handles. -/
def created : List (Op ι α) → List α
  | [] => []
  | .create _ a :: rest => a :: created rest
  | _ :: rest => created rest

/-- What an operation does to the thing at `h`. -/
def usesNow (s : State ι α) (h : Nat) : Op ι α → List (α → α)
  | .use x f => if s.slot x = some (some h) then [f] else []
  | _ => []

/-- What a program does to the thing at `h`, through whichever object has it then. -/
def usesOf (h : Nat) : State ι α → List (Op ι α) → List (α → α)
  | _, [] => []
  | s, op :: rest =>
    usesNow s h op ++
      match s.step op with
      | none => []
      | some s' => usesOf h s' rest

def applyAll (fs : List (α → α)) (a : α) : α := fs.foldl (fun a f => f a) a

theorem applyAll_append (fs gs : List (α → α)) (a : α) :
    applyAll (fs ++ gs) a = applyAll gs (applyAll fs a) := List.foldl_append

theorem transfer_heap (moved : s.transfer x y = some s') : s'.heap = s.heap ∧ s'.next = s.next := by
  unfold transfer at moved
  split at moved
  · cases moved
  · cases moved
    exact ⟨rfl, rfl⟩

/-- What is there after a reset was there before. -/
theorem reset_heap {b : α} (reset : s.reset x = some s') (there : s'.heap h = some b) :
    s.heap h = some b := by
  unfold State.reset at reset
  split at reset
  · cases reset
  · cases reset
    exact there
  · split at reset
    · cases reset
    · rename_i k _ _ _ _
      cases reset
      by_cases same : h = k
      · subst same
        simp at there
      · simp only [Function.update_of_ne same] at there
        exact there

theorem reset_next (reset : s.reset x = some s') : s'.next = s.next := by
  unfold State.reset at reset
  split at reset
  · cases reset
  · cases reset
    rfl
  · split at reset
    · cases reset
    · cases reset
      rfl

theorem step_next {op : Op ι α} (stepped : s.step op = some s') :
    s'.next = s.next + (created [op]).length := by
  cases op with
  | create x a =>
    cases stepped
    rfl
  | moveConstruct x y => exact (transfer_heap stepped).2
  | moveAssign x y =>
    simp only [step] at stepped
    split at stepped
    · cases stepped
      rfl
    · obtain ⟨s₁, reset, moved⟩ := Option.bind_eq_some_iff.mp stepped
      exact (transfer_heap moved).2.trans (reset_next reset)
  | use x f =>
    simp only [step] at stepped
    split at stepped
    · cases stepped
    · cases stepped
      rfl
    · split at stepped
      · cases stepped
      · cases stepped
        rfl
  | destruct x =>
    obtain ⟨s₁, reset, rfl⟩ := Option.map_eq_some_iff.mp stepped
    have same := reset_next reset
    exact same

omit [DecidableEq ι] in
theorem created_cons (op : Op ι α) (rest : List (Op ι α)) :
    created (op :: rest) = created [op] ++ created rest := by
  cases op <;> rfl

theorem run_next {ops : List (Op ι α)} (ran : s.run ops = some s') :
    s'.next = s.next + (created ops).length := by
  induction ops generalizing s with
  | nil =>
    cases ran
    rfl
  | cons op rest ih =>
    obtain ⟨s₁, stepped, ran⟩ := Runs.run_cons.mp ran
    rw [ih ran, step_next stepped, created_cons op rest, List.length_append, Nat.add_assoc]

/-- A thing after a step is the one before it, used or not, or is new. -/
theorem step_thing {op : Op ι α} {b : α} (stepped : s.step op = some s')
    (there : s'.heap h = some b) :
    (∃ a, s.heap h = some a ∧ b = applyAll (usesNow s h op) a) ∨
      h = s.next ∧ created [op] = [b] ∧ usesNow s h op = [] := by
  cases op with
  | create x a =>
    cases stepped
    by_cases new : h = s.next
    · subst new
      obtain rfl : a = b := by simpa using there
      exact .inr ⟨rfl, rfl, rfl⟩
    · simp only [Function.update_of_ne new] at there
      exact .inl ⟨b, there, rfl⟩
  | moveConstruct x y =>
    rw [(transfer_heap stepped).1] at there
    exact .inl ⟨b, there, rfl⟩
  | moveAssign x y =>
    simp only [step] at stepped
    split at stepped
    · cases stepped
      exact .inl ⟨b, there, rfl⟩
    · obtain ⟨s₁, reset, moved⟩ := Option.bind_eq_some_iff.mp stepped
      rw [(transfer_heap moved).1] at there
      exact .inl ⟨b, reset_heap reset there, rfl⟩
  | destruct x =>
    obtain ⟨s₁, reset, rfl⟩ := Option.map_eq_some_iff.mp stepped
    exact .inl ⟨b, reset_heap reset there, rfl⟩
  | use x f =>
    simp only [step] at stepped
    simp only [usesNow]
    split at stepped
    · cases stepped
    · rename_i null
      cases stepped
      rw [null, if_neg (by simp)]
      exact .inl ⟨b, there, rfl⟩
    · rename_i k held
      split at stepped
      · cases stepped
      · rename_i a before
        cases stepped
        rw [held]
        by_cases same : h = k
        · subst same
          rw [if_pos rfl]
          exact .inl ⟨a, before, by simpa [applyAll] using there.symm⟩
        · rw [if_neg (by simpa using Ne.symm same)]
          simp only [Function.update_of_ne same] at there
          exact .inl ⟨b, there, rfl⟩

omit [DecidableEq ι] in
/-- Nothing is done to a thing before it is there. -/
theorem usesNow_unborn (o : s.Owned) (unborn : s.next ≤ h) (op : Op ι α) : usesNow s h op = [] := by
  cases op with
  | use x f =>
    refine if_neg fun held => ?_
    have known := o.born.mpr (.inl (o.alive held))
    omega
  | _ => rfl

/-- **Moves leave things alone.** What an object has after a program is the thing
created under its handle, with all that was done to it through the objects that
had it, in that order. -/
theorem thing_of_handle {ops : List (Op ι α)} {b : α} (o : s.Owned)
    (lives : Runs.Along step Lives s ops) (ran : s.run ops = some s') (there : s'.heap h = some b) :
    ∃ a, (s.heap h = some a ∨ s.next ≤ h ∧ (created ops)[h - s.next]? = some a) ∧
      b = applyAll (usesOf h s ops) a := by
  induction ops generalizing s with
  | nil =>
    cases ran
    exact ⟨b, .inl there, rfl⟩
  | cons op rest ih =>
    obtain ⟨s₁, stepped, o₁⟩ := step_owned o lives.1
    obtain ⟨s₂, stepped', ran⟩ := Runs.run_cons.mp ran
    obtain rfl : s₁ = s₂ := by simpa [stepped] using stepped'
    obtain ⟨a₁, from_, rfl⟩ := ih o₁ (lives.2 s₁ stepped) ran
    simp only [usesOf, stepped, applyAll_append]
    have next := step_next stepped
    obtain there₁ | ⟨later, made⟩ := from_
    · obtain ⟨a, before, rfl⟩ | ⟨rfl, new, unused⟩ := step_thing stepped there₁
      · exact ⟨a, .inl before, rfl⟩
      · refine ⟨a₁, .inr ⟨Nat.le_refl _, ?_⟩, by rw [unused]; rfl⟩
        rw [created_cons, new, Nat.sub_self]
        rfl
    · refine ⟨a₁, .inr ⟨by omega, ?_⟩, by rw [usesNow_unborn o (by omega) op]; rfl⟩
      rw [created_cons, List.getElem?_append_right (by omega)]
      rwa [next, Nat.sub_add_eq] at made

end UniqueOwner
