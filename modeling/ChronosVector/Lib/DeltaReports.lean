import Mathlib.Logic.Function.Basic

/-!
# Counters reported by their deltas

Counters that only grow, and observers that report how far a counter is past the
value they saw last. An observer remembers one value, whichever counter it looks
at, those of other meters included; every counter has one observer.

* `Meter`: the counters, what the observers remember and what they reported;
* `Meter.Clear`: the counter moves unseen by no step, and no observer moves on to
  a second counter, or comes from a higher one elsewhere;
* `agrees_iff`: from a state where the reports add up, they add up after a step
  exactly when it is clear.
-/

namespace DeltaReports

variable {κ ω : Type}

/-- `elsewhere` is the highest counter an observer met that is none of these. -/
structure Meter (κ ω : Type) where
  counter : κ → Nat
  seen : ω → Nat
  elsewhere : ω → Nat
  reported : κ → Nat

/-- What one step does: nothing, an increment of a counter that its observer looks
at or does not look at, or a look of an observer at another meter's counter. -/
inductive Event (κ ω : Type)
  | idle
  | unseen (k : κ) (d : Nat)
  | observed (k : κ) (d : Nat)
  | elsewhere (t : ω) (n : Nat)

namespace Meter

section
variable (owner : κ → ω) (m : Meter κ ω)

/-- The reports of every counter add up to it. -/
def Agrees : Prop := ∀ k, m.reported k = m.counter k

/-- No counter moves unseen, and none moves whose observer met a higher one
elsewhere or has another one that moved before. -/
def Clear : Event κ ω → Prop
  | .idle => True
  | .unseen _ d => d = 0
  | .observed k d => 0 < d → m.elsewhere (owner k) ≤ m.counter k ∧
      ∀ k', k' ≠ k → owner k' = owner k → m.counter k' = 0
  | .elsewhere .. => True

/-- What clear steps keep: an observer has seen one counter of the meter move, and
remembers that one or a higher one from elsewhere. -/
structure Inv : Prop where
  own : ∀ k, m.counter k ≤ m.seen (owner k)
  one : ∀ k k', k' ≠ k → owner k' = owner k → m.counter k = 0 ∨ m.counter k' = 0
  outside : ∀ t, m.elsewhere t ≤ m.seen t
  top : ∀ t, m.seen t = m.elsewhere t ∨ ∃ k, owner k = t ∧ m.counter k = m.seen t

variable {owner : κ → ω} {m : Meter κ ω}

/-- An observer remembers the counter exactly when it met no higher one elsewhere
and has no other one that moved. -/
theorem Inv.seen_iff (inv : Inv owner m) (k : κ) :
    m.seen (owner k) = m.counter k ↔ m.elsewhere (owner k) ≤ m.counter k ∧
      ∀ k', k' ≠ k → owner k' = owner k → m.counter k' = 0 := by
  have own := inv.own k
  constructor
  · intro last
    refine ⟨last ▸ inv.outside (owner k), ?_⟩
    intro k' other same
    have own' := inv.own k'
    rw [same] at own'
    have one := inv.one k k' other same
    omega
  · rintro ⟨low, others⟩
    obtain outside | ⟨k', same, last⟩ := inv.top (owner k)
    · omega
    · by_cases eq : k' = k
      · subst eq
        exact last.symm
      · have := others k' eq same
        omega

/-- Before the first step the observers may come from other meters. -/
theorem inv_start (counters : ∀ k, m.counter k = 0) (seen : m.seen = m.elsewhere) :
    Inv owner m where
  own k := by
    rw [counters k]
    exact Nat.zero_le _
  one k _ _ _ := .inl (counters k)
  outside t := Nat.le_of_eq (congrFun seen t).symm
  top t := .inl (congrFun seen t)

end

section
variable [DecidableEq κ] [DecidableEq ω] (owner : κ → ω) (m : Meter κ ω)

def count (k : κ) (d : Nat) : Meter κ ω :=
  { m with counter := Function.update m.counter k (m.counter k + d) }

/-- The observer of `k` reports the delta, if there is one, and remembers. -/
def observe (k : κ) : Meter κ ω :=
  let cur := m.counter k
  let last := m.seen (owner k)
  if last < cur then
    { m with
      seen := Function.update m.seen (owner k) cur
      reported := Function.update m.reported k (m.reported k + (cur - last)) }
  else m

/-- The observer looks at a counter of another meter, which reports by itself. -/
def meet (t : ω) (n : Nat) : Meter κ ω :=
  { m with
    seen := Function.update m.seen t (max (m.seen t) n)
    elsewhere := Function.update m.elsewhere t (max (m.elsewhere t) n) }

def step : Event κ ω → Meter κ ω
  | .idle => m
  | .unseen k d => m.count k d
  | .observed k d => (m.count k d).observe owner k
  | .elsewhere t n => m.meet t n

end

variable [DecidableEq κ] [DecidableEq ω] {owner : κ → ω} {m : Meter κ ω} {k : κ} {d : Nat}

omit [DecidableEq ω] in
theorem count_zero : m.count k 0 = m := by
  simp [count]

/-- Where the counter has not moved there is nothing to report. -/
theorem Inv.observe_still (inv : Inv owner m) (k : κ) : m.observe owner k = m := by
  unfold observe
  exact if_neg (Nat.not_lt.mpr (inv.own k))

theorem observe_counter (m : Meter κ ω) (k : κ) : (m.observe owner k).counter = m.counter := by
  unfold observe
  dsimp only
  split <;> rfl

theorem observe_reported_ne (m : Meter κ ω) {k k' : κ} (h : k' ≠ k) :
    (m.observe owner k).reported k' = m.reported k' := by
  unfold observe
  dsimp only
  split
  · exact Function.update_of_ne h _ _
  · rfl

/-- What an observer adds to the reports: the distance from what it remembers. -/
theorem observe_reported_self (m : Meter κ ω) (k : κ) :
    (m.observe owner k).reported k =
      m.reported k + (m.counter k - m.seen (owner k)) := by
  unfold observe
  dsimp only
  split
  · exact Function.update_self _ _ _
  · rename_i low
    rw [Nat.sub_eq_zero_of_le (Nat.le_of_not_lt low), Nat.add_zero]

omit [DecidableEq ω] in
theorem agrees_count (agrees : m.Agrees) : (m.count k d).Agrees ↔ d = 0 := by
  constructor
  · intro after
    have here := after k
    simp only [count, Function.update_self, agrees k] at here
    omega
  · rintro rfl
    rwa [count_zero]

/-- The report of a moved counter is its increment exactly when the observer
remembered the counter as it was. -/
theorem agrees_observe (agrees : m.Agrees) (moved : 0 < d) :
    ((m.count k d).observe owner k).Agrees ↔ m.seen (owner k) = m.counter k := by
  have here : ((m.count k d).observe owner k).reported k =
      m.counter k + (m.counter k + d - m.seen (owner k)) := by
    rw [observe_reported_self]
    simp only [count, Function.update_self, agrees k]
  constructor
  · intro after
    have sum := after k
    rw [here, observe_counter] at sum
    simp only [count, Function.update_self] at sum
    omega
  · intro last k'
    rw [observe_counter]
    by_cases eq : k' = k
    · subst eq
      rw [here, last]
      simp only [count, Function.update_self]
      omega
    · rw [observe_reported_ne _ eq]
      simp only [count, Function.update_of_ne eq, agrees k']

/-- **One step.** The reports still add up exactly when the step is clear. -/
theorem agrees_iff (inv : Inv owner m) (agrees : m.Agrees) (ev : Event κ ω) :
    (m.step owner ev).Agrees ↔ m.Clear owner ev := by
  cases ev with
  | idle => exact iff_of_true agrees trivial
  | unseen k d => exact agrees_count agrees
  | observed k d =>
    simp only [step, Clear]
    obtain rfl | moved := Nat.eq_zero_or_pos d
    · rw [count_zero, inv.observe_still]
      exact iff_of_true agrees fun lt => absurd lt (Nat.lt_irrefl 0)
    · rw [agrees_observe agrees moved, inv.seen_iff]
      exact ⟨fun cond _ => cond, fun clear => clear moved⟩
  | elsewhere t n => exact iff_of_true agrees trivial

/-- A clear step of an observer leaves it with the counter it looked at. -/
theorem Inv.observed (inv : Inv owner m) (moved : 0 < d)
    (low : m.elsewhere (owner k) ≤ m.counter k)
    (others : ∀ k', k' ≠ k → owner k' = owner k → m.counter k' = 0) :
    Inv owner ((m.count k d).observe owner k) := by
  have last := (inv.seen_iff k).mpr ⟨low, others⟩
  have result : (m.count k d).observe owner k =
      { counter := Function.update m.counter k (m.counter k + d)
        seen := Function.update m.seen (owner k) (m.counter k + d)
        elsewhere := m.elsewhere
        reported := Function.update m.reported k (m.reported k + d) } := by
    simp only [observe, count, Function.update_self, last]
    rw [if_pos (by omega), Nat.add_sub_cancel_left]
  rw [result]
  constructor
  · intro j
    by_cases eq : j = k
    · subst eq
      simp only [Function.update_self, Nat.le_refl]
    · by_cases same : owner j = owner k
      · simp only [Function.update_of_ne eq, others j eq same, Nat.zero_le]
      · simpa only [Function.update_of_ne eq, Function.update_of_ne same] using inv.own j
  · intro i j other same
    by_cases eq : i = k
    · subst eq
      exact .inr (by simp only [Function.update_of_ne other, others j other same])
    · by_cases eq' : j = k
      · subst eq'
        exact .inl (by simp only [Function.update_of_ne eq, others i eq same.symm])
      · simpa only [Function.update_of_ne eq, Function.update_of_ne eq'] using inv.one i j other same
  · intro t
    by_cases eq : t = owner k
    · subst eq
      simp only [Function.update_self]
      omega
    · simpa only [Function.update_of_ne eq] using inv.outside t
  · intro t
    by_cases eq : t = owner k
    · subst eq
      exact .inr ⟨k, rfl, by simp only [Function.update_self]⟩
    · simp only [Function.update_of_ne eq]
      refine (inv.top t).imp id ?_
      rintro ⟨j, own, last⟩
      have other : j ≠ k := by
        rintro rfl
        exact eq own.symm
      exact ⟨j, own, by rw [Function.update_of_ne other, last]⟩

omit [DecidableEq κ] in
/-- A look elsewhere leaves the meter's counters where they are. -/
theorem Inv.meet (inv : Inv owner m) (t : ω) (n : Nat) : Inv owner (m.meet t n) := by
  constructor
  · intro k
    have own := inv.own k
    by_cases eq : owner k = t
    · subst eq
      simp only [Meter.meet, Function.update_self]
      omega
    · simpa only [Meter.meet, Function.update_of_ne eq] using own
  · exact inv.one
  · intro u
    have outside := inv.outside u
    by_cases eq : u = t
    · subst eq
      simp only [Meter.meet, Function.update_self]
      omega
    · simpa only [Meter.meet, Function.update_of_ne eq] using outside
  · intro u
    have top := inv.top u
    have outside := inv.outside u
    by_cases eq : u = t
    · subst eq
      simp only [Meter.meet, Function.update_self]
      obtain low | high := Nat.le_total (m.seen u) n
      · exact .inl (by omega)
      · rw [Nat.max_eq_left high]
        refine top.imp ?_ id
        intro same
        omega
    · simpa only [Meter.meet, Function.update_of_ne eq] using top

theorem inv_step (inv : Inv owner m) (ev : Event κ ω) (clear : m.Clear owner ev) :
    Inv owner (m.step owner ev) := by
  cases ev with
  | idle => exact inv
  | unseen k d =>
    obtain rfl : d = 0 := clear
    rwa [step, count_zero]
  | observed k d =>
    simp only [step]
    obtain rfl | moved := Nat.eq_zero_or_pos d
    · rwa [count_zero, inv.observe_still]
    · exact inv.observed moved (clear moved).1 (clear moved).2
  | elsewhere t n => exact inv.meet t n

end Meter

end DeltaReports
