import Mathlib.Data.List.TakeWhile

/-!
# The longest prefix of a list that satisfies a predicate

* `IsLongestPrefix`: the length of that prefix, as a property;
* `takeWhile`: `List.takeWhile` computes it;
* `mono`: a weaker predicate has a longer one;
* `drop`, `mem_drop`: what is left once it was dropped.
-/

/-- `k` elements are the longest prefix of `l` on which `p` holds. -/
structure IsLongestPrefix {α : Type} (p : α → Prop) (l : List α) (k : Nat) : Prop where
  le : k ≤ l.length
  holds : ∀ x ∈ l.take k, p x
  maximal : ∀ j ≤ l.length, (∀ x ∈ l.take j, p x) → j ≤ k

namespace IsLongestPrefix

variable {α : Type} {p q : α → Prop} {l : List α} {k j : Nat}

theorem unique (h : IsLongestPrefix p l k) (h' : IsLongestPrefix p l j) : k = j :=
  Nat.le_antisymm (h'.maximal k h.le h.holds) (h.maximal j h'.le h'.holds)

theorem takeWhile (p : α → Prop) [DecidablePred p] (l : List α) :
    IsLongestPrefix p l (l.takeWhile fun x => p x).length where
  le := (List.takeWhile_sublist _).length_le
  holds := by
    intro x hx
    rw [← List.prefix_iff_eq_take.mp (List.takeWhile_prefix _)] at hx
    have taken := List.mem_takeWhile_imp (p := fun x => decide (p x)) hx
    exact of_decide_eq_true taken
  maximal := by
    intro j hj all
    rw [← List.take_append_drop j l, List.takeWhile_append_of_pos (by simpa using all),
      List.length_append, List.length_take_of_le hj]
    exact Nat.le_add_right j _

theorem mono (h : IsLongestPrefix p l k) (h' : IsLongestPrefix q l j) (imp : ∀ x, p x → q x) :
    k ≤ j :=
  h'.maximal k h.le fun x hx => imp x (h.holds x hx)

theorem map {β : Type} {f : β → α} {l : List β} (h : IsLongestPrefix (fun x => p (f x)) l k) :
    IsLongestPrefix p (l.map f) k where
  le := by
    rw [List.length_map]
    exact h.le
  holds := by
    intro y hy
    rw [← List.map_take] at hy
    obtain ⟨x, hx, rfl⟩ := List.mem_map.mp hy
    exact h.holds x hx
  maximal := by
    intro j hj all
    rw [List.length_map] at hj
    rw [← List.map_take] at all
    exact h.maximal j hj fun x hx => all (f x) (List.mem_map_of_mem hx)

/-- Past the longest prefix there is none. -/
theorem drop (h : IsLongestPrefix p l k) : IsLongestPrefix p (l.drop k) 0 where
  le := Nat.zero_le _
  holds := by simp
  maximal := by
    intro j hj all
    have hk := h.le
    have bound : k + j ≤ l.length := by
      simp only [List.length_drop] at hj
      omega
    have longer := h.maximal (k + j) bound
    rw [List.take_add] at longer
    have none := longer fun x hx => (List.mem_append.mp hx).elim (h.holds x) (all x)
    omega

/-- An element on which `p` fails is past the prefix. -/
theorem mem_drop (h : IsLongestPrefix p l k) {x : α} (hx : x ∈ l) (fails : ¬ p x) : x ∈ l.drop k := by
  rw [← List.take_append_drop k l] at hx
  exact (List.mem_append.mp hx).resolve_left fun taken => fails (h.holds x taken)

end IsLongestPrefix
