import ChronosVector.Lib.LongestPrefix
import Mathlib.Order.Bounds.Basic

/-!
# A log in two tiers under a sliding window

A log that is kept as a cold part and a hot one behind it. New items join the hot
end; a pass moves the longest prefix of the hot part that is older than its newest
item by more than a window.

* `Behind`: what any schedule of appends and passes with a window of at least `w`
  keeps;
* `Behind.split`: after a pass with window `w`, the tiers of a log in order are told
  by the log alone.
-/

namespace SlidingWindow

variable {α : Type} (key : α → Int)

/-- The cold part is older by more than `w` than something in the log. -/
structure Behind (w : Int) (log cold hot : List α) : Prop where
  whole : cold ++ hot = log
  older : ∀ x ∈ cold, ∃ y ∈ log, key x < key y - w

variable {key} {w w' m : Int} {log cold hot xs : List α} {k : Nat}

theorem behind_empty : Behind key w [] [] [] := ⟨rfl, fun _ mem => by cases mem⟩

theorem Behind.append (h : Behind key w log cold hot) (xs : List α) :
    Behind key w (log ++ xs) cold (hot ++ xs) where
  whole := by rw [← List.append_assoc, h.whole]
  older x mem := by
    obtain ⟨y, inside, older⟩ := h.older x mem
    exact ⟨y, List.mem_append_left xs inside, older⟩

/-- A pass with a window that is no smaller. -/
theorem Behind.evict (h : Behind key w log cold hot) (wide : w ≤ w')
    (attained : ∃ y ∈ hot, key y = m) (old : ∀ x ∈ hot.take k, key x < m - w') :
    Behind key w log (cold ++ hot.take k) (hot.drop k) where
  whole := by rw [List.append_assoc, List.take_append_drop, h.whole]
  older x mem := by
    obtain mem | taken := List.mem_append.mp mem
    · exact h.older x mem
    · obtain ⟨y, inside, rfl⟩ := attained
      refine ⟨y, ?_, ?_⟩
      · rw [← h.whole]
        exact List.mem_append_right cold inside
      · have below := old x taken
        omega

/-- The newest item of the log is still hot. -/
theorem Behind.newest_hot (h : Behind key w log cold hot) (positive : 0 < w)
    (newest : IsGreatest {t | ∃ x ∈ log, key x = t} m) :
    IsGreatest {t | ∃ x ∈ hot, key x = t} m := by
  obtain ⟨⟨x, inside, same⟩, above⟩ := newest
  constructor
  · refine ⟨x, ?_, same⟩
    rw [← h.whole] at inside
    obtain frozen | hot := List.mem_append.mp inside
    · obtain ⟨y, mem, older⟩ := h.older x frozen
      have bound : key y ≤ m := above ⟨y, mem, rfl⟩
      omega
    · exact hot
  · rintro t ⟨y, mem, rfl⟩
    refine above ⟨y, ?_, rfl⟩
    rw [← h.whole]
    exact List.mem_append_right cold mem

/-- Past the longest prefix of old items, a list in order has none. -/
theorem drop_young (sorted : hot.Pairwise (key · ≤ key ·)) {c : Int}
    (longest : IsLongestPrefix (fun x => key x < c) hot k) : ∀ x ∈ hot.drop k, c ≤ key x := by
  cases rest : hot.drop k with
  | nil => exact fun x mem => by cases mem
  | cons y ys =>
    have first : c ≤ key y := by
      by_contra old
      have one := longest.drop.maximal 1
      rw [rest] at one
      have none := one (by simp) (by simpa using old)
      omega
    have later : (y :: ys).Pairwise (key · ≤ key ·) := rest ▸ sorted.drop
    intro x mem
    obtain rfl | mem := List.mem_cons.mp mem
    · exact first
    · exact Int.le_trans first (List.rel_of_pairwise_cons later mem)

theorem filter_tiers {old young : List α} {c : Int} (before : ∀ x ∈ old, key x < c)
    (after : ∀ x ∈ young, c ≤ key x) :
    old = (old ++ young).filter (fun x => key x < c) ∧
      young = (old ++ young).filter (fun x => c ≤ key x) := by
  have allOld : old.filter (fun x => key x < c) = old :=
    List.filter_eq_self.mpr fun x mem => decide_eq_true (before x mem)
  have noneOld : young.filter (fun x => key x < c) = [] :=
    List.filter_eq_nil_iff.mpr fun x mem => by simpa using after x mem
  have allYoung : young.filter (fun x => c ≤ key x) = young :=
    List.filter_eq_self.mpr fun x mem => decide_eq_true (after x mem)
  have noneYoung : old.filter (fun x => c ≤ key x) = [] :=
    List.filter_eq_nil_iff.mpr fun x mem => by simpa using before x mem
  rw [List.filter_append, List.filter_append, allOld, noneOld, allYoung, noneYoung, List.append_nil,
    List.nil_append]
  exact ⟨rfl, rfl⟩

/-- **The tiers do not remember the passes.** After a pass with window `w`, the
cold part is what is older than the newest item by more than `w`. -/
theorem Behind.split (h : Behind key w log cold hot) (positive : 0 < w)
    (sorted : log.Pairwise (key · ≤ key ·))
    (newest : IsGreatest {t | ∃ x ∈ log, key x = t} m)
    (longest : IsLongestPrefix (fun x => key x < m - w) hot k) :
    cold ++ hot.take k = log.filter (fun x => key x < m - w) ∧
      hot.drop k = log.filter (fun x => m - w ≤ key x) := by
  have wide : Behind key w log (cold ++ hot.take k) (hot.drop k) :=
    h.evict (Int.le_refl w) (h.newest_hot positive newest).1 longest.holds
  have hotSorted : hot.Pairwise (key · ≤ key ·) := by
    rw [← h.whole] at sorted
    exact (List.pairwise_append.mp sorted).2.1
  have young := drop_young hotSorted longest
  have old : ∀ x ∈ cold ++ hot.take k, key x < m - w := by
    intro x mem
    obtain ⟨y, inside, older⟩ := wide.older x mem
    have bound : key y ≤ m := newest.2 ⟨y, inside, rfl⟩
    omega
  rw [← wide.whole]
  exact filter_tiers old young

end SlidingWindow
