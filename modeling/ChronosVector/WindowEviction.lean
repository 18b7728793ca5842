import Mathlib.Order.Bounds.Basic
import ChronosVector.Exact
import ChronosVector.Lib.LongestPrefix

/-!
# Window eviction is exact

`EvictSensor` with a window, as long as the cutoff does not leave the 64 bits.

* `latestTs_isGreatest`: the first scan finds the largest timestamp;
* `evictCount_isLongestPrefix`: the second takes the longest prefix older than
  the cutoff, in exact integers;
* `evictSensor_hot`: what the pass leaves in the window;
* `window_eviction_exact`: the newest entries stay, a second pass finds nothing
  and a smaller window takes no less.
-/

namespace ChronosVector

variable {F : Type}

/-- The timestamps of a window. -/
def timestampsOf (items : List (Entry F)) : Set Int := {t | ∃ x ∈ items, x.ts.toInt = t}

/-- Older than `m` by more than `w`. -/
def Entry.Outdated (m w : Int) (x : Entry F) : Prop := x.ts.toInt < m - w

instance (m w : Int) : DecidablePred (Entry.Outdated (F := F) m w) :=
  fun x => inferInstanceAs (Decidable (x.ts.toInt < m - w))

/-! ## The two scans -/

theorem latest_foldl (items : List (Entry F)) (m₀ : Int64) :
    let m := items.foldl (fun m x => if m < x.ts then x.ts else m) m₀
    m₀.toInt ≤ m.toInt ∧ (∀ x ∈ items, x.ts.toInt ≤ m.toInt) ∧ (m = m₀ ∨ ∃ x ∈ items, x.ts = m) := by
  induction items generalizing m₀ with
  | nil => exact ⟨Int.le_refl _, by simp, .inl rfl⟩
  | cons x xs ih =>
    obtain ⟨above, all, attained⟩ := ih (if m₀ < x.ts then x.ts else m₀)
    have first : m₀.toInt ≤ (if m₀ < x.ts then x.ts else m₀).toInt ∧
        x.ts.toInt ≤ (if m₀ < x.ts then x.ts else m₀).toInt := by
      split
      · rename_i lt
        exact ⟨Int.le_of_lt (Int64.lt_iff_toInt_lt.mp lt), Int.le_refl _⟩
      · rename_i le
        exact ⟨Int.le_refl _, Int.not_lt.mp (mt Int64.lt_iff_toInt_lt.mpr le)⟩
    refine ⟨Int.le_trans first.1 above, ?_, ?_⟩
    · intro y hy
      obtain rfl | hy := List.mem_cons.mp hy
      · exact Int.le_trans first.2 above
      · exact all y hy
    · obtain same | ⟨y, hy, eq⟩ := attained
      · simp only [List.foldl_cons, same]
        split
        · exact .inr ⟨x, List.mem_cons_self, rfl⟩
        · exact .inl rfl
      · exact .inr ⟨y, List.mem_cons_of_mem x hy, eq⟩

theorem latestTs_isGreatest {items : List (Entry F)} (h : items ≠ []) :
    IsGreatest (timestampsOf items) (latestTs items).toInt := by
  obtain ⟨-, all, attained⟩ := latest_foldl items Int64.minValue
  constructor
  · obtain least | ⟨x, hx, eq⟩ := attained
    · -- nothing rose above the least value, which every entry then has
      obtain ⟨x, hx⟩ := List.exists_mem_of_ne_nil items h
      refine ⟨x, hx, Int.le_antisymm (all x hx) ?_⟩
      rw [show latestTs items = Int64.minValue from least]
      exact x.ts.minValue_le_toInt
    · exact ⟨x, hx, congrArg Int64.toInt eq⟩
  · rintro t ⟨x, hx, rfl⟩
    exact all x hx

theorem ne_zero_of_positive {w : Int64} (positive : 0 < w.toInt) : w ≠ 0 := by
  rintro rfl
  exact absurd positive (by decide)

theorem cutoff_exact {m w : Int64} (fits : -2 ^ 63 ≤ m.toInt - w.toInt) (positive : 0 < w.toInt) :
    (m - w).toInt = m.toInt - w.toInt := by
  have upper := m.toInt_lt
  rw [Int64.toInt_sub, Int.bmod_eq_of_le]
  all_goals omega

theorem evictCount_isLongestPrefix {items : List (Entry F)} {w : Int64} {m : Int}
    (positive : 0 < w.toInt) (newest : IsGreatest (timestampsOf items) m)
    (fits : -2 ^ 63 ≤ m - w.toInt) :
    IsLongestPrefix (Entry.Outdated m w.toInt) items (evictCount w items) := by
  obtain ⟨x, hx, -⟩ := newest.1
  have latest : (latestTs items).toInt = m :=
    (latestTs_isGreatest (List.ne_nil_of_mem hx)).unique newest
  have cutoff : (latestTs items - w).toInt = m - w.toInt := by
    rw [cutoff_exact (by rwa [latest]) positive, latest]
  have same : (fun x : Entry F => decide (x.ts < latestTs items - w)) =
      fun x => decide (x.ts.toInt < m - w.toInt) := by
    funext x
    apply decide_eq_decide.mpr
    rw [Int64.lt_iff_toInt_lt, cutoff]
  rw [evictCount, if_neg (ne_zero_of_positive positive), same]
  exact .takeWhile (Entry.Outdated m w.toInt) items

/-- The newest entries are past the prefix. -/
theorem newest_survives {items : List (Entry F)} {m w : Int} {k : Nat} (positive : 0 < w)
    (newest : IsGreatest (timestampsOf items) m)
    (longest : IsLongestPrefix (Entry.Outdated m w) items k) :
    IsGreatest (timestampsOf (items.drop k)) m := by
  obtain ⟨⟨x, hx, eq⟩, above⟩ := newest
  constructor
  · refine ⟨x, longest.mem_drop hx ?_, eq⟩
    unfold Entry.Outdated
    omega
  · rintro t ⟨y, hy, rfl⟩
    exact above ⟨y, List.mem_of_mem_drop hy, rfl⟩

/-! ## The pass -/

namespace Engine

variable [FloatArith F] {e : Engine F} {env : Env F} {s : SensorId} {slot : SensorSlot F} {w : Int64}

/-- The tier after a pass at the sensor. -/
def tierAfter (e : Engine F) (env : Env F) (s : SensorId) (slot : SensorSlot F) (w : Int64) : Tier F :=
  (e.evictSensor env s slot w).1.tier s

theorem evictSensor_hot (ok : e.Ok) (found : e.sensors.lookup s = some slot)
    (memory : 4 ≤ env.scratchMemory s) (w : Int64) :
    (e.tierAfter env s slot w).hot = (e.tier s).hot.pop (evictCount w (e.tier s).hot.items) := by
  have count : (e.tier s).evictedCount env w s = evictCount w (e.tier s).hot.items := by
    rw [Tier.evictedCount, if_neg (Nat.not_lt.mpr memory)]
  have evicts := (evictSensor_evicts env w ok found).1
  rw [tierAfter]
  generalize (e.evictSensor env s slot w).1.tier s = t,
    (e.evictSensor env s slot w).2.toList = blks at evicts
  cases evicts with
  | idle zero => rw [← count, zero, BoundedQueue.pop_zero]
  | wrote k blk counted => rw [Tier.evict_hot, ← counted, count]

/-- **Window eviction is exact.** With `m` the largest timestamp of the window,
and as long as `m - w` fits 64 bits, a pass removes the longest prefix older than
`m - w`. So no newest entry goes, a second pass has nothing to do, and a smaller
window removes no less; a window of zero removes everything. -/
theorem window_eviction_exact (ok : e.Ok) (found : e.sensors.lookup s = some slot)
    (memory : 4 ≤ env.scratchMemory s) (positive : 0 < w.toInt) {m : Int}
    (newest : IsGreatest (timestampsOf (e.tier s).hot.items) m) (fits : -2 ^ 63 ≤ m - w.toInt) :
    (∃ k, IsLongestPrefix (Entry.Outdated m w.toInt) (e.tier s).hot.items k ∧
      (e.tierAfter env s slot w).hot = (e.tier s).hot.pop k ∧
      ∀ x ∈ (e.tier s).hot.items.take k, x.ts.toInt ≠ m) ∧
    (∀ env' slot', (e.evictSensor env s slot w).1.sensors.lookup s = some slot' →
      (e.evictSensor env s slot w).1.evictSensor env' s slot' w =
        ((e.evictSensor env s slot w).1, none)) ∧
    (∀ w' : Int64, 0 ≤ w'.toInt → w'.toInt ≤ w.toInt →
      (e.tierAfter env s slot w').hot.items.length ≤ (e.tierAfter env s slot w).hot.items.length) ∧
    (e.tierAfter env s slot 0).hot.items = [] := by
  have longest := evictCount_isLongestPrefix positive newest fits
  have after := evictSensor_hot ok found memory w
  have ok' := (evictSensor_evicts env w ok found).2.2.1
  have empty : (e.tierAfter env s slot 0).hot.items = [] := by
    rw [evictSensor_hot ok found memory, evictCount_zero, BoundedQueue.pop, List.drop_length]
  refine ⟨⟨_, longest, after, ?_⟩, ?_, ?_, empty⟩
  · intro x hx
    have old := longest.holds x hx
    unfold Entry.Outdated at old
    omega
  · intro env' slot' found'
    refine evictSensor_nothing ?_ fun r hr => (ok' s r ((ring_eq found').trans hr)).2
    rw [due_eq ok' found']
    -- the newest entry survived, so the second pass has the cutoff of the first
    have second := evictCount_isLongestPrefix positive (newest_survives positive newest longest) fits
    have same : ((e.evictSensor env s slot w).1.tier s).hot = _ := after
    rw [same]
    exact second.unique longest.drop
  · intro w' lower upper
    by_cases zero : w' = 0
    · rw [zero, empty]
      exact Nat.zero_le _
    · have positive' : 0 < w'.toInt := by
        have : w'.toInt ≠ 0 := fun h => zero (Int64.toInt_inj.mp h)
        omega
      have shorter := longest.mono (evictCount_isLongestPrefix positive' newest (by omega)) (by
        intro x old
        unfold Entry.Outdated at old ⊢
        omega)
      rw [after, evictSensor_hot ok found memory, BoundedQueue.pop_length, BoundedQueue.pop_length]
      omega

/-- Three rows out of order. -/
def scattered : Engine ℚ :=
  run (calmly 0 ([0, 2000, 1500].map fun ts =>
    .append (some sensorA.bytes) ts (some fun _ => 1) 1 none)) smallEngine

theorem scattered_evicts_one :
    ∃ slot, scattered.sensors.lookup sensorA = some slot ∧
      ∃ k, IsLongestPrefix (Entry.Outdated 2000 1000) (scattered.tier sensorA).hot.items k ∧
        (scattered.tierAfter (.calm ℚ 0) sensorA slot 1000).hot = (scattered.tier sensorA).hot.pop k ∧
        ∀ x ∈ (scattered.tier sensorA).hot.items.take k, x.ts.toInt ≠ 2000 := by
  have ok : scattered.Ok := (run_frame _ (reachable_ok (.created (smallEngine_created 0)))).ok
  obtain ⟨slot, found⟩ : ∃ slot, scattered.sensors.lookup sensorA = some slot :=
    Option.isSome_iff_exists.mp (by decide +kernel)
  have newest : IsGreatest (timestampsOf (scattered.tier sensorA).hot.items) 2000 := by
    have latest : (latestTs (scattered.tier sensorA).hot.items).toInt = 2000 := by decide +kernel
    rw [← latest]
    exact latestTs_isGreatest (List.ne_nil_of_length_pos (by decide +kernel))
  exact ⟨slot, found, (window_eviction_exact ok found (Nat.le_refl 4)
    (by decide : 0 < (1000 : Int64).toInt) newest (by decide)).1⟩

end Engine

end ChronosVector
