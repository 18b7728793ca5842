import ChronosVector.WindowEviction

/-!
# When the cutoff overflows

`max_ts - window_ms` is a subtraction of two 64-bit numbers that nothing bounds.

* `SensorRing.cutoff`: the subtraction, reduced to 64 bits;
* `cutoff_past_newest`: once reduced it lies above every timestamp;
* `cutoff_exact_iff`: a pass removes only what is too old exactly when there is
  nothing to reduce, and else removes the whole window.
-/

namespace ChronosVector

variable {F : Type}

/-- `cutoff`. C++ gives an overflow no meaning; the machine drops the carry. -/
def SensorRing.cutoff (r : SensorRing F) (windowMs : Int64) : Int64 :=
  r.maxTs r.snapshot.1 (r.snapshot.2 - r.snapshot.1) - windowMs

theorem SensorRing.newTail_cutoff {r : SensorRing F} {w : Int64} (window : w ≠ 0) :
    r.newTail w = r.advancePast (r.cutoff w) r.snapshot.1 (r.snapshot.2 - r.snapshot.1) :=
  if_neg window

theorem SensorRing.cutoff_eq (r : SensorRing F) (w : Int64) :
    r.cutoff w = latestTs r.window - w := by
  rw [cutoff, maxTs_eq]
  rfl

/-- Below the range, the reduced cutoff is above the newest timestamp. -/
theorem cutoff_past_newest {m w : Int64} (below : m.toInt - w.toInt < -2 ^ 63) :
    m.toInt < (m - w).toInt := by
  have lower := m.le_toInt
  have upper := w.toInt_lt
  have reduced : (m - w).toInt = m.toInt - w.toInt + 2 ^ 64 := by
    rw [Int64.toInt_sub, ← Int.add_bmod_right, Int.bmod_eq_of_le]
    all_goals omega
  omega

/-- A pass then takes every entry. -/
theorem evictCount_overflow {items : List (Entry F)} {w : Int64} (positive : 0 < w.toInt)
    (below : (latestTs items).toInt - w.toInt < -2 ^ 63) : evictCount w items = items.length := by
  have all : items.takeWhile (fun x => x.ts < latestTs items - w) = items := by
    apply List.takeWhile_eq_self_iff.mpr
    intro x hx
    have newest := (latest_foldl items Int64.minValue).2.1 x hx
    exact decide_eq_true
      (Int64.lt_iff_toInt_lt.mpr (Int.lt_of_le_of_lt newest (cutoff_past_newest below)))
  rw [evictCount, if_neg (ne_zero_of_positive positive), all]

namespace Engine

variable [FloatArith F] {e : Engine F} {env : Env F} {s : SensorId} {r : SensorRing F}
  {next : Nat} {w : Int64}

/-- The entries that a pass takes out of a sensor's window. -/
def evicted (e : Engine F) (env : Env F) (s : SensorId) (slot : SensorSlot F) (w : Int64) :
    List (Entry F) :=
  let items := (e.tier s).hot.items
  items.take (items.length - (e.tierAfter env s slot w).hot.items.length)

theorem evicted_of_memory (ok : e.Ok) {slot : SensorSlot F}
    (found : e.sensors.lookup s = some slot) (memory : 4 ≤ env.scratchMemory s) :
    e.evicted env s slot w =
      (e.tier s).hot.items.take (evictCount w (e.tier s).hot.items) := by
  have inside := evictCount_le w (e.tier s).hot.items
  rw [evicted, evictSensor_hot ok found memory, BoundedQueue.pop_length]
  rw [Nat.sub_sub_self inside]

/-- Without memory for the copy a pass leaves the sensor alone. -/
theorem evicted_starved (ok : e.Ok) {slot : SensorSlot F}
    (found : e.sensors.lookup s = some slot) (starved : env.scratchMemory s < 4) :
    e.evicted env s slot w = [] := by
  have evicts := (evictSensor_evicts env w ok found).1
  rw [evicted, tierAfter]
  generalize (e.evictSensor env s slot w).1.tier s = t,
    (e.evictSensor env s slot w).2.toList = blks at evicts
  cases evicts with
  | idle => simp
  | wrote k blk count pos =>
    rw [Tier.evictedCount, if_pos starved] at count
    omega

/-- **When the cutoff is exact.** With `m` the largest timestamp of the window,
the cutoff is `m - w` and the pass takes only entries older than that, exactly when
`m - w` is a 64-bit number. Where it is not, the pass takes the whole window. -/
theorem cutoff_exact_iff (ok : e.Ok) (found : e.sensors.lookup s = some ⟨some r, next⟩)
    (positive : 0 < w.toInt) {m : Int} (newest : IsGreatest (timestampsOf r.window) m) :
    ((r.cutoff w).toInt = m - w.toInt ∧
        (∀ x ∈ e.evicted env s ⟨some r, next⟩ w, x.Outdated m w.toInt) ↔
      -2 ^ 63 ≤ m - w.toInt) ∧
    (m - w.toInt < -2 ^ 63 → 4 ≤ env.scratchMemory s →
      (e.tierAfter env s ⟨some r, next⟩ w).hot.items = []) := by
  have items : (e.tier s).hot.items = r.window := tier_items found
  obtain ⟨x, hx, -⟩ := newest.1
  have latest : (latestTs r.window).toInt = m :=
    (latestTs_isGreatest (List.ne_nil_of_mem hx)).unique newest
  refine ⟨⟨?_, ?_⟩, ?_⟩
  · rintro ⟨exactly, -⟩
    rw [← exactly]
    exact (r.cutoff w).le_toInt
  · intro fits
    constructor
    · rw [SensorRing.cutoff_eq, cutoff_exact (by rwa [latest]) positive, latest]
    · by_cases memory : 4 ≤ env.scratchMemory s
      · rw [evicted_of_memory ok found memory, items]
        exact (evictCount_isLongestPrefix positive newest fits).holds
      · rw [evicted_starved ok found (by omega)]
        intro x hx
        cases hx
  · intro below memory
    rw [evictSensor_hot ok found memory, items, evictCount_overflow positive (by rwa [latest])]
    simp only [tier_items found, BoundedQueue.pop, List.drop_length]

/-- The rows of `scattered` are recent enough. -/
theorem scattered_cutoff_exact :
    ∃ r next, scattered.sensors.lookup sensorA = some ⟨some r, next⟩ ∧
      (r.cutoff 1000).toInt = 1000 ∧
      ∀ x ∈ scattered.evicted (.calm ℚ 0) sensorA ⟨some r, next⟩ 1000, x.Outdated 2000 1000 := by
  have ok : scattered.Ok := reachable_ok (.run (.created (smallEngine_created 0)) _)
  have some : (scattered.tier sensorA).hot.items ≠ [] :=
    List.ne_nil_of_length_pos (by decide +kernel)
  obtain ⟨r, next, found⟩ := found_of_items (List.length_pos_iff.mpr some)
  have newest : IsGreatest (timestampsOf r.window) 2000 := by
    have latest : (latestTs (scattered.tier sensorA).hot.items).toInt = 2000 := by decide +kernel
    rw [tier_items found] at latest some
    rw [← latest]
    exact latestTs_isGreatest some
  exact ⟨r, next, found, (cutoff_exact_iff (w := 1000) ok found (by decide) newest).1.mpr (by decide)⟩

/-- Two rows from the far past. -/
def ancient : Engine ℚ :=
  run (calmly 0 ([Int64.minValue + 5, Int64.minValue + 10].map fun ts =>
    .append (some sensorA.bytes) ts (some fun _ => 1) 1 none)) smallEngine

/-- A pass over them takes the newest as well. -/
theorem cutoff_overflows :
    ¬ ∀ (e : Engine ℚ) (env : Env ℚ) (s : SensorId) (r : SensorRing ℚ) (next : Nat) (w : Int64)
      (m : Int), Reachable e → e.sensors.lookup s = some ⟨some r, next⟩ → 0 < w.toInt →
      IsGreatest (timestampsOf r.window) m →
      (r.cutoff w).toInt = m - w.toInt ∧
        ∀ x ∈ e.evicted env s ⟨some r, next⟩ w, x.Outdated m w.toInt := by
  intro h
  have reachable : Reachable ancient := .run (.created (smallEngine_created 0)) _
  have some : (ancient.tier sensorA).hot.items ≠ [] :=
    List.ne_nil_of_length_pos (by decide +kernel)
  obtain ⟨r, next, found⟩ := found_of_items (List.length_pos_iff.mpr some)
  have newest := latestTs_isGreatest some
  have latest : (latestTs (ancient.tier sensorA).hot.items).toInt = -2 ^ 63 + 10 := by
    decide +kernel
  rw [latest, tier_items found] at newest
  obtain ⟨-, old⟩ := h ancient (.calm ℚ 0) sensorA r next 1000 _ reachable found (by decide) newest
  rw [evicted_of_memory (reachable_ok reachable) found (Nat.le_refl 4), evictCount_overflow (by decide)
    (by rw [latest]; decide), List.take_length, tier_items found] at old
  obtain ⟨x, hx, eq⟩ := newest.1
  have outdated := old x hx
  rw [Entry.Outdated, eq] at outdated
  exact absurd outdated (by decide)

end Engine

end ChronosVector
