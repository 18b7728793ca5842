import ChronosVector.NearestN
import ChronosVector.BatchAppend

/-!
# The narrow counters

The size of a window is a `size_t`. `QueryNearestN` casts it to `int`, counts to
it with a `uint32_t`, and `EvictSensor` stores what it took of it in a `uint32_t`.

* `topkLoop`: the selection loop with its 32-bit index, its read of an empty
  heap's front, and no bound on its turns;
* `topkLoop_fold`: below `2 ^ 32` entries it is the fold of `selectTopKBy`;
* `topkLoop_iff`: it ends with `min(n, N)` entries exactly when `N < 2 ^ 31`;
* `narrowing_iff`: the same for the query and the evictions of a sensor.
-/

namespace ChronosVector

open HeapSelect

variable {F : Type}

/-! ## The loop -/

/-- The locals of the selection loop. -/
structure TopkState (F : Type) where
  i : UInt32
  heap : List (F × Nat)

/-- How the loop ends. `emptyFront` reads the front of an empty heap. -/
inductive TopkEnd (F : Type)
  | running
  | emptyFront
  | done (heap : List (F × Nat))

section
variable (std : HeapOps (F × Nat)) (better : F → F → Bool) (take : Int) (scores : Nat → F) (N : Nat)

/-- `for (std::uint32_t i = 0; i < N; ++i)`, after at most `fuel` tests of the
condition. -/
def topkLoop : Nat → TopkState F → TopkEnd F
  | 0, _ => .running
  | fuel + 1, st =>
    if st.i.toNat < N then
      if take ≤ st.heap.length ∧ st.heap = [] then .emptyFront
      else
        topkLoop fuel
          ⟨st.i + 1, topkStepBy std better take st.heap (scores st.i.toNat, st.i.toNat)⟩
    else .done st.heap

end

section
variable (std : HeapOps (F × Nat)) (better : F → F → Bool) {take : Int} (scores : Nat → F) {N : Nat}

/-- What a turn is offered. -/
def offered (scores : Nat → F) (i : Nat) : F × Nat := (scores i, i)

/-- **The loop is the fold**, from any index on, as long as the index reaches `N`. -/
theorem topkLoop_fold (pos : 0 < take) (small : N < 2 ^ 32) (rest : Nat) :
    ∀ (k : Nat) (heap : List (F × Nat)), k + rest = N →
      topkLoop std better take scores N (rest + 1) ⟨UInt32.ofNat k, heap⟩ =
        .done (((List.range' k rest).map (offered scores)).foldl (topkStepBy std better take) heap) := by
  induction rest with
  | zero =>
    intro k heap total
    have index : (UInt32.ofNat k).toNat = k :=
      UInt32.toNat_ofNat_of_lt' (show k < 2 ^ 32 by omega)
    rw [topkLoop, index, if_neg (by omega)]
    rfl
  | succ rest ih =>
    intro k heap total
    have index : (UInt32.ofNat k).toNat = k :=
      UInt32.toNat_ofNat_of_lt' (show k < 2 ^ 32 by omega)
    have next : UInt32.ofNat k + 1 = UInt32.ofNat (k + 1) := (UInt32.ofNat_add k 1).symm
    have front : ¬ (take ≤ heap.length ∧ heap = []) := by
      rintro ⟨full, rfl⟩
      exact absurd pos (Int.not_lt.mpr full)
    rw [topkLoop]
    simp only [index]
    rw [if_pos (by omega), if_neg front, next, ih (k + 1) _ (by omega), List.range'_succ,
      List.map_cons, List.foldl_cons]
    rfl

/-- A turn without room reads the front of the empty heap it starts with. -/
theorem topkLoop_front (none : take ≤ 0) (some : 0 < N) (fuel : Nat) :
    topkLoop std better take scores N (fuel + 1) ⟨0, []⟩ = .emptyFront := by
  simp [topkLoop, some, none]

/-- An index of 32 bits never reaches `N`. -/
theorem topkLoop_endless (large : 2 ^ 32 ≤ N) (fuel : Nat) :
    ∀ (st : TopkState F) (heap : List (F × Nat)),
      topkLoop std better take scores N fuel st ≠ .done heap := by
  induction fuel with
  | zero =>
    intro st heap
    rw [topkLoop]
    nofun
  | succ fuel ih =>
    intro st heap
    have below : st.i.toNat < N := Nat.lt_of_lt_of_le st.i.toNat_lt large
    rw [topkLoop, if_pos below]
    split
    · nofun
    · exact ih _ heap

theorem wrapInt32_nonpos {N : Nat} (large : 2 ^ 31 ≤ N) (small : N < 2 ^ 32) : wrapInt32 N ≤ 0 := by
  rw [wrapInt32, Int.bmod_def]
  split <;> omega

/-- **When the loop ends.** For any number asked for, the loop over `N` entries
stops and leaves `min(n, N)` of them exactly when `N` is an `int`. -/
theorem topkLoop_iff {std : HeapOps (F × Nat)}
    {Specified Heap : (F × Nat → F × Nat → Bool) → List (F × Nat) → Prop}
    (contract : std.Rearranges Specified Heap)
    (specified : Specified (fun a b => better a.1 b.1) ((List.range' 0 N).map (offered scores)))
    {n : Int} (pos : 0 < n) (some : 0 < N) :
    (∃ fuel heap, topkLoop std better (min n (wrapInt32 N)) scores N fuel ⟨0, []⟩ = .done heap ∧
        heap.length = min n.toNat N) ↔
      N < 2 ^ 31 := by
  constructor
  · rintro ⟨fuel, heap, ends, -⟩
    by_contra large
    rw [Nat.not_lt] at large
    by_cases small : N < 2 ^ 32
    · have none := wrapInt32_nonpos large small
      cases fuel with
      | zero => cases ends
      | succ fuel =>
        rw [topkLoop_front std better scores (by omega) some] at ends
        cases ends
    · exact topkLoop_endless std better scores (Nat.not_lt.mp small) fuel _ heap ends
  · intro small
    have exact_ := wrapInt32_of_lt small
    have room : 0 < min n (wrapInt32 N) := by omega
    have loop := topkLoop_fold std better scores room
      (by omega : N < 2 ^ 32) N 0 [] (Nat.zero_add N)
    refine ⟨N + 1, _, loop, ?_⟩
    rw [topkStepBy_eq, (offered_held contract specified).size, List.length_map, List.length_range',
      exact_]
    omega

end

/-! ## The query and the evictions of a sensor -/

/-- The elements the loop is offered, as `selectTopKBy` has them. -/
theorem zipIdx_offered [Zero F] (l : List F) :
    l.zipIdx = (List.range' 0 l.length).map (offered fun i => l.getD i 0) := by
  apply List.ext_getElem
  · simp
  · intro i hi _
    have inside : i < l.length := by simpa using hi
    simp [offered, inside]

namespace Engine

variable [FloatArith F] (e : Engine F) (std : HeapOps (F × Nat)) {s : SensorId} (r : SensorRing F)
  {next : Nat} (q : Nat → F) (n : Int)

/-- The scores `QueryNearestN` selects from. -/
def queryScores : List F :=
  fillScoresForRange r r.snapshot.1 (r.snapshot.2 - r.snapshot.1) e.cfg.metric q
    (l2NormF32 q e.cfg.dim.toNat) (int8Query r.shape q e.cfg.dim.toNat).1
    (int8Query r.shape q e.cfg.dim.toNat).2

/-- The selection loop of `QueryNearestN`. -/
def queryLoop (fuel : Nat) : TopkEnd F :=
  topkLoop std e.cfg.metric.better (min n (wrapInt32 r.window.length))
    (fun i => (e.queryScores r q).getD i 0) r.window.length fuel ⟨0, []⟩

theorem queryScores_length : (e.queryScores r q).length = r.window.length := by
  rw [queryScores, fillScores_window, List.length_map]

variable {e std r q n}

/-- **The loop behind the model.** Where the window is an `int` long, the query
answers with what its loop leaves. -/
theorem queryLoop_answers (opened : e.closed = false) (found : e.sensors.lookup s = some ⟨some r, next⟩)
    (some_ : 0 < r.window.length) (small : r.window.length < 2 ^ 31) (pos : 0 < n) :
    ∃ heap, e.queryLoop std r q n (r.window.length + 1) = .done heap ∧
      (e.queryNearestNBy std s (some q) e.cfg.dim.toNat n true).2.1 =
        some ((std.sort (fun a b => e.cfg.metric.better a.1 b.1) heap).map fun p =>
          (r.timestampAt (r.snapshot.1 + p.2), p.1)) := by
  have exact_ := wrapInt32_of_lt small
  have loop := topkLoop_fold std e.cfg.metric.better (fun i => (e.queryScores r q).getD i 0)
    (show 0 < min n (wrapInt32 r.window.length) by omega)
    (show r.window.length < 2 ^ 32 by omega) r.window.length 0 [] (Nat.zero_add _)
  refine ⟨_, loop, ?_⟩
  have size : r.snapshot.2 - r.snapshot.1 = r.window.length := SensorRing.window_length.symm
  have offers := zipIdx_offered (e.queryScores r q)
  rw [queryScores_length] at offers
  rw [← offers]
  have valid : ¬ (n ≤ 0 ∨ true = false) := by
    simpa using pos
  simp only [queryNearestNBy, opened, found, Bool.false_eq_true, if_false, ne_eq, not_true_eq_false,
    valid, size]
  rw [if_neg (Nat.ne_of_gt some_), queryScores, size]
  rfl

/-- No cast changes a value: the query ends with the entries it owes, and every
eviction writes a block of all it takes. -/
structure NarrowsExactly (e : Engine F) (std : HeapOps (F × Nat)) (s : SensorId) (r : SensorRing F)
    (next : Nat) (q : Nat → F) (n : Int) : Prop where
  query : ∃ fuel heap, e.queryLoop std r q n fuel = .done heap ∧
    heap.length = min n.toNat r.window.length
  block : ∀ (env : Env F) (w : Int64), ∀ b ∈ (e.evictSensor env s ⟨some r, next⟩ w).2,
    b.count.toNat = SensorSlot.due ⟨some r, next⟩ w

/-- The count of a block is what was taken, modulo `2 ^ 32`. -/
theorem evicted_count (ok : r.Ok) (env : Env F) (w : Int64) {b : Block F}
    (written : b ∈ (e.evictSensor env s ⟨some r, next⟩ w).2) :
    b.count.toNat = SensorSlot.due ⟨some r, next⟩ w % 2 ^ 32 := by
  obtain none | pos := Nat.eq_zero_or_pos (SensorSlot.due ⟨some r, next⟩ w)
  · have rings : ∀ r', (⟨some r, next⟩ : SensorSlot F).ring = some r' → r'.Ok := by
      rintro r' ⟨⟩
      exact ok
    rw [evictSensor_nothing none rings] at written
    cases written
  · rw [evictSensor_due ok rfl pos] at written
    split at written
    · cases written
    · simp only [persistEvicted, Option.mem_some_iff, Nat.add_sub_cancel_left] at written
      subst written
      exact UInt32.toNat_ofNat'

/-- **When the casts keep their values**: when the window holds less than `2 ^ 31`
entries. -/
theorem narrowing_iff {Specified Heap : (F × Nat → F × Nat → Bool) → List (F × Nat) → Prop}
    (contract : std.Rearranges Specified Heap)
    (specified : Specified (fun a b => e.cfg.metric.better a.1 b.1) (e.queryScores r q).zipIdx)
    (ok : e.Ok) (found : e.sensors.lookup s = some ⟨some r, next⟩) (some_ : 0 < r.window.length)
    (pos : 0 < n) : e.NarrowsExactly std s r next q n ↔ r.window.length < 2 ^ 31 := by
  rw [zipIdx_offered, queryScores_length] at specified
  have loop := topkLoop_iff e.cfg.metric.better (fun i => (e.queryScores r q).getD i 0) contract
    specified pos some_
  constructor
  · intro exactly
    exact loop.mp exactly.query
  · intro small
    refine ⟨loop.mpr small, ?_⟩
    intro env w b written
    have due : SensorSlot.due ⟨some r, next⟩ w ≤ r.window.length := by
      rw [due_eq ok found, tier_items found]
      exact evictCount_le w r.window
    rw [evicted_count (ok s r (ring_eq found)).2 env w written, Nat.mod_eq_of_lt (by omega)]

/-- One entry in the window. -/
theorem smallAppended_narrows :
    ∃ r next, smallAppended.sensors.lookup sensorA = some ⟨some r, next⟩ ∧
      smallAppended.NarrowsExactly .ordered sensorA r next (fun _ => 1) 5 := by
  have reachable : Reachable smallAppended := .called (.created (smallEngine_created 0)) _ _
  have length : (smallAppended.tier sensorA).hot.items.length = 1 := by decide +kernel
  obtain ⟨r, next, found⟩ := found_of_items (length ▸ Nat.one_pos)
  rw [tier_items found] at length
  exact ⟨r, next, found, (narrowing_iff HeapOps.ordered_rearranges trivial (reachable_ok reachable)
    found (by omega) (by decide)).mpr (by omega)⟩

/-! ## A window of `2 ^ 31` -/

/-- The largest ring whose size is no `int`. -/
def hugeConfig : Config := { smallConfig with ringCapacity := 0x80000000 }

def hugeValid : ValidConfig :=
  { hugeConfig with
    abi_ok := by decide
    dim_pos := by decide
    dim_le := by decide
    payload_le := by decide
    dtype_le := by decide
    metric_le := by decide
    capacity_min := by decide
    capacity_pow := ⟨31, by decide⟩
    window_nonneg := by decide
    interval_min := by decide }

/-- The engine that `hugeConfig` creates without a path. -/
def hugeEngine : Engine ℚ := .init hugeValid hugeConfig.uuid .null

theorem hugeEngine_created : Engine.create (.calm ℚ 0) hugeConfig none = .ok hugeEngine := rfl

/-- A batch of ones for `sensorA`. -/
def onesBatch (m : Nat) : Call ℚ :=
  .appendBatch (some sensorA.bytes) (some fun _ => 1) (some fun _ => 1) m 1 none

theorem onesBatch_fills {e : Engine ℚ} (ok : e.Ok) (opened : e.closed = false)
    (cfg : e.cfg = hugeValid) {m : Nat} (some_ : m ≠ 0) :
    let e' := (e.call (.calm ℚ 0) (onesBatch m)).2
    (e'.tier sensorA).hot.items.length = min (2 ^ 31) ((e.tier sensorA).hot.items.length + m) ∧
      e'.closed = false ∧ e'.cfg = hugeValid := by
  have one : e.cfg.dim.toNat = 1 := by rw [cfg]; rfl
  have call : e.call (.calm ℚ 0) (onesBatch m) =
      e.appendBatch (.calm ℚ 0) sensorA (some fun _ => 1) (some fun _ => 1) m e.cfg.dim.toNat none := by
    rw [one]
    simp [Engine.call, onesBatch, chronosvAppendBatch, withSensor, SensorId.parse_bytes, some_]
  have unlimited : ¬ (0 < e.cfg.maxSensors.toNat ∧
      e.cfg.maxSensors.toNat ≤ e.sensors.keys.length) := by
    rw [cfg]
    exact fun h => absurd h.1 (by decide)
  have memory : ((Env.calm ℚ 0).ringMemory sensorA).isSome := rfl
  obtain ⟨e', r, get⟩ := getOrCreateRing_room unlimited memory
  have fills := appendBatch_fills ok opened get (fun _ => 1) (fun _ => 1) none some_
  rw [call]
  rw [cfg] at fills ⊢
  exact fills

/-- Two batches of `2 ^ 30`. -/
def hugeFilled : Engine ℚ :=
  ((hugeEngine.call (.calm ℚ 0) (onesBatch (2 ^ 30))).2.call (.calm ℚ 0) (onesBatch (2 ^ 30))).2

theorem hugeFilled_reachable : Reachable hugeFilled :=
  .called (.called (.created hugeEngine_created) _ _) _ _

theorem hugeFilled_length : (hugeFilled.tier sensorA).hot.items.length = 2 ^ 31 := by
  have some_ : 2 ^ 30 ≠ 0 := by decide
  obtain ⟨half, opened, cfg⟩ := onesBatch_fills (reachable_ok (.created hugeEngine_created)) rfl rfl
    some_
  obtain ⟨full, -, -⟩ := onesBatch_fills
    (reachable_ok (.called (.created hugeEngine_created) _ _)) opened cfg some_
  have empty : (hugeEngine.tier sensorA).hot.items.length = 0 := rfl
  rw [hugeFilled, full, half, empty]
  omega

/-- The query of the filled ring reads the front of an empty heap. -/
theorem hugeFilled_faults :
    ¬ ∀ (e : Engine ℚ) (std : HeapOps (ℚ × Nat))
      (Heap : (ℚ × Nat → ℚ × Nat → Bool) → List (ℚ × Nat) → Prop) (s : SensorId)
      (r : SensorRing ℚ) (next : Nat) (q : Nat → ℚ) (n : Int), Reachable e →
      std.Rearranges (fun _ _ => True) Heap → e.sensors.lookup s = some ⟨some r, next⟩ →
      0 < r.window.length → 0 < n → e.NarrowsExactly std s r next q n := by
  intro h
  have length := hugeFilled_length
  obtain ⟨r, next, found⟩ := found_of_items (length ▸ Nat.two_pow_pos 31)
  rw [tier_items found] at length
  have some_ : 0 < r.window.length := by omega
  have exactly := h _ .ordered _ _ r next (fun _ => 1) 1 hugeFilled_reachable
    HeapOps.ordered_rearranges found some_ (by decide)
  have small := (topkLoop_iff hugeFilled.cfg.metric.better
    (fun i => (hugeFilled.queryScores r fun _ => 1).getD i 0) HeapOps.ordered_rearranges trivial
    (by decide : (0 : Int) < 1) some_).mp exactly.query
  omega

end Engine

end ChronosVector
