import ChronosVector.NearestN
import ChronosVector.RangeQueries

/-!
# INT8 rows read as floats

An INT8 column holds a byte a component, and the scale in a column of its own.
`QueryRange` and `DetectAnomaly` read it as they read a FLOAT32 column.

* `rangeReads`, `meanReads`: the bytes the two calls read;
* `int8_range_iff`: a range query returns vectors exactly when it returns none;
* `int8_detection_false`: a detection always reads bytes of no entry.
-/

namespace ChronosVector

variable {F : Type} [FloatArith F]

/-- The bytes of `dim` floats from byte `start` on. -/
def floatBytes (start dim : Nat) : List Nat :=
  (List.range dim).flatMap fun j => List.range' (start + 4 * j) 4

theorem mem_floatBytes {start dim a : Nat} :
    a ∈ floatBytes start dim ↔ start ≤ a ∧ a < start + 4 * dim := by
  simp only [floatBytes, List.mem_flatMap, List.mem_range, List.mem_range'_1]
  constructor
  · rintro ⟨j, hj, lo, hi⟩
    omega
  · rintro ⟨lo, hi⟩
    exact ⟨(a - start) / 4, by omega, by omega, by omega⟩

/-- The vector that an INT8 entry stands for. -/
def Entry.reconstructed (x : Entry F) : List F :=
  x.vec.map fun q => x.scale.getD 0 * FloatArith.ofInt q.int8.toInt

namespace SensorRing

variable (r : SensorRing F)

/-- The bytes of a slot of the vector column. -/
def slotBytes (slot : Nat) : List Nat :=
  List.range' (slot * r.shape.dim * r.shape.dtype.size) (r.shape.dim * r.shape.dtype.size)

/-- The bytes that `QueryRange` copies for an index: `dim` floats, from the slot on. -/
def rangeReads (idx : Nat) : List Nat :=
  floatBytes (r.slotOf idx * r.shape.dim * r.shape.dtype.size) r.shape.dim

/-- The bytes that `DetectAnomaly` sums over: `dim` floats for each slot, from the
slot's place in a column of floats on. -/
def meanReads (b n : Nat) : List Nat :=
  (chunkSlots r b n).flatMap fun slot => floatBytes (slot * r.shape.dim * 4) r.shape.dim

variable {r} {r' : SensorRing F}

omit [FloatArith F] in
/-- In FLOAT32 both are the bytes of the slots themselves. -/
theorem float_reads (float : r.shape.dtype = .float32) (a : Nat) :
    (∀ idx, a ∈ r.rangeReads idx ↔ a ∈ r.slotBytes (r.slotOf idx)) ∧
      ∀ b n, a ∈ r.meanReads b n ↔ ∃ slot ∈ chunkSlots r b n, a ∈ r.slotBytes slot := by
  simp only [rangeReads, meanReads, slotBytes, float, Dtype.size, List.mem_flatMap, mem_floatBytes,
    List.mem_range'_1, Nat.mul_comm 4, implies_true, and_self]

theorem floatFrom_congr (int8 : r.shape.dtype = .int8) (shape : r'.shape = r.shape)
    {start j : Nat} (same : ∀ a ∈ List.range' (start + 4 * j) 4, r'.cellByte a = r.cellByte a) :
    r'.floatFrom start j = r.floatFrom start j := by
  have byte (k : Nat) (hk : k < 4) : r'.cellByte (start + 4 * j + k) = r.cellByte (start + 4 * j + k) :=
    same _ (List.mem_range'_1.mpr (by omega))
  simp only [floatFrom, shape, int8, byte 1 (by decide), byte 2 (by decide), byte 3 (by decide)]
  rw [← Nat.add_zero (start + 4 * j), byte 0 (by decide)]

/-- A row written depends on the bytes copied only. -/
theorem floatsAt_congr (int8 : r.shape.dtype = .int8) (shape : r'.shape = r.shape) {idx : Nat}
    (same : ∀ a ∈ r.rangeReads idx, r'.cellByte a = r.cellByte a) :
    r'.floatsAt idx = r.floatsAt idx := by
  have slot : r'.slotOf idx = r.slotOf idx := by rw [slotOf_eq_mod, slotOf_eq_mod, shape]
  rw [floatsAt, floatsAt, slot, shape]
  apply List.map_congr_left
  intro j hj
  apply floatFrom_congr int8 shape
  intro a ha
  apply same a (mem_floatBytes.mpr ?_)
  rw [List.mem_range] at hj
  rw [List.mem_range'_1] at ha
  rw [int8, Dtype.size, Nat.mul_one]
  omega

theorem chunkSum_congr (int8 : r.shape.dtype = .int8) (shape : r'.shape = r.shape)
    {slots : List Nat} {j : Nat} (hj : j < r.shape.dim)
    (same : ∀ slot ∈ slots, ∀ a ∈ floatBytes (slot * r.shape.dim * 4) r.shape.dim,
      r'.cellByte a = r.cellByte a) :
    Engine.chunkSum r' slots j = Engine.chunkSum r slots j := by
  rw [Engine.chunkSum, Engine.chunkSum, shape]
  apply List.foldl_ext
  intro acc slot hslot
  congr 1
  apply floatFrom_congr int8 shape
  intro a ha
  apply same slot hslot a (mem_floatBytes.mpr ?_)
  rw [List.mem_range'_1] at ha
  omega

/-- The mean depends on the bytes summed over only. -/
theorem windowMean_congr (int8 : r.shape.dtype = .int8) (shape : r'.shape = r.shape) {b n j : Nat}
    (hj : j < r.shape.dim) (same : ∀ a ∈ r.meanReads b n, r'.cellByte a = r.cellByte a) :
    Engine.windowMean r' b n j = Engine.windowMean r b n j := by
  have chunk (l : List Nat) (inside : ∀ slot ∈ l, slot ∈ chunkSlots r b n) :
      Engine.chunkSum r' l j = Engine.chunkSum r l j := by
    apply chunkSum_congr int8 shape hj
    intro slot hslot a ha
    exact same a (List.mem_flatMap.mpr ⟨slot, inside slot hslot, ha⟩)
  have first := chunk (List.range' (r.slotOf b) (min n (r.shape.capacity - r.slotOf b)))
    fun _ => List.mem_append_left _
  have second := chunk (List.range (n - min n (r.shape.capacity - r.slotOf b)))
    fun _ => List.mem_append_right _
  have slot : r'.slotOf b = r.slotOf b := by rw [slotOf_eq_mod, slotOf_eq_mod, shape]
  simp only [Engine.windowMean, shape, slot, first, second]

/-! ## Range queries -/

/-- The indices of the window that a range query returns. -/
def rangeHits (r : SensorRing F) (tStart tEnd : Int64) (max : Nat) : List Nat :=
  (visited (Entry.InRange tStart tEnd ∘ r.entryAt) max
    (List.range' r.snapshot.1 (r.snapshot.2 - r.snapshot.1))).filter
    (Entry.InRange tStart tEnd ∘ r.entryAt)

/-- The row written for an index is the entry's vector, read from its own bytes. -/
structure RowReconstructed (r : SensorRing F) (idx : Nat) : Prop where
  vector : r.floatsAt idx = (r.entryAt idx).reconstructed
  bytes : ∀ a ∈ r.rangeReads idx, a ∈ r.slotBytes (r.slotOf idx)

/-- The copy is four times as long as the slot. -/
theorem not_reconstructed (int8 : r.shape.dtype = .int8) (idx : Nat) : ¬ r.RowReconstructed idx := by
  rintro ⟨-, bytes⟩
  have pos := r.shape.dim_pos
  simp only [rangeReads, slotBytes, int8, Dtype.size, Nat.mul_one, mem_floatBytes,
    List.mem_range'_1] at bytes
  have last := bytes (r.slotOf idx * r.shape.dim + (4 * r.shape.dim - 1))
  omega

omit [FloatArith F] in
theorem rangeHits_nil_iff {tStart tEnd : Int64} {max : Nat} (pos : 0 < max) :
    r.rangeHits tStart tEnd max = [] ↔ ∀ x ∈ r.window, x.InRange tStart tEnd = false := by
  rw [rangeHits, window, List.forall_mem_map]
  generalize List.range' r.snapshot.1 (r.snapshot.2 - r.snapshot.1) = l
  constructor
  · intro none
    have all : visited (Entry.InRange tStart tEnd ∘ r.entryAt) max l = l :=
      visited_all (by rw [none]; exact pos)
    rw [all, List.filter_eq_nil_iff] at none
    simpa using none
  · intro none
    rw [List.filter_eq_nil_iff]
    intro i hi
    simpa using none i (visited_subset hi)

end SensorRing

namespace Engine

variable {e : Engine F} {s : SensorId} {r : SensorRing F} {next : Nat}

/-- What a well-formed range query of an open engine writes, in either dtype. -/
theorem queryRange_rows (closed : e.closed = false) (found : e.sensors.lookup s = some ⟨some r, next⟩)
    {tStart tEnd : Int64} {max : Int} (pos : 0 < max) (ordered : tStart ≤ tEnd) :
    (e.chronosvQueryRange (some s.bytes) tStart tEnd max true).2.1 =
      some ((r.rangeHits tStart tEnd max.toNat).map r.rangeRow) := by
  have args : ¬ (max ≤ 0 ∨ true = false) := by simp [pos]
  have interval : ¬ tEnd < tStart := by simpa using ordered
  obtain ⟨written, -⟩ := scanRange_rows tStart tEnd r.snapshot.1
    (r.snapshot.2 - r.snapshot.1) (⟨[], Int64.maxValue⟩ : RangeScan F) (Nat.zero_le max.toNat)
  simp only [Engine.chronosvQueryRange, SensorId.parse_bytes, Engine.queryRange, closed, args,
    interval, found, Bool.false_eq_true, if_false]
  exact congrArg some written

/-- **INT8 range queries.** Every row written is the reconstructed vector, read from
its own bytes, exactly when no row is written: no entry of the window is in the
range. -/
theorem int8_range_iff (ok : e.Ok) (int8 : e.cfg.shape.dtype = .int8) (closed : e.closed = false)
    (found : e.sensors.lookup s = some ⟨some r, next⟩) {tStart tEnd : Int64} {max : Int}
    (pos : 0 < max) (ordered : tStart ≤ tEnd) :
    (e.chronosvQueryRange (some s.bytes) tStart tEnd max true).2.1 =
        some ((r.rangeHits tStart tEnd max.toNat).map r.rangeRow) ∧
      ((∀ idx ∈ r.rangeHits tStart tEnd max.toNat, r.RowReconstructed idx) ↔
        ∀ x ∈ r.window, x.InRange tStart tEnd = false) := by
  have dtype : r.shape.dtype = .int8 := by rw [(ok s r (ring_eq found)).1, int8]
  refine ⟨queryRange_rows closed found pos ordered, ?_⟩
  rw [← SensorRing.rangeHits_nil_iff (Int.pos_iff_toNat_pos.mp pos)]
  constructor
  · intro rows
    apply List.eq_nil_iff_forall_not_mem.mpr
    intro idx hit
    exact SensorRing.not_reconstructed dtype idx (rows idx hit)
  · intro none idx hit
    rw [none] at hit
    cases hit

/-! ## Anomaly detection -/

/-- The mean of the vectors that the entries stand for. -/
def reconstructedMean (window : List (Entry F)) (j : Nat) : F :=
  window.foldl (fun acc x => acc + x.reconstructed.getD j 0) 0 / FloatArith.ofInt window.length

/-- A detection compares with the mean of the reconstructed window, read from the
bytes of the window's slots. -/
structure DetectionReconstructed (e : Engine F) (s : SensorId) (r : SensorRing F) (v : Nat → F)
    (dim : Nat) (threshold : F) : Prop where
  decision : (e.detectAnomaly s (some v) dim threshold true).2.1 =
    some (FloatArith.lt threshold
      (anomalyDistance e.cfg.metric (reconstructedMean r.window) v dim))
  bytes : ∀ a ∈ r.meanReads r.snapshot.1 (r.snapshot.2 - r.snapshot.1),
    ∃ slot ∈ chunkSlots r r.snapshot.1 (r.snapshot.2 - r.snapshot.1), a ∈ r.slotBytes slot

/-- **INT8 detections.** With an entry in the window, bytes outside its slots are
read whatever the window, the candidate and the threshold are. -/
theorem int8_detection_false (ok : e.Ok) (int8 : e.cfg.shape.dtype = .int8)
    (found : e.sensors.lookup s = some ⟨some r, next⟩) (nonempty : r.window ≠ []) (v : Nat → F)
    (dim : Nat) (threshold : F) : ¬ e.DetectionReconstructed s r v dim threshold := by
  rintro ⟨-, bytes⟩
  have dtype : r.shape.dtype = .int8 := by rw [(ok s r (ring_eq found)).1, int8]
  have pos := r.shape.dim_pos
  generalize slots : chunkSlots r r.snapshot.1 (r.snapshot.2 - r.snapshot.1) = l at bytes
  have some : l ≠ [] := by
    rw [← slots, chunkSlots_eq (snapshot_short r)]
    rw [SensorRing.window] at nonempty
    simpa using nonempty
  -- the last byte read for the highest slot is behind all slots
  let top := l.max some
  have last : top * r.shape.dim * 4 + (4 * r.shape.dim - 1) ∈
      r.meanReads r.snapshot.1 (r.snapshot.2 - r.snapshot.1) := by
    rw [SensorRing.meanReads, slots]
    exact List.mem_flatMap.mpr ⟨top, List.max_mem some, mem_floatBytes.mpr (by omega)⟩
  obtain ⟨slot, mem, own⟩ := bytes _ last
  have below : slot * r.shape.dim ≤ top * r.shape.dim :=
    Nat.mul_le_mul_right r.shape.dim (List.le_max_of_mem mem)
  rw [SensorRing.slotBytes, dtype, List.mem_range'_1, Dtype.size] at own
  omega

/-! ## One INT8 row -/

/-- Two INT8 components. -/
def int8Config : Config := { smallConfig with dim := 2, storageDtype := 1 }

def int8Valid : ValidConfig :=
  { int8Config with
    abi_ok := by decide
    dim_pos := by decide
    dim_le := by decide
    payload_le := by decide
    dtype_le := by decide
    metric_le := by decide
    capacity_min := by decide
    capacity_pow := ⟨6, by decide⟩
    window_nonneg := by decide
    interval_min := by decide }

/-- The engine that `int8Config` creates on an empty path. -/
def int8Engine : Engine ℚ :=
  .init int8Valid int8Config.uuid (.rocksdb
    { (ColdTier.empty : ColdTier ℚ) with
      metadata := some (serializeEngineMetadata (int8Valid.metadata int8Config.uuid)) })

theorem int8Engine_created (now : Int64) :
    Engine.create (.calm ℚ now) int8Config (some .empty) = .ok int8Engine := rfl

/-- The second unit vector. -/
def secondUnit (j : Nat) : ℚ := if j = 1 then 1 else 0

def int8Appended : Engine ℚ :=
  (int8Engine.call (.calm ℚ 0) (.append (some sensorA.bytes) 1 (some secondUnit) 2 none)).2

theorem int8Appended_reachable : Reachable int8Appended :=
  .called (.created (int8Engine_created 0)) _ _

theorem int8Appended_found :
    ∃ r next, int8Appended.sensors.lookup sensorA = some ⟨some r, next⟩ ∧ r.window.length = 1 := by
  have length : (int8Appended.tier sensorA).hot.items.length = 1 := by decide +kernel
  obtain ⟨r, next, found⟩ := found_of_items (length ▸ Nat.one_pos)
  exact ⟨r, next, found, tier_items found ▸ length⟩

/-- A range with the row returns what is no vector; a range without it, nothing. -/
theorem int8Appended_range :
    ∃ r next, int8Appended.sensors.lookup sensorA = some ⟨some r, next⟩ ∧
      ¬ (∀ idx ∈ r.rangeHits 0 10 5, r.RowReconstructed idx) ∧
      ∀ idx ∈ r.rangeHits 5 10 5, r.RowReconstructed idx := by
  have ok := reachable_ok int8Appended_reachable
  obtain ⟨r, next, found, -⟩ := int8Appended_found
  have entries : (int8Appended.tier sensorA).hot.items.map (fun x => x.ts) = [1] := by
    decide +kernel
  rw [tier_items found] at entries
  obtain ⟨x, window, ts⟩ := List.map_eq_singleton_iff.mp entries
  have rows (tStart tEnd : Int64) (ordered : tStart ≤ tEnd) :
      (∀ idx ∈ r.rangeHits tStart tEnd 5, r.RowReconstructed idx) ↔
        ∀ x ∈ r.window, x.InRange tStart tEnd = false :=
    (int8_range_iff ok rfl rfl found (show (0 : Int) < 5 by decide) ordered).2
  refine ⟨r, next, found, ?_, ?_⟩
  · rw [rows 0 10 (by decide), window]
    simp [Entry.InRange, ts]
  · rw [rows 5 10 (by decide), window]
    simp [Entry.InRange, ts]

/-- The row comes back as one denormal float and a zero. -/
theorem int8_rows_are_bytes :
    ¬ ∀ (e : Engine ℚ) (s : SensorId) (r : SensorRing ℚ) (next : Nat) (tStart tEnd : Int64)
      (max : Int), Reachable e → e.cfg.shape.dtype = .int8 → e.closed = false →
      e.sensors.lookup s = some ⟨some r, next⟩ → 0 < max → tStart ≤ tEnd →
      ∀ idx ∈ r.rangeHits tStart tEnd max.toNat, r.RowReconstructed idx := by
  intro h
  obtain ⟨r, next, found, -⟩ := int8Appended_found
  have ring := ring_eq found
  have rows := h _ sensorA r next 0 10 5 int8Appended_reachable rfl rfl found (by decide) (by decide)
  have hits : (int8Appended.ring sensorA).map (fun r => r.rangeHits 0 10 5) = some [0] := by
    decide +kernel
  have vector : (int8Appended.ring sensorA).map (fun r => r.floatsAt 0) =
      some [127 * 256 / 2 ^ 149, 0] := by
    decide +kernel
  have reconstructed : (int8Appended.ring sensorA).map (fun r => (r.entryAt 0).reconstructed) =
      some [0, 1] := by
    decide +kernel
  rw [ring, Option.map_some, Option.some.injEq] at hits vector reconstructed
  have row := (rows 0 (by rw [show (5 : Int).toNat = 5 from rfl, hits]; decide)).vector
  rw [vector, reconstructed] at row
  exact absurd row (by decide +kernel)

/-- The candidate is the only row of the window, and it is flagged. -/
theorem int8_row_flagged :
    ¬ ∀ (e : Engine ℚ) (s : SensorId) (r : SensorRing ℚ) (next : Nat) (v : Nat → ℚ) (threshold : ℚ),
      Reachable e → e.cfg.shape.dtype = .int8 → e.closed = false →
      e.sensors.lookup s = some ⟨some r, next⟩ → r.window ≠ [] →
      e.DetectionReconstructed s r v e.cfg.dim.toNat threshold := by
  intro h
  obtain ⟨r, next, found, one⟩ := int8Appended_found
  have ring := ring_eq found
  have decision := (h _ sensorA r next secondUnit (1 / 2) int8Appended_reachable rfl rfl found
    (List.ne_nil_of_length_pos (by omega))).decision
  have flagged : (int8Appended.detectAnomaly sensorA (some secondUnit) 2 (1 / 2) true).2.1 =
      some true := by
    decide +kernel
  have distance : (int8Appended.ring sensorA).map (fun r =>
      anomalyDistance .cosine (reconstructedMean r.window) secondUnit 2) = some 0 := by
    decide +kernel
  rw [ring, Option.map_some, Option.some.injEq] at distance
  have same : anomalyDistance int8Appended.cfg.metric (reconstructedMean r.window) secondUnit
      int8Appended.cfg.dim.toNat = 0 := distance
  rw [same] at decision
  exact absurd (flagged.symm.trans decision) (by decide +kernel)

theorem int8Appended_detection :
    ∃ r next, int8Appended.sensors.lookup sensorA = some ⟨some r, next⟩ ∧
      ¬ int8Appended.DetectionReconstructed sensorA r secondUnit 2 (1 / 2) := by
  obtain ⟨r, next, found, one⟩ := int8Appended_found
  exact ⟨r, next, found, int8_detection_false (reachable_ok int8Appended_reachable) rfl found
    (List.ne_nil_of_length_pos (by omega)) _ _ _⟩

end Engine

end ChronosVector
