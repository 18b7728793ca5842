import ChronosVector.Accumulators
import ChronosVector.Quantizer
import ChronosVector.StoredNorms
import ChronosVector.QuantizedReads

/-!
# INT8 norms after recovery

`Append` caches the norm of the caller's vector. A block keeps the quantized
vector and no norm, so recovery caches the norm of the quantized vector.

* `ingested_norm`, `ingested_row_norm`: the two norms;
* `recovers_alike_iff`: the two norms agree exactly when rounding to the grid
  leaves the sum of the squares as it was.
-/

namespace ChronosVector

open Finset

/-- Rounding every component to the grid leaves the sum of the squares as it was. -/
def KeepsEnergy (v : Nat → ℝ) (dim : Nat) : Prop :=
  ∑ i ∈ range dim, (FloatArith.lround (gridPos v dim i) : ℝ) ^ 2 =
    ∑ i ∈ range dim, gridPos v dim i ^ 2

variable {v : Nat → ℝ} {dim : Nat}

/-! ## The two norms of an entry -/

section
variable {sh : RingShape} {r : SensorRing ℝ} (ts : Int64) (payload : Option (Nat → UInt8))

/-- The norm `Append` caches is that of the caller's vector. -/
theorem ingested_norm (r : SensorRing ℝ) (ts : Int64) (v : Nat → ℝ) (dim : Nat)
    (payload : Option (Nat → UInt8)) :
    (r.ingested ts v dim payload).norm = √(∑ i ∈ range dim, v i ^ 2) := by
  rw [← l2NormF32_real]
  simp only [SensorRing.ingested]
  split <;> rfl

section
variable (int8 : r.shape.dtype = .int8)
include int8

/-- The components `Append` stores are the rounded places on the grid. -/
theorem ingested_component (ts : Int64) (v : Nat → ℝ) (payload : Option (Nat → UInt8)) {i : Nat}
    (hi : i < r.shape.dim) :
    ((r.ingested ts v r.shape.dim payload).vec.getD i default).int8.toInt =
      FloatArith.lround (gridPos v r.shape.dim i) := by
  simp only [SensorRing.ingested, int8, if_true, SensorRing.stored]
  rw [Cells.load_getD _ _ hi, Nat.zero_add, ← (quantize_real v r.shape.dim).1 i hi]
  rfl

theorem ingested_scale (ts : Int64) (v : Nat → ℝ) (payload : Option (Nat → UInt8)) :
    (r.ingested ts v r.shape.dim payload).scale.getD 0 = peak v r.shape.dim / 127 := by
  simp only [SensorRing.ingested, int8, if_true, SensorRing.stored]
  exact (quantize_real v r.shape.dim).2

/-- The norm recovery computes for the row is that of the quantized vector. -/
theorem ingested_row_norm (hdim : r.shape.dim ≤ 65536) (ts : Int64) (v : Nat → ℝ)
    (payload : Option (Nat → UInt8)) :
    (r.ingested ts v r.shape.dim payload).toRow.norm r.shape =
      peak v r.shape.dim / 127 *
        √(∑ i ∈ range r.shape.dim, (FloatArith.lround (gridPos v r.shape.dim i) : ℝ) ^ 2) := by
  let q (j : Nat) : Int8 := ((r.ingested ts v r.shape.dim payload).vec.getD j default).int8
  have sum : (FloatArith.ofInt (dotI8 q q r.shape.dim) : ℝ) =
      ∑ i ∈ range r.shape.dim, (FloatArith.lround (gridPos v r.shape.dim i) : ℝ) ^ 2 := by
    rw [dotI8_sum q q hdim, ofInt_real]
    push_cast
    exact sum_congr rfl fun i hi => by
      rw [ingested_component int8 ts v payload (mem_range.mp hi), sq]
  rw [Row.norm, int8, ingested_scale int8]
  show _ * √(FloatArith.ofInt (dotI8 q q r.shape.dim)) = _
  rw [sum]

end

/-- **When the two norms agree.** -/
theorem norms_agree_iff (v : Nat → ℝ) (dim : Nat) :
    peak v dim / 127 * √(∑ i ∈ range dim, (FloatArith.lround (gridPos v dim i) : ℝ) ^ 2) =
        √(∑ i ∈ range dim, v i ^ 2) ↔ KeepsEnergy v dim := by
  rw [norm_scaled v, KeepsEnergy]
  obtain zero | pos := eq_or_lt_of_le (peak_nonneg v dim)
  · simp [gridPos, ← zero, lround_zero]
  · rw [mul_right_inj' (by positivity), Real.sqrt_inj]
    · exact sum_nonneg fun _ _ => sq_nonneg _
    · exact sum_nonneg fun _ _ => sq_nonneg _

end

/-! ## Recovery -/

theorem Entry.ext {F : Type} {x y : Entry F} (row : x.toRow = y.toRow) (norm : x.norm = y.norm) :
    x = y := by
  cases x
  cases y
  simp_all

/-- Whatever the directory, the sensor and the recovery: an entry of the recovered
window with the row of an append of `v` has that append's norm, and with it the
append's score for every query. -/
def RecoversAlike (cfg : ValidConfig) (v : Nat → ℝ) : Prop :=
  ∀ (db : ColdTier ℝ) (env : Env ℝ) (s : SensorId) (ids : List Nat) (cutoff : Int64)
    (r r' : SensorRing ℝ) (ts : Int64) (payload : Option (Nat → UInt8)),
    r.shape = cfg.shape → (∀ b ∈ (db.blocks s).values, b.HasShape cfg.shape) →
    rehydrateSensorRing cfg (.rocksdb db) env s ids cutoff = some r' →
    ∀ y ∈ r'.window, y.toRow = (r.ingested ts v cfg.shape.dim payload).toRow →
      y.norm = (r.ingested ts v cfg.shape.dim payload).norm ∧
        ∀ metric q, entryScore cfg.shape metric q cfg.shape.dim y =
          entryScore cfg.shape metric q cfg.shape.dim (r.ingested ts v cfg.shape.dim payload)

theorem ingested_fits {F : Type} [FloatArith F] (r : SensorRing F) (ts : Int64) (v : Nat → F)
    (payload : Option (Nat → UInt8)) :
    (r.ingested ts v r.shape.dim payload).toRow.Fits r.shape.dim r.shape.payloadSize
      r.shape.dtype := by
  have stored (vec : Nat → Elem F) (norm scale : F) :
      (r.stored ts vec norm payload scale).toRow.Fits r.shape.dim r.shape.payloadSize
        r.shape.dtype := by
    refine ⟨Cells.load_length .., ?_, ?_⟩
    · simp only [SensorRing.stored]
      split <;> exact Cells.load_length ..
    · simp only [SensorRing.stored]
      split <;> simp_all
  simp only [SensorRing.ingested]
  split <;> exact stored ..

/-- The block of an eviction of one row. -/
def rowBlock {F : Type} (sh : RingShape) (row : Row F)
    (fits : row.Fits sh.dim sh.payloadSize sh.dtype) : StoredBlock F where
  tStartMs := row.ts
  tEndMs := row.ts
  dim := sh.dim
  payloadSizeBytes := sh.payloadSize
  dtype := sh.dtype
  rows := [row]
  fits := by simpa using fits

/-- Every row is recovered from somewhere. -/
theorem row_recovered {F : Type} [FloatArith F] {cfg : ValidConfig} {row : Row F}
    (fits : row.Fits cfg.shape.dim cfg.shape.payloadSize cfg.shape.dtype) (s : SensorId) :
    ∃ (db : ColdTier F) (r : SensorRing F),
      (∀ b ∈ (db.blocks s).values, b.HasShape cfg.shape) ∧
      rehydrateSensorRing cfg (.rocksdb db) (.calm F 0) s (db.blocks s).keys Int64.minValue = some r ∧
      ∃ y ∈ r.window, y.toRow = row := by
  let db : ColdTier F := ColdTier.empty.put s 0 (rowBlock cfg.shape row fits)
  have blocks : (db.blocks s).values = [rowBlock cfg.shape row fits] := by
    simp only [db, ColdTier.blocks_put_self, ColdTier.blocks_empty]
    rfl
  have shape : ∀ b ∈ (db.blocks s).values, b.HasShape cfg.shape := by
    rw [blocks, List.forall_mem_singleton]
    exact ⟨rfl, rfl, rfl⟩
  have recent (ts : Int64) : ¬ ts < Int64.minValue := Int64.not_lt.mpr (Int64.minValue_le ts)
  have rows : (rowBlock cfg.shape row fits).eligible Int64.minValue = [row] := by
    simp [StoredBlock.eligible, eligibleRows, rowBlock, recent]
  have keys : (db.blocks s).keys = [0] := by
    simp only [db, ColdTier.blocks_put_self, ColdTier.blocks_empty]
    rfl
  have room : (appendOrder (db.blocks s).values Int64.minValue).length ≤ cfg.shape.capacity := by
    simp only [appendOrder, blocks, List.flatMap_singleton, rows, List.length_singleton]
    exact cfg.shape.capacity_pos
  have readable : Readable (.calm F 0) s := fun _ => ⟨rfl, rfl⟩
  have allocates : RecoveryAllocates (.calm F 0) s := ⟨rfl, rfl⟩
  obtain ⟨r, recovered, loaded⟩ := rehydrate_loaded readable allocates shape
    (fun b _ => recent b.tEndMs) room (by simp [keys])
  refine ⟨db, r, shape, recovered, ?_⟩
  have window : r.window.map Entry.toRow = [row] :=
    loaded.rows_eq.trans (by simp [replayOrder, blocks, rows])
  obtain ⟨y, only, rfl⟩ := List.map_eq_singleton_iff.mp window
  exact ⟨y, by simp [only], rfl⟩

section
variable {cfg : ValidConfig} (int8 : cfg.shape.dtype = .int8)
include int8

theorem RecoversAlike.energy (alike : RecoversAlike cfg v) : KeepsEnergy v cfg.shape.dim := by
  let r : SensorRing ℝ := .new cfg.shape (.zero ℝ)
  have fits : (r.ingested 0 v cfg.shape.dim none).toRow.Fits cfg.shape.dim cfg.shape.payloadSize
      cfg.shape.dtype := ingested_fits r 0 v none
  obtain ⟨db, r', shape, recovered, y, mem, row⟩ := row_recovered fits sensorA
  have norm := (alike db _ sensorA _ _ r r' 0 none rfl shape recovered y mem row).1
  have kept : y.norm = y.toRow.norm cfg.shape := rehydrate_normed shape recovered y mem
  rw [kept, row, ingested_norm] at norm
  rw [← norms_agree_iff, ← norm]
  exact (ingested_row_norm (r := r) int8 cfg.dim_le 0 v none).symm

/-- **When recovered entries score as before.** For an INT8 engine: exactly when
rounding the vector to the quantizer's grid keeps its energy. -/
theorem recovers_alike_iff (v : Nat → ℝ) : RecoversAlike cfg v ↔ KeepsEnergy v cfg.shape.dim := by
  refine ⟨RecoversAlike.energy int8, ?_⟩
  intro keeps db env s ids cutoff r r' ts payload same shape recovered y mem row
  have kept : y.norm = y.toRow.norm cfg.shape := rehydrate_normed shape recovered y mem
  have hdim : cfg.shape.dim ≤ 65536 := cfg.dim_le
  have norm : y.norm = (r.ingested ts v cfg.shape.dim payload).norm := by
    rw [kept, row, ingested_norm, ← (norms_agree_iff v cfg.shape.dim).mpr keeps]
    rw [← same] at int8 hdim ⊢
    exact ingested_row_norm int8 hdim ts v payload
  have restored : y = r.ingested ts v cfg.shape.dim payload := Entry.ext row norm
  exact ⟨norm, fun metric q => by rw [restored]⟩

end

/-! ## Two vectors -/

/-- The components 1 and `x`. -/
noncomputable def oneAnd (x : ℝ) (j : Nat) : ℝ := if j = 0 then 1 else x

theorem oneAnd_peak {x : ℝ} (nonneg : 0 ≤ x) (small : x ≤ 1) : peak (oneAnd x) 2 = 1 := by
  simp [peak, range_add_one, fold_insert, oneAnd, abs_of_nonneg nonneg, small]

theorem oneAnd_gridPos {x : ℝ} (nonneg : 0 ≤ x) (small : x ≤ 1) :
    gridPos (oneAnd x) 2 0 = 127 ∧ gridPos (oneAnd x) 2 1 = 127 * x := by
  simp [gridPos, oneAnd_peak nonneg small, oneAnd]

/-- Both components of (1, 1) are on the grid. -/
theorem ones_recover_alike : RecoversAlike Engine.int8Valid (oneAnd 1) := by
  have int8 : Engine.int8Valid.shape.dtype = .int8 := rfl
  apply (recovers_alike_iff int8 (oneAnd 1)).mpr
  obtain ⟨first, second⟩ := oneAnd_gridPos (x := 1) (by norm_num) le_rfl
  show KeepsEnergy (oneAnd 1) 2
  rw [KeepsEnergy, sum_range_succ, sum_range_one, sum_range_succ, sum_range_one, first, second,
    mul_one, lround_nonneg (by norm_num)]
  norm_num

/-- In (1, 1/2) the second is not: 63.5 becomes 64, and the recovered norm is
√20225 / 127 instead of √5 / 2. -/
theorem half_recovers_otherwise : ¬ RecoversAlike Engine.int8Valid (oneAnd (1 / 2)) := by
  intro alike
  have keeps := alike.energy rfl
  have two : Engine.int8Valid.shape.dim = 2 := rfl
  obtain ⟨first, second⟩ := oneAnd_gridPos (x := 1 / 2) (by norm_num) (by norm_num)
  rw [two, KeepsEnergy, sum_range_succ, sum_range_one, sum_range_succ, sum_range_one, first, second,
    lround_nonneg (by norm_num), lround_nonneg (by norm_num)] at keeps
  norm_num at keeps

end ChronosVector
