import ChronosVector.RecoveredNorms
import ChronosVector.Lib.Perturbation

/-!
# The range of INT8 cosine scores

The kernel multiplies rounded components and divides by the norms of the vectors
before they were rounded. By Cauchy and Schwarz the product is no larger than the
lengths after rounding, and these may be larger than the ones before.

* `appendedScore`: the score of an entry that was just appended;
* `NotLengthened`: rounding to its grid does not make a vector longer;
* `score_bound`: what the lengths say of one pair of vectors;
* `score_in_range_iff`: among given vectors every score lies between -1 and 1 exactly
  when rounding lengthens none of them.
-/

namespace ChronosVector

open Finset Perturbation

/-- The score that a query of `q` gives to a vector `v` which the ring has just
quantized and stored. -/
noncomputable def appendedScore (r : SensorRing ℝ) (ts : Int64) (v q : Nat → ℝ)
    (payload : Option (Nat → UInt8)) : ℝ :=
  let dim := r.shape.dim
  let r' := r.ingest ts v dim payload
  let (qi8, qScale) := quantizeF32ToI8 q dim
  slotScore r' .cosine q (l2NormF32 q dim) qi8 qScale (r'.slotOf r.head)

/-- Rounding its components to multiples of 1/127 of the largest magnitude leaves the
vector at most as long as it was. -/
def NotLengthened (v : Nat → ℝ) (dim : Nat) : Prop :=
  ∑ i ∈ range dim, regrid v dim i ^ 2 ≤ ∑ i ∈ range dim, v i ^ 2

variable {v q : Nat → ℝ} {dim : Nat}

/-! ## The score -/

theorem len_pos (nonzero : ∃ i < dim, v i ≠ 0) : 0 < len (range dim) v := by
  obtain ⟨i, hi, some⟩ := nonzero
  apply Real.sqrt_pos.mpr
  exact sum_pos' (fun j _ => sq_nonneg _) ⟨i, mem_range.mpr hi, sq_pos_of_ne_zero some⟩

/-- The kernel next to no zero vector. -/
theorem cosineI8_real {row q : Nat → Int8} {scale norm qScale qNorm : ℝ} (hdim : dim ≤ 65536)
    (hs : 0 < scale) (hn : 0 < norm) (hqs : 0 < qScale) (hqn : 0 < qNorm) :
    cosineI8 row scale norm dim q qScale qNorm =
      (∑ i ∈ range dim, ((row i).toInt : ℝ) * (q i).toInt) * scale * qScale / (norm * qNorm) := by
  have positive {x : ℝ} (pos : 0 < x) : FloatArith.le x 0 = false := decide_eq_false (not_le.mpr pos)
  simp only [cosineI8, positive hs, positive hn, positive hqs, positive hqn, Bool.or_false,
    Bool.false_eq_true, if_false]
  rw [dotI8_sum row q hdim, ofInt_real, ofInt_real, Int.cast_one, div_div, mul_comm qNorm, mul_one_div]
  push_cast
  rfl

section
variable {r : SensorRing ℝ} (int8 : r.shape.dtype = .int8) (hdim : r.shape.dim ≤ 65536)
include int8 hdim

/-- **The score**: the product of the rounded vectors over the lengths of the others. -/
theorem appendedScore_eq (ts : Int64) (payload : Option (Nat → UInt8))
    (hv : ∃ i < r.shape.dim, v i ≠ 0) (hq : ∃ i < r.shape.dim, q i ≠ 0) :
    appendedScore r ts v q payload =
      (∑ i ∈ range r.shape.dim, regrid v r.shape.dim i * regrid q r.shape.dim i) /
        (len (range r.shape.dim) v * len (range r.shape.dim) q) := by
  let x := r.ingested ts v r.shape.dim payload
  have shape : (r.ingest ts v r.shape.dim payload).shape = r.shape := SensorRing.ingest_shape ..
  have entry : (r.ingest ts v r.shape.dim payload).entryAt r.head = x := SensorRing.entryAt_ingest_self
  have score : appendedScore r ts v q payload = entryScore r.shape .cosine q r.shape.dim x := by
    have slot := slotScore_entry (r.ingest ts v r.shape.dim payload) .cosine q r.shape.dim r.head
    rw [entry, shape, int8Query, if_pos int8] at slot
    exact slot
  obtain ⟨places, qScale⟩ := quantize_real q r.shape.dim
  have scale : x.scale.getD 0 = peak v r.shape.dim / 127 := ingested_scale int8 ts v payload
  have norm : x.norm = len (range r.shape.dim) v := by
    rw [ingested_norm r ts v r.shape.dim payload]
    rfl
  have qNorm : l2NormF32 q r.shape.dim = len (range r.shape.dim) q := l2NormF32_real q r.shape.dim
  have unit : 0 < peak v r.shape.dim / 127 := div_pos (peak_pos hv) (by norm_num)
  have qUnit : 0 < peak q r.shape.dim / 127 := div_pos (peak_pos hq) (by norm_num)
  have products : (∑ i ∈ range r.shape.dim, ((x.vec.getD i default).int8.toInt : ℝ) *
      ((quantizeF32ToI8 q r.shape.dim).1 i).toInt) * (peak v r.shape.dim / 127) *
        (peak q r.shape.dim / 127) =
      ∑ i ∈ range r.shape.dim, regrid v r.shape.dim i * regrid q r.shape.dim i := by
    rw [mul_assoc, sum_mul]
    apply sum_congr rfl
    intro i hi
    rw [ingested_component int8 ts v payload (mem_range.mp hi), places i (mem_range.mp hi)]
    exact mul_mul_mul_comm ..
  rw [score]
  simp only [entryScore, int8]
  rw [scale, norm, qScale, qNorm, cosineI8_real hdim unit (len_pos hv) qUnit (len_pos hq), products]

/-- A pair of vectors that rounding does not lengthen between them. -/
theorem score_bound (ts : Int64) (payload : Option (Nat → UInt8))
    (hv : ∃ i < r.shape.dim, v i ≠ 0) (hq : ∃ i < r.shape.dim, q i ≠ 0)
    (lengths : len (range r.shape.dim) (regrid v r.shape.dim) *
        len (range r.shape.dim) (regrid q r.shape.dim) ≤
      len (range r.shape.dim) v * len (range r.shape.dim) q) :
    |appendedScore r ts v q payload| ≤ 1 := by
  have positive := mul_pos (len_pos hv) (len_pos hq)
  rw [appendedScore_eq int8 hdim ts payload hv hq, abs_div, abs_of_pos positive,
    div_le_one positive]
  exact (abs_dot_le _ _).trans lengths

/-- The score of a vector next to itself. -/
theorem score_self (ts : Int64) (payload : Option (Nat → UInt8))
    (hv : ∃ i < r.shape.dim, v i ≠ 0) :
    appendedScore r ts v v payload ≤ 1 ↔ NotLengthened v r.shape.dim := by
  have squares (w : Nat → ℝ) : len (range r.shape.dim) w * len (range r.shape.dim) w =
      ∑ i ∈ range r.shape.dim, w i ^ 2 := Real.mul_self_sqrt sqNorm_nonneg
  rw [appendedScore_eq int8 hdim ts payload hv hv, div_le_one (mul_pos (len_pos hv) (len_pos hv)),
    squares]
  simp only [← sq]
  rfl

end

/-- **When scores are in range.** Of given vectors, each appended and each asked for,
every score is in [-1, 1] exactly when rounding to the grid lengthens none of them. -/
theorem score_in_range_iff {cfg : ValidConfig} {r : SensorRing ℝ} (int8 : cfg.shape.dtype = .int8)
    (shape : r.shape = cfg.shape) (ts : Int64) (payload : Option (Nat → UInt8))
    (given : Set (Nat → ℝ)) (nonzero : ∀ v ∈ given, ∃ i < r.shape.dim, v i ≠ 0) :
    (∀ v ∈ given, ∀ q ∈ given,
        -1 ≤ appendedScore r ts v q payload ∧ appendedScore r ts v q payload ≤ 1) ↔
      ∀ v ∈ given, NotLengthened v r.shape.dim := by
  have hdim : r.shape.dim ≤ 65536 := shape ▸ cfg.dim_le
  rw [← shape] at int8
  constructor
  · intro inRange v hv
    exact (score_self int8 hdim ts payload (nonzero v hv)).mp (inRange v hv v hv).2
  · intro short v hv q hq
    rw [← abs_le]
    apply score_bound int8 hdim ts payload (nonzero v hv) (nonzero q hq)
    exact mul_le_mul (Real.sqrt_le_sqrt (short v hv)) (Real.sqrt_le_sqrt (short q hq)) len_nonneg
      len_nonneg

/-! ## Two vectors -/

theorem oneAnd_nonzero (x : ℝ) : ∃ i < 2, oneAnd x i ≠ 0 :=
  ⟨0, by norm_num, by simp [oneAnd]⟩

theorem oneAnd_regrid {x : ℝ} (nonneg : 0 ≤ x) (small : x ≤ 1) :
    ∑ i ∈ range 2, regrid (oneAnd x) 2 i ^ 2 = 1 + (⌊127 * x + 1 / 2⌋ * (1 / 127) : ℝ) ^ 2 := by
  obtain ⟨first, second⟩ := oneAnd_gridPos nonneg small
  have top : ⌊(127 : ℝ) + 1 / 2⌋ = 127 := by norm_num
  rw [sum_range_succ, sum_range_one, regrid, regrid, first, second, oneAnd_peak nonneg small,
    lround_nonneg (by norm_num), lround_nonneg (by positivity), top]
  norm_num

theorem oneAnd_sq (x : ℝ) : ∑ i ∈ range 2, oneAnd x i ^ 2 = 1 + x ^ 2 := by
  simp [sum_range_succ, oneAnd]

/-- (1, 1) is on its grid. -/
theorem ones_in_range :
    -1 ≤ appendedScore (.new Engine.int8Valid.shape (.zero ℝ)) 0 (oneAnd 1) (oneAnd 1) none ∧
      appendedScore (.new Engine.int8Valid.shape (.zero ℝ)) 0 (oneAnd 1) (oneAnd 1) none ≤ 1 := by
  refine (score_in_range_iff rfl rfl 0 none {oneAnd 1} ?_).mpr ?_ _ rfl _ rfl
  · rintro v rfl
    exact oneAnd_nonzero 1
  · rintro v rfl
    show NotLengthened (oneAnd 1) 2
    rw [NotLengthened, oneAnd_regrid zero_le_one le_rfl, oneAnd_sq]
    norm_num

/-- (1, 1/2) is not: 127 and 63.5 become 127 and 64, and next to itself it scores
20225 / 20161.25. -/
theorem score_out_of_range :
    ¬ ∀ (cfg : ValidConfig) (r : SensorRing ℝ) (ts : Int64) (v q : Nat → ℝ)
      (payload : Option (Nat → UInt8)), cfg.shape.dtype = .int8 → r.shape = cfg.shape →
      (∃ i < r.shape.dim, v i ≠ 0) → (∃ i < r.shape.dim, q i ≠ 0) →
      -1 ≤ appendedScore r ts v q payload ∧ appendedScore r ts v q payload ≤ 1 := by
  intro h
  let r : SensorRing ℝ := .new Engine.int8Valid.shape (.zero ℝ)
  have nonzero : ∃ i < r.shape.dim, oneAnd (1 / 2) i ≠ 0 := oneAnd_nonzero (1 / 2)
  obtain ⟨-, inside⟩ := h Engine.int8Valid r 0 _ _ none rfl rfl nonzero nonzero
  have two : r.shape.dim = 2 := rfl
  rw [score_self rfl (by rw [two]; norm_num) 0 none nonzero, two, NotLengthened,
    oneAnd_regrid (by norm_num) (by norm_num), oneAnd_sq] at inside
  norm_num at inside

end ChronosVector
