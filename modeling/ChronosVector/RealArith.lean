import Mathlib.Algebra.BigOperators.Ring.Finset
import Mathlib.Algebra.Order.BigOperators.Ring.Finset
import Mathlib.Analysis.SpecialFunctions.Sqrt
import ChronosVector.Query
import ChronosVector.Exact

/-!
# Exact real arithmetic

The kernels over the real numbers, where every square root exists.

* `similarity`, `sqDist`: what the two metrics are made of;
* `cosineF32_exact`, `euclideanSqF32_exact`: with the norms of its two vectors a
  kernel computes them;
* `anomalyDistance_exact`: the distance of a detection is the metric's.
-/

namespace ChronosVector

open Finset

/-- Exact numbers. -/
noncomputable instance : FloatArith ℝ where
  lt a b := decide (a < b)
  le a b := decide (a ≤ b)
  sqrt := Real.sqrt
  ofInt i := i
  lround x := if 0 ≤ x then ⌊x + 1 / 2⌋ else -⌊-x + 1 / 2⌋
  ofBits b := (ratOfBits b : ℝ)

theorem lt_real (x y : ℝ) : (FloatArith.lt x y = true) = (x < y) := decide_eq_true_eq

theorem ofInt_real (z : Int) : (FloatArith.ofInt z : ℝ) = z := rfl

/-- The cosine of the angle, zero next to a zero vector. -/
noncomputable def similarity (v w : Nat → ℝ) (dim : Nat) : ℝ :=
  (∑ i ∈ range dim, v i * w i) / (√(∑ i ∈ range dim, v i ^ 2) * √(∑ i ∈ range dim, w i ^ 2))

/-- The squared Euclidean distance. -/
noncomputable def sqDist (v w : Nat → ℝ) (dim : Nat) : ℝ := ∑ i ∈ range dim, (v i - w i) ^ 2

/-- The distance of the engine's metric, as the API documents it. -/
noncomputable def Metric.distance (m : Metric) (v w : Nat → ℝ) (dim : Nat) : ℝ :=
  match m with
  | .cosine => 1 - similarity v w dim
  | .euclidean => √(sqDist v w dim)

variable {v w : Nat → ℝ} {dim : Nat}

theorem sqDist_nonneg : 0 ≤ sqDist v w dim := sum_nonneg fun _ _ => sq_nonneg _

theorem sqNorm_nonneg : 0 ≤ ∑ i ∈ range dim, v i ^ 2 := sum_nonneg fun _ _ => sq_nonneg _

/-- The inner product is at most the product of the lengths. -/
theorem similarity_bound (v w : Nat → ℝ) (dim : Nat) : |similarity v w dim| ≤ 1 := by
  have cauchy := sum_mul_sq_le_sq_mul_sq (range dim) v w
  rw [similarity, abs_div, abs_of_nonneg (mul_nonneg (Real.sqrt_nonneg _) (Real.sqrt_nonneg _))]
  apply div_le_one_of_le₀
  · rw [← Real.sqrt_mul sqNorm_nonneg]
    exact Real.abs_le_sqrt cauchy
  · exact mul_nonneg (Real.sqrt_nonneg _) (Real.sqrt_nonneg _)

/-! ## The kernels -/

theorem dot_sum (v w : Nat → ℝ) (dim : Nat) : dot v w dim = ∑ i ∈ range dim, v i * w i := by
  unfold dot
  induction dim with
  | zero => rfl
  | succ n ih => rw [List.range_succ, List.foldl_append, ih, sum_range_succ]; rfl

theorem l2NormF32_real (v : Nat → ℝ) (dim : Nat) :
    l2NormF32 v dim = √(∑ i ∈ range dim, v i ^ 2) := by
  rw [l2NormF32, dot_sum]
  simp only [sq]
  rfl

theorem cosineF32_exact (v w : Nat → ℝ) (dim : Nat) :
    cosineF32 v (l2NormF32 v dim) dim w (l2NormF32 w dim) = similarity v w dim := by
  simp only [cosineF32, lt_real, l2NormF32_real, dot_sum, similarity]
  split
  · split
    · rfl
    · rename_i zero
      rw [le_antisymm (not_lt.mp zero) (Real.sqrt_nonneg _), zero_mul, div_zero]
  · rename_i zero
    rw [le_antisymm (not_lt.mp zero) (Real.sqrt_nonneg _), mul_zero, div_zero]

/-- The expanded square is the square. -/
theorem norm_identity {vn wn : ℝ} (hv : vn ^ 2 = ∑ i ∈ range dim, v i ^ 2)
    (hw : wn ^ 2 = ∑ i ∈ range dim, w i ^ 2) :
    vn * vn + wn * wn - FloatArith.ofInt 2 * dot v w dim = sqDist v w dim := by
  rw [← sq, ← sq, hv, hw, dot_sum, ofInt_real, Int.cast_ofNat, sqDist, mul_sum, ← sum_add_distrib,
    ← sum_sub_distrib]
  apply sum_congr rfl
  intro i _
  ring

/-- Nothing is clamped. -/
theorem euclideanSqF32_sqDist {vn wn : ℝ} (hv : vn ^ 2 = ∑ i ∈ range dim, v i ^ 2)
    (hw : wn ^ 2 = ∑ i ∈ range dim, w i ^ 2) : euclideanSqF32 v vn dim w wn = sqDist v w dim := by
  rw [euclideanSqF32, norm_identity hv hw]
  simp only [lt_real, if_neg (not_lt.mpr sqDist_nonneg)]

theorem l2NormF32_sq (v : Nat → ℝ) (dim : Nat) : l2NormF32 v dim ^ 2 = ∑ i ∈ range dim, v i ^ 2 := by
  rw [l2NormF32_real, Real.sq_sqrt sqNorm_nonneg]

theorem euclideanSqF32_exact (v w : Nat → ℝ) (dim : Nat) :
    euclideanSqF32 v (l2NormF32 v dim) dim w (l2NormF32 w dim) = sqDist v w dim :=
  euclideanSqF32_sqDist (l2NormF32_sq v dim) (l2NormF32_sq w dim)

/-- **The distance of a detection.** -/
theorem anomalyDistance_exact (m : Metric) (v w : Nat → ℝ) (dim : Nat) :
    Engine.anomalyDistance m v w dim = m.distance v w dim := by
  cases m with
  | cosine =>
    rw [Engine.anomalyDistance, Metric.distance, cosineF32_exact, ofInt_real, Int.cast_one]
  | euclidean =>
    simp only [Engine.anomalyDistance, Metric.distance, euclideanSqF32_exact, lt_real]
    split
    · rfl
    · rename_i zero
      rw [le_antisymm (not_lt.mp zero) sqDist_nonneg]
      rfl

end ChronosVector
