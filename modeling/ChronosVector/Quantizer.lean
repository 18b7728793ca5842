import Mathlib.Algebra.Order.Group.Finset
import ChronosVector.RealArith

/-!
# The quantizer

`QuantizeF32ToI8` in exact arithmetic: components in units of 1/127 of the
largest magnitude, rounded half away from zero.

* `peak`, `gridPos`: the components in units of the quantizer's grid;
* `quantize_real`: what the quantizer makes of them;
* `quantize_cast`: on rational vectors the quantizer of the reals is that of the
  rationals;
* `quantizer_exact`: the error bound, and what scaling and negation do.
-/

namespace ChronosVector

open Finset

/-- The largest magnitude of a component. -/
noncomputable def peak (v : Nat → ℝ) (dim : Nat) : ℝ := (range dim).fold max 0 fun i => |v i|

/-- Component `i`, in units of 1/127 of the largest magnitude. -/
noncomputable def gridPos (v : Nat → ℝ) (dim i : Nat) : ℝ := 127 * v i / peak v dim

/-- Component `i` rounded to the grid of its vector. -/
noncomputable def regrid (v : Nat → ℝ) (dim i : Nat) : ℝ :=
  FloatArith.lround (gridPos v dim i) * (peak v dim / 127)

variable {v : Nat → ℝ} {dim : Nat}

/-! ## Rounding -/

theorem lround_nonneg {x : ℝ} (nonneg : 0 ≤ x) : FloatArith.lround x = ⌊x + 1 / 2⌋ := if_pos nonneg

theorem lround_negative {x : ℝ} (negative : x < 0) : FloatArith.lround x = -⌊-x + 1 / 2⌋ :=
  if_neg (not_le.mpr negative)

theorem lround_zero : FloatArith.lround (0 : ℝ) = 0 := by
  rw [lround_nonneg le_rfl]
  norm_num

theorem lround_neg (x : ℝ) : FloatArith.lround (-x) = -FloatArith.lround x := by
  obtain negative | rfl | positive := lt_trichotomy x 0
  · rw [lround_nonneg (neg_nonneg.mpr negative.le), lround_negative negative, neg_neg]
  · rw [neg_zero, lround_zero, neg_zero]
  · rw [lround_negative (neg_lt_zero.mpr positive), lround_nonneg positive.le, neg_neg]

/-- Rounding moves a number by at most one half. -/
theorem lround_near (x : ℝ) : |(FloatArith.lround x : ℝ) - x| ≤ 1 / 2 := by
  have floor_near (y : ℝ) : |(⌊y + 1 / 2⌋ : ℝ) - y| ≤ 1 / 2 := by
    have lo := Int.lt_floor_add_one (y + 1 / 2)
    have hi := Int.floor_le (y + 1 / 2)
    exact abs_le.mpr ⟨by linarith, by linarith⟩
  obtain nonneg | negative := le_or_gt 0 x
  · rw [lround_nonneg nonneg]
    exact floor_near x
  · have near := floor_near (-x)
    rw [lround_negative negative, Int.cast_neg, ← abs_neg]
    rwa [show -(-(⌊-x + 1 / 2⌋ : ℝ) - x) = ⌊-x + 1 / 2⌋ - -x by ring]

/-- Rounding half away from zero stays on the grid. -/
theorem lround_bound {x : ℝ} (h : |x| ≤ 127) :
    -127 ≤ FloatArith.lround x ∧ FloatArith.lround x ≤ 127 := by
  have near := abs_le.mp (lround_near x)
  have inside := abs_le.mp h
  have lo : (-128 : ℝ) < FloatArith.lround x := by linarith
  have hi : (FloatArith.lround x : ℝ) < 128 := by linarith
  have lo' : -128 < FloatArith.lround x := by exact_mod_cast lo
  have hi' : FloatArith.lround x < 128 := by exact_mod_cast hi
  omega

theorem lround_extreme {x : ℝ} (h : |x| = 127) : |FloatArith.lround x| = 127 := by
  have top : FloatArith.lround (127 : ℝ) = 127 := by
    rw [lround_nonneg (by norm_num)]
    norm_num
  obtain rfl | rfl := (abs_eq (by norm_num)).mp h
  · rw [top]
    rfl
  · rw [lround_neg, top]
    rfl

/-! ## The grid -/

theorem peak_nonneg (v : Nat → ℝ) (dim : Nat) : 0 ≤ peak v dim := (le_fold_max _).mpr (.inl le_rfl)

theorem abs_le_peak {i : Nat} (hi : i < dim) : |v i| ≤ peak v dim :=
  (le_fold_max _).mpr (.inr ⟨i, mem_range.mpr hi, le_rfl⟩)

theorem gridPos_bound {i : Nat} (hi : i < dim) : |gridPos v dim i| ≤ 127 := by
  have inside := abs_le_peak (v := v) hi
  rw [gridPos, abs_div, abs_mul, abs_of_nonneg (peak_nonneg v dim), abs_of_pos (by norm_num : (0 : ℝ) < 127)]
  apply div_le_of_le_mul₀ (peak_nonneg v dim) (by norm_num)
  gcongr

/-- The first pass of the quantizer finds the peak. -/
theorem maxAbs_real (v : Nat → ℝ) (dim : Nat) : maxAbs v dim = peak v dim := by
  have magnitude (x : ℝ) : absF32 x = |x| := by
    simp only [absF32, lt_real]
    split
    · rename_i negative
      exact (abs_of_neg negative).symm
    · rename_i nonneg
      exact (abs_of_nonneg (not_lt.mp nonneg)).symm
  unfold maxAbs peak
  induction dim with
  | zero => rfl
  | succ n ih =>
    rw [List.range_succ, List.foldl_append, ih, range_add_one, fold_insert notMem_range_self]
    simp only [List.foldl_cons, List.foldl_nil, magnitude, lt_real]
    split
    · rename_i larger
      exact (max_eq_left larger.le).symm
    · rename_i smaller
      exact (max_eq_right (not_lt.mp smaller)).symm

/-- A component becomes its rounded place on the grid: the clamp never acts. -/
theorem quantizeOne_real {i : Nat} (hi : i < dim) :
    (quantizeOne (FloatArith.ofInt 127 / peak v dim) (v i)).toInt =
      FloatArith.lround (gridPos v dim i) := by
  have top : ((127 : Int) : ℝ) = 127 := Int.cast_ofNat 127
  have bottom : ((-127 : Int) : ℝ) = -127 := by norm_num
  have place : v i * (127 / peak v dim) = gridPos v dim i := by
    rw [gridPos]
    ring
  have bound := gridPos_bound (v := v) hi
  obtain ⟨lo, hi⟩ := abs_le.mp bound
  obtain ⟨above, below⟩ := lround_bound bound
  simp only [quantizeOne, lt_real, ofInt_real, top, bottom, place, if_neg (not_lt.mpr hi), if_neg (not_lt.mpr lo)]
  exact Int8.toInt_ofInt_of_le (by omega) (by omega)

/-- What the quantizer stores for a vector. -/
theorem quantize_real (v : Nat → ℝ) (dim : Nat) :
    (∀ i < dim, ((quantizeF32ToI8 v dim).1 i).toInt = FloatArith.lround (gridPos v dim i)) ∧
      (quantizeF32ToI8 v dim).2 = peak v dim / 127 := by
  simp only [quantizeF32ToI8, maxAbs_real, lt_real]
  split
  · exact ⟨fun i hi => quantizeOne_real hi, by rw [ofInt_real, Int.cast_ofNat]⟩
  · rename_i zero
    have none : peak v dim = 0 := le_antisymm (not_lt.mp zero) (peak_nonneg v dim)
    refine ⟨fun i hi => ?_, by rw [none, zero_div]⟩
    rw [gridPos, none, div_zero, lround_zero]
    rfl

/-! ## The grid of a negated and of a scaled vector -/

theorem peak_le {c : ℝ} : peak v dim ≤ c ↔ 0 ≤ c ∧ ∀ i < dim, |v i| ≤ c := by
  simp only [peak, fold_max_le, mem_range]

/-- The peak of a vector is the magnitude of one of its components. -/
theorem peak_attained (pos : 0 < peak v dim) : ∃ i < dim, |v i| = peak v dim := by
  obtain zero | ⟨i, mem, reaches⟩ := (le_fold_max (peak v dim)).mp (le_refl (peak v dim))
  · exact absurd pos (not_lt.mpr zero)
  · exact ⟨i, mem_range.mp mem, le_antisymm (abs_le_peak (mem_range.mp mem)) reaches⟩

theorem peak_eq_zero_iff : peak v dim = 0 ↔ ∀ i < dim, v i = 0 := by
  constructor
  · intro zero i hi
    exact abs_nonpos_iff.mp (zero ▸ abs_le_peak hi)
  · intro none
    exact le_antisymm (peak_le.mpr ⟨le_rfl, fun i hi => by rw [none i hi, abs_zero]⟩)
      (peak_nonneg v dim)

theorem peak_pos (nonzero : ∃ i < dim, v i ≠ 0) : 0 < peak v dim := by
  apply lt_of_le_of_ne (peak_nonneg v dim)
  intro zero
  obtain ⟨i, hi, ne⟩ := nonzero
  exact ne (peak_eq_zero_iff.mp zero.symm i hi)

theorem peak_neg (v : Nat → ℝ) (dim : Nat) : peak (fun i => -v i) dim = peak v dim := by
  simp only [peak, abs_neg]

theorem peak_scale {c : ℝ} (pos : 0 < c) (v : Nat → ℝ) (dim : Nat) :
    peak (fun i => c * v i) dim = c * peak v dim := by
  have scaled (i : Nat) : |c * v i| = c * |v i| := by rw [abs_mul, abs_of_pos pos]
  apply le_antisymm
  · apply peak_le.mpr
    refine ⟨mul_nonneg pos.le (peak_nonneg v dim), fun i hi => ?_⟩
    rw [scaled]
    exact mul_le_mul_of_nonneg_left (abs_le_peak hi) pos.le
  · rw [← le_div_iff₀' pos]
    apply peak_le.mpr
    refine ⟨div_nonneg (peak_nonneg _ dim) pos.le, fun i hi => ?_⟩
    rw [le_div_iff₀' pos, ← scaled]
    exact abs_le_peak (v := fun i => c * v i) hi

theorem gridPos_neg (v : Nat → ℝ) (dim i : Nat) :
    gridPos (fun i => -v i) dim i = -gridPos v dim i := by
  simp only [gridPos, peak_neg]
  ring

theorem gridPos_scale {c : ℝ} (pos : 0 < c) (v : Nat → ℝ) (dim i : Nat) :
    gridPos (fun i => c * v i) dim i = gridPos v dim i := by
  simp only [gridPos, peak_scale pos]
  rw [mul_left_comm, mul_div_mul_left _ _ pos.ne']

/-- A component is its place on the grid, in units of the scale. -/
theorem gridPos_scaled {i : Nat} (hi : i < dim) : gridPos v dim i * (peak v dim / 127) = v i := by
  obtain zero | pos := eq_or_lt_of_le (peak_nonneg v dim)
  · rw [gridPos, ← zero, zero_div, mul_zero, peak_eq_zero_iff.mp zero.symm i hi]
  · rw [gridPos]
    field_simp

theorem gridPos_attained (pos : 0 < peak v dim) : ∃ i < dim, |gridPos v dim i| = 127 := by
  obtain ⟨i, hi, reaches⟩ := peak_attained pos
  refine ⟨i, hi, ?_⟩
  rw [gridPos, abs_div, abs_mul, reaches, abs_of_pos pos, mul_div_assoc, div_self pos.ne', mul_one]
  norm_num

/-- The length of a vector in units of the scale. -/
theorem norm_scaled (v : Nat → ℝ) (dim : Nat) :
    √(∑ i ∈ range dim, v i ^ 2) = peak v dim / 127 * √(∑ i ∈ range dim, gridPos v dim i ^ 2) := by
  have unit : 0 ≤ peak v dim / 127 := div_nonneg (peak_nonneg v dim) (by norm_num)
  have scaled : ∀ i ∈ range dim, v i ^ 2 = (peak v dim / 127) ^ 2 * gridPos v dim i ^ 2 := by
    intro i hi
    rw [← mul_pow, mul_comm, gridPos_scaled (mem_range.mp hi)]
  rw [sum_congr rfl scaled, ← mul_sum, Real.sqrt_mul (sq_nonneg _), Real.sqrt_sq unit]

/-! ## Rational vectors -/

theorem lt_cast (x y : ℚ) : FloatArith.lt (x : ℝ) (y : ℝ) = FloatArith.lt x y :=
  decide_eq_decide.mpr Rat.cast_lt

theorem lround_cast (x : ℚ) : FloatArith.lround (x : ℝ) = FloatArith.lround x := by
  have half (y : ℚ) : (y : ℝ) + 1 / 2 = ((y + 1 / 2 : ℚ) : ℝ) := by push_cast; rfl
  obtain nonneg | negative := le_or_gt 0 x
  · have exactly : FloatArith.lround x = ⌊x + 1 / 2⌋ := if_pos nonneg
    rw [lround_nonneg (Rat.cast_nonneg.mpr nonneg), half, Rat.floor_cast, exactly]
  · have exactly : FloatArith.lround x = -⌊-x + 1 / 2⌋ := if_neg (not_le.mpr negative)
    rw [lround_negative (Rat.cast_lt_zero.mpr negative), ← Rat.cast_neg, half, Rat.floor_cast, exactly]

theorem maxAbs_cast (v : Nat → ℚ) (dim : Nat) : maxAbs (fun i => (v i : ℝ)) dim = (maxAbs v dim : ℚ) := by
  have magnitude (x : ℚ) : absF32 (x : ℝ) = (absF32 x : ℚ) := by
    have zero := lt_cast x 0
    rw [Rat.cast_zero] at zero
    rw [absF32, absF32, zero]
    split
    · exact (Rat.cast_neg x).symm
    · rfl
  unfold maxAbs
  induction dim with
  | zero => exact Rat.cast_zero.symm
  | succ n ih =>
    rw [List.range_succ, List.foldl_append, List.foldl_append, ih]
    simp only [List.foldl_cons, List.foldl_nil, magnitude, lt_cast]
    split <;> rfl

/-- **Rational vectors.** The quantizer makes the same of them among the reals. -/
theorem quantize_cast (v : Nat → ℚ) (dim : Nat) :
    (quantizeF32ToI8 (fun i => (v i : ℝ)) dim).1 = (quantizeF32ToI8 v dim).1 ∧
      (quantizeF32ToI8 (fun i => (v i : ℝ)) dim).2 = (quantizeF32ToI8 v dim).2 := by
  have literal (z : Int) : (FloatArith.ofInt z : ℝ) = ((FloatArith.ofInt z : ℚ) : ℝ) :=
    (Rat.cast_intCast z).symm
  have zero (x : ℚ) : FloatArith.lt 0 (x : ℝ) = FloatArith.lt 0 x := by
    rw [← lt_cast, Rat.cast_zero]
  simp only [quantizeF32ToI8, maxAbs_cast, zero]
  split
  · refine ⟨funext fun i => ?_, ?_⟩
    · simp only [quantizeOne, literal, ← Rat.cast_div, ← Rat.cast_mul, lt_cast, ← apply_ite,
        lround_cast]
    · simp only [literal, ← Rat.cast_div]
  · exact ⟨rfl, Rat.cast_zero.symm⟩

/-! ## The error bound -/

/-- `q` and `scale` are as good an approximation of `v` as the grid allows. -/
structure Quantizes (v : Nat → ℚ) (dim : Nat) (q : Nat → Int8) (scale : ℚ) : Prop where
  inside : ∀ i < dim, -127 ≤ (q i).toInt ∧ (q i).toInt ≤ 127
  error : ∀ i < dim, |(q i).toInt * scale - v i| ≤ scale / 2
  extreme : (∃ i < dim, v i ≠ 0) → ∃ i < dim, |(q i).toInt| = 127
  zero_scale : scale = 0 ↔ ∀ i < dim, v i = 0
  zero_components : (∀ i < dim, q i = 0) ↔ ∀ i < dim, v i = 0

theorem quantize_inside {i : Nat} (hi : i < dim) :
    -127 ≤ ((quantizeF32ToI8 v dim).1 i).toInt ∧ ((quantizeF32ToI8 v dim).1 i).toInt ≤ 127 := by
  rw [(quantize_real v dim).1 i hi]
  exact lround_bound (gridPos_bound hi)

theorem quantize_error {i : Nat} (hi : i < dim) :
    |((quantizeF32ToI8 v dim).1 i).toInt * (quantizeF32ToI8 v dim).2 - v i| ≤
      (quantizeF32ToI8 v dim).2 / 2 := by
  obtain ⟨places, scale⟩ := quantize_real v dim
  have unit : 0 ≤ peak v dim / 127 := div_nonneg (peak_nonneg v dim) (by norm_num)
  have place := gridPos_scaled (v := v) hi
  rw [places i hi, scale]
  calc |FloatArith.lround (gridPos v dim i) * (peak v dim / 127) - v i|
      = |(FloatArith.lround (gridPos v dim i) - gridPos v dim i) * (peak v dim / 127)| := by
        rw [sub_mul, place]
    _ = |(FloatArith.lround (gridPos v dim i) : ℝ) - gridPos v dim i| * (peak v dim / 127) := by
        rw [abs_mul, abs_of_nonneg unit]
    _ ≤ 1 / 2 * (peak v dim / 127) := mul_le_mul_of_nonneg_right (lround_near _) unit
    _ = peak v dim / 127 / 2 := by ring

theorem quantize_extreme (nonzero : ∃ i < dim, v i ≠ 0) :
    ∃ i < dim, |((quantizeF32ToI8 v dim).1 i).toInt| = 127 := by
  obtain ⟨i, hi, reaches⟩ := gridPos_attained (peak_pos nonzero)
  refine ⟨i, hi, ?_⟩
  rw [(quantize_real v dim).1 i hi]
  exact lround_extreme reaches

theorem quantize_zero_scale : (quantizeF32ToI8 v dim).2 = 0 ↔ ∀ i < dim, v i = 0 := by
  rw [(quantize_real v dim).2, div_eq_zero_iff, peak_eq_zero_iff]
  norm_num

theorem quantize_zero_components :
    (∀ i < dim, (quantizeF32ToI8 v dim).1 i = 0) ↔ ∀ i < dim, v i = 0 := by
  constructor
  · intro zeros
    by_contra nonzero
    push Not at nonzero
    obtain ⟨i, hi, extreme⟩ := quantize_extreme nonzero
    rw [zeros i hi] at extreme
    cases extreme
  · intro none i hi
    have place : gridPos v dim i = 0 := by rw [gridPos, none i hi, mul_zero, zero_div]
    have zero := (quantize_real v dim).1 i hi
    rw [place, lround_zero] at zero
    exact Int8.toInt_inj.mp zero

theorem quantize_neg (v : Nat → ℝ) (dim : Nat) :
    (∀ i < dim, ((quantizeF32ToI8 (fun j => -v j) dim).1 i).toInt =
        -((quantizeF32ToI8 v dim).1 i).toInt) ∧
      (quantizeF32ToI8 (fun j => -v j) dim).2 = (quantizeF32ToI8 v dim).2 := by
  obtain ⟨places, scale⟩ := quantize_real v dim
  obtain ⟨places', scale'⟩ := quantize_real (fun j => -v j) dim
  refine ⟨fun i hi => ?_, ?_⟩
  · rw [places' i hi, places i hi, gridPos_neg, lround_neg]
  · rw [scale', scale, peak_neg]

theorem quantize_scale {c : ℝ} (pos : 0 < c) (v : Nat → ℝ) (dim : Nat) :
    (∀ i < dim, (quantizeF32ToI8 (fun j => c * v j) dim).1 i = (quantizeF32ToI8 v dim).1 i) ∧
      (quantizeF32ToI8 (fun j => c * v j) dim).2 = c * (quantizeF32ToI8 v dim).2 := by
  obtain ⟨places, scale⟩ := quantize_real v dim
  obtain ⟨places', scale'⟩ := quantize_real (fun j => c * v j) dim
  refine ⟨fun i hi => ?_, ?_⟩
  · apply Int8.toInt_inj.mp
    rw [places' i hi, places i hi, gridPos_scale pos]
  · rw [scale', scale, peak_scale pos, mul_div_assoc]

theorem quantizes (v : Nat → ℚ) (dim : Nat) :
    Quantizes v dim (quantizeF32ToI8 v dim).1 (quantizeF32ToI8 v dim).2 := by
  obtain ⟨components, scale⟩ := quantize_cast v dim
  have zeros : (∀ i < dim, (v i : ℝ) = 0) ↔ ∀ i < dim, v i = 0 := by simp only [Rat.cast_eq_zero]
  rw [← components]
  refine ⟨fun i => quantize_inside, fun i hi => ?_, fun nonzero => ?_, ?_, ?_⟩
  · have error := quantize_error (v := fun j => (v j : ℝ)) hi
    rw [scale] at error
    exact_mod_cast error
  · apply quantize_extreme
    simpa only [ne_eq, Rat.cast_eq_zero] using nonzero
  · rw [← zeros, ← quantize_zero_scale, scale, Rat.cast_eq_zero]
  · rw [← zeros, ← quantize_zero_components]

/-- **The quantizer.** For every rational vector: the error bound, and negating or
scaling the vector negates its components or scales only its scale. -/
theorem quantizer_exact (v : Nat → ℚ) (dim : Nat) :
    Quantizes v dim (quantizeF32ToI8 v dim).1 (quantizeF32ToI8 v dim).2 ∧
      ((∀ i < dim, ((quantizeF32ToI8 (fun j => -v j) dim).1 i).toInt =
          -((quantizeF32ToI8 v dim).1 i).toInt) ∧
        (quantizeF32ToI8 (fun j => -v j) dim).2 = (quantizeF32ToI8 v dim).2) ∧
      ∀ c : ℚ, 0 < c →
        (∀ i < dim, (quantizeF32ToI8 (fun j => c * v j) dim).1 i = (quantizeF32ToI8 v dim).1 i) ∧
          (quantizeF32ToI8 (fun j => c * v j) dim).2 = c * (quantizeF32ToI8 v dim).2 := by
  obtain ⟨components, scale⟩ := quantize_cast v dim
  refine ⟨quantizes v dim, ?_, fun c pos => ?_⟩
  · obtain ⟨components', scale'⟩ := quantize_cast (fun j => -v j) dim
    obtain ⟨negated, same⟩ := quantize_neg (fun j => (v j : ℝ)) dim
    simp only [Rat.cast_neg] at components' scale'
    rw [components', components] at negated
    rw [scale', scale] at same
    exact ⟨negated, Rat.cast_injective same⟩
  · obtain ⟨components', scale'⟩ := quantize_cast (fun j => c * v j) dim
    obtain ⟨same, scaled⟩ := quantize_scale (Rat.cast_pos.mpr pos) (fun j => (v j : ℝ)) dim
    simp only [Rat.cast_mul] at components' scale'
    rw [components', components] at same
    rw [scale', scale] at scaled
    exact ⟨same, by exact_mod_cast scaled⟩

end ChronosVector
