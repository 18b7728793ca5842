import Mathlib.Algebra.BigOperators.Intervals
import Mathlib.Algebra.Order.BigOperators.Group.Finset
import Mathlib.Algebra.Order.Ring.Abs
import Mathlib.Algebra.Order.Ring.Int
import ChronosVector.Exact

/-!
# The 32-bit accumulators

`dot_i8` and the norms of recovery add up products of bytes in an `int32_t`.

* `dotI8_sum`: up to 65536 components nothing wraps;
* `accumulators_exact`: every partial sum fits, and both results are the exact
  sums.
-/

namespace ChronosVector

open Finset

/-- What an `int32_t` holds. -/
def FitsInt32 (x : Int) : Prop := -2 ^ 31 ≤ x ∧ x < 2 ^ 31

theorem wrapInt32_fits {x : Int} (h : FitsInt32 x) : wrapInt32 x = x := by
  obtain ⟨lo, hi⟩ := h
  rw [wrapInt32]
  apply Int.bmod_eq_of_le <;> omega

/-- The largest product is that of -128 with itself. -/
theorem product_bound (x y : Int8) : |x.toInt * y.toInt| ≤ 16384 := by
  have bound (z : Int8) : |z.toInt| ≤ 128 := abs_le.mpr ⟨z.le_toInt, by have := z.toInt_lt; omega⟩
  rw [abs_mul]
  calc |x.toInt| * |y.toInt| ≤ 128 * 128 := mul_le_mul (bound x) (bound y) (abs_nonneg _) (by decide)
    _ = 16384 := rfl

theorem products_bound (a b : Nat → Int8) (n : Nat) :
    |∑ i ∈ range n, (a i).toInt * (b i).toInt| ≤ n * 16384 := by
  calc |∑ i ∈ range n, (a i).toInt * (b i).toInt|
      ≤ ∑ i ∈ range n, |(a i).toInt * (b i).toInt| := abs_sum_le_sum_abs _ _
    _ ≤ ∑ _i ∈ range n, (16384 : Int) := sum_le_sum fun i _ => product_bound _ _
    _ = n * 16384 := by rw [sum_const, card_range, nsmul_eq_mul]

theorem products_fit (a b : Nat → Int8) {n : Nat} (hn : n ≤ 65536) :
    FitsInt32 (∑ i ∈ range n, (a i).toInt * (b i).toInt) := by
  have bound := abs_le.mp (products_bound a b n)
  exact ⟨by omega, by omega⟩

theorem dotI8_succ (a b : Nat → Int8) (n : Nat) :
    dotI8 a b (n + 1) = wrapInt32 (dotI8 a b n + (a n).toInt * (b n).toInt) := by
  rw [dotI8, List.range_succ, List.foldl_append]
  rfl

/-- **Nothing wraps.** -/
theorem dotI8_sum (a b : Nat → Int8) {dim : Nat} (hdim : dim ≤ 65536) :
    dotI8 a b dim = ∑ i ∈ range dim, (a i).toInt * (b i).toInt := by
  induction dim with
  | zero => rfl
  | succ n ih =>
    rw [dotI8_succ, ih (by omega), ← sum_range_succ]
    exact wrapInt32_fits (products_fit a b hdim)

/-- **The accumulators.** Up to the largest dimension, every partial sum of both
loops is an `int32_t`, and what comes out is the exact sum. -/
theorem accumulators_exact {F : Type} [FloatArith F] {dim : Nat} (hdim : dim ≤ 65536)
    (a b : Nat → Int8) (vec : Nat → Elem F) (scale : F) :
    (∀ n ≤ dim, FitsInt32 (∑ i ∈ range n, (a i).toInt * (b i).toInt)) ∧
      dotI8 a b dim = ∑ i ∈ range dim, (a i).toInt * (b i).toInt ∧
      (∀ n ≤ dim, FitsInt32 (∑ i ∈ range n, (vec i).int8.toInt * (vec i).int8.toInt)) ∧
      replayNorm .int8 dim vec scale =
        scale * FloatArith.sqrt (FloatArith.ofInt
          (∑ i ∈ range dim, (vec i).int8.toInt * (vec i).int8.toInt)) := by
  refine ⟨fun n hn => products_fit a b (hn.trans hdim), dotI8_sum a b hdim,
    fun n hn => products_fit _ _ (hn.trans hdim), ?_⟩
  rw [replayNorm, dotI8_sum _ _ hdim]

/-- The largest dimension with -128 everywhere. -/
theorem largest_accumulators_exact :
    (∀ n ≤ 65536, FitsInt32 (∑ _i ∈ range n, (-128 : Int8).toInt * (-128 : Int8).toInt)) ∧
      dotI8 (fun _ => -128) (fun _ => -128) 65536 = 2 ^ 30 := by
  obtain ⟨partials, total, -⟩ := accumulators_exact (Nat.le_refl 65536) (fun _ => -128)
    (fun _ => -128) (fun _ => (.i8 0 : Elem ℚ)) 0
  refine ⟨partials, total.trans ?_⟩
  rw [sum_const, card_range]
  decide

end ChronosVector
