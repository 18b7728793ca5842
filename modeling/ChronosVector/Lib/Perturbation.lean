import Mathlib.Analysis.Real.Sqrt
import Mathlib.Algebra.Order.BigOperators.Ring.Finset
import Mathlib.Tactic.Linarith
import Mathlib.Tactic.Positivity
import Mathlib.Tactic.FieldSimp

/-!
# Inner products of perturbed vectors

Two vectors over a finite index set, each moved by at most `δ` in every
component.

* `abs_dot_le`: the inner product is at most the product of the lengths;
* `dot_near`: how far the perturbation moves the inner product;
* `dot_near_rel`: the same relative to the lengths, of vectors that are not short.
-/

namespace Perturbation

open Finset

variable {ι : Type} (s : Finset ι)

/-- The Euclidean length. -/
noncomputable def len (x : ι → ℝ) : ℝ := √(∑ i ∈ s, x i ^ 2)

variable {s} {x y x' y' : ι → ℝ} {δ l : ℝ}

theorem len_nonneg : 0 ≤ len s x := Real.sqrt_nonneg _

/-- Cauchy and Schwarz. -/
theorem abs_dot_le (x y : ι → ℝ) : |∑ i ∈ s, x i * y i| ≤ len s x * len s y := by
  have nonneg : 0 ≤ ∑ i ∈ s, x i ^ 2 := sum_nonneg fun _ _ => sq_nonneg _
  rw [len, len, ← Real.sqrt_mul nonneg]
  exact Real.abs_le_sqrt (sum_mul_sq_le_sq_mul_sq s x y)

theorem len_le_of_near (pos : 0 ≤ δ) (near : ∀ i ∈ s, |x i| ≤ δ) : len s x ≤ δ * √s.card := by
  have each : ∑ i ∈ s, x i ^ 2 ≤ s.card * δ ^ 2 := by
    rw [← nsmul_eq_mul]
    apply sum_le_card_nsmul
    intro i mem
    rw [← sq_abs]
    exact pow_le_pow_left₀ (abs_nonneg _) (near i mem) 2
  calc len s x ≤ √(s.card * δ ^ 2) := Real.sqrt_le_sqrt each
    _ = δ * √s.card := by
      rw [Real.sqrt_mul (Nat.cast_nonneg _), Real.sqrt_sq pos, mul_comm]

/-- Each vector's error meets the other vector, and the errors meet. -/
theorem dot_near (pos : 0 ≤ δ) (hx : ∀ i ∈ s, |x' i - x i| ≤ δ) (hy : ∀ i ∈ s, |y' i - y i| ≤ δ) :
    |∑ i ∈ s, x' i * y' i - ∑ i ∈ s, x i * y i| ≤
      δ * √s.card * (len s x + len s y) + (δ * √s.card) ^ 2 := by
  let e := fun i => x' i - x i
  let f := fun i => y' i - y i
  have he : len s e ≤ δ * √s.card := len_le_of_near pos hx
  have hf : len s f ≤ δ * √s.card := len_le_of_near pos hy
  have parts : ∑ i ∈ s, x' i * y' i - ∑ i ∈ s, x i * y i =
      ∑ i ∈ s, x i * f i + ∑ i ∈ s, e i * y i + ∑ i ∈ s, e i * f i := by
    rw [← sum_sub_distrib, ← sum_add_distrib, ← sum_add_distrib]
    apply sum_congr rfl
    intro i _
    simp only [e, f]
    ring
  have unit : 0 ≤ δ * √s.card := mul_nonneg pos (Real.sqrt_nonneg _)
  rw [parts]
  calc |∑ i ∈ s, x i * f i + ∑ i ∈ s, e i * y i + ∑ i ∈ s, e i * f i|
      ≤ |∑ i ∈ s, x i * f i| + |∑ i ∈ s, e i * y i| + |∑ i ∈ s, e i * f i| := abs_add_three _ _ _
    _ ≤ len s x * len s f + len s e * len s y + len s e * len s f :=
        add_le_add (add_le_add (abs_dot_le x f) (abs_dot_le e y)) (abs_dot_le e f)
    _ ≤ len s x * (δ * √s.card) + (δ * √s.card) * len s y + (δ * √s.card) * (δ * √s.card) := by
        gcongr
        · exact len_nonneg
        · exact len_nonneg
        · exact len_nonneg
    _ = δ * √s.card * (len s x + len s y) + (δ * √s.card) ^ 2 := by ring

/-- Relative to the lengths of the vectors, which are at least `l`. -/
theorem dot_near_rel (pos : 0 ≤ δ) (hl : 0 < l) (hx : ∀ i ∈ s, |x' i - x i| ≤ δ)
    (hy : ∀ i ∈ s, |y' i - y i| ≤ δ) (long : l ≤ len s x) (long' : l ≤ len s y) :
    |∑ i ∈ s, x' i * y' i - ∑ i ∈ s, x i * y i| ≤
      len s x * len s y * ((1 + δ * √s.card / l) ^ 2 - 1) := by
  refine (dot_near pos hx hy).trans ?_
  have unit : 0 ≤ δ * √s.card := mul_nonneg pos (Real.sqrt_nonneg _)
  generalize δ * √s.card = ε at unit
  have ratio : 0 ≤ ε / l := div_nonneg unit hl.le
  have short : ε = ε / l * l := (div_mul_cancel₀ ε hl.ne').symm
  have first : ε * len s x ≤ ε / l * (len s x * len s y) := by
    calc ε * len s x = ε / l * (len s x * l) := by
          rw [mul_comm (len s x) l, ← mul_assoc, ← short]
      _ ≤ ε / l * (len s x * len s y) := by gcongr; exact len_nonneg
  have second : ε * len s y ≤ ε / l * (len s x * len s y) := by
    calc ε * len s y = ε / l * (l * len s y) := by rw [← mul_assoc, ← short]
      _ ≤ ε / l * (len s x * len s y) := by gcongr; exact len_nonneg
  have both : ε ^ 2 ≤ (ε / l) ^ 2 * (len s x * len s y) := by
    calc ε ^ 2 = (ε / l) ^ 2 * (l * l) := by
          rw [← sq l, ← mul_pow, ← short]
      _ ≤ (ε / l) ^ 2 * (len s x * len s y) := by gcongr; exact len_nonneg
  calc ε * (len s x + len s y) + ε ^ 2
      = ε * len s x + ε * len s y + ε ^ 2 := by ring
    _ ≤ ε / l * (len s x * len s y) + ε / l * (len s x * len s y) +
          (ε / l) ^ 2 * (len s x * len s y) := add_le_add (add_le_add first second) both
    _ = len s x * len s y * ((1 + ε / l) ^ 2 - 1) := by ring

end Perturbation
