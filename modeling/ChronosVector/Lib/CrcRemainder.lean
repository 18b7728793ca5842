import Mathlib.Algebra.CharP.Two
import Mathlib.Algebra.Field.ZMod
import Mathlib.Algebra.Polynomial.Div
import Mathlib.Algebra.Polynomial.Monic
import Mathlib.Data.ZMod.Basic
import Mathlib.RingTheory.Polynomial.Basic
import Mathlib.Tactic.LinearCombination
import ChronosVector.Lib.Crc

/-!
# Reflected CRC registers as remainders

A register of `w` bits is a polynomial over the field of two elements, its lowest
bit the coefficient of the highest power.

* `toPoly`, `generator`: registers, and the polynomial they are reduced by;
* `feed_dvd`: one message bit multiplies by `X` and reduces;
* `feeds_remainder`: a message leaves its remainder.
-/

namespace Crc

open Polynomial Finset

/-- A bit as a coefficient. -/
def coef (b : Bool) : ZMod 2 := if b then 1 else 0

/-- A register. -/
noncomputable def toPoly {w : Nat} (c : BitVec w) : (ZMod 2)[X] :=
  ∑ i ∈ range w, C (coef (c.getLsbD i)) * X ^ (w - 1 - i)

/-- A message, its first bit at the highest power. -/
noncomputable def message : List Bool → (ZMod 2)[X]
  | [] => 0
  | b :: l => C (coef b) * X ^ l.length + message l

/-- The generator: the power that falls out, and what it is replaced by. -/
noncomputable def generator {w : Nat} (poly : BitVec w) : (ZMod 2)[X] := X ^ w + toPoly poly

theorem coef_xor (a b : Bool) : coef (a ^^ b) = coef a + coef b := by
  cases a <;> cases b <;> decide

variable {w : Nat} (poly c : BitVec w)

theorem toPoly_xor (a b : BitVec w) : toPoly (a ^^^ b) = toPoly a + toPoly b := by
  simp only [toPoly, BitVec.getLsbD_xor, coef_xor, C_add, add_mul, sum_add_distrib]

theorem toPoly_degree : degree (toPoly c) < w := by
  rw [← mem_degreeLT]
  apply Submodule.sum_mem
  intro i hi
  rw [mem_degreeLT]
  have inside : w - 1 - i < w := by
    have := mem_range.mp hi
    omega
  exact (degree_C_mul_X_pow_le _ _).trans_lt (by exact_mod_cast inside)

theorem generator_monic : (generator poly).Monic := monic_X_pow_add (toPoly_degree poly)

theorem generator_degree : degree (generator poly) = w := by
  rw [generator, degree_add_eq_left_of_degree_lt]
  · exact degree_X_pow w
  · rw [degree_X_pow]
    exact toPoly_degree poly

/-- Moving down is multiplying by `X`, for all bits but the lowest. -/
theorem X_mul_toPoly :
    X * toPoly c = C (coef (c.getLsbD 0)) * X ^ w + toPoly (c >>> 1) := by
  cases w with
  | zero => simp [toPoly, BitVec.eq_nil c, coef]
  | succ n =>
    have last : (c >>> 1).getLsbD n = false := by
      rw [BitVec.getLsbD_ushiftRight]
      exact BitVec.getLsbD_of_ge c _ (by omega)
    rw [toPoly, sum_range_succ', mul_add, mul_sum, toPoly, sum_range_succ, last, add_comm]
    congr 1
    · rw [Nat.add_sub_cancel, Nat.sub_zero, pow_succ]
      ring
    · have zero : coef false = 0 := rfl
      rw [zero, C_0, zero_mul, add_zero]
      apply sum_congr rfl
      intro i hi
      have power : n + 1 - 1 - i = n + 1 - 1 - (i + 1) + 1 := by
        have := mem_range.mp hi
        omega
      rw [BitVec.getLsbD_ushiftRight, Nat.add_comm 1 i, power, pow_succ]
      ring

theorem toPoly_feed (b : Bool) :
    toPoly (feed poly c b) = C (coef (c.getLsbD 0 ^^ b)) * toPoly poly + toPoly (c >>> 1) := by
  rw [feed]
  cases c.getLsbD 0 <;> cases b <;> simp [toPoly_xor, coef]

/-- **One bit.** -/
theorem feed_dvd (b : Bool) :
    generator poly ∣ X * toPoly c + C (coef b) * X ^ w - toPoly (feed poly c b) := by
  apply Dvd.intro_left (C (coef (c.getLsbD 0 ^^ b)))
  rw [generator, X_mul_toPoly, toPoly_feed, coef_xor, C_add, CharTwo.sub_eq_add]
  have twice (p : (ZMod 2)[X]) : p + p = 0 := CharTwo.add_self_eq_zero p
  linear_combination -twice (toPoly (c >>> 1))

/-- **A message.** -/
theorem feeds_dvd (l : List Bool) :
    generator poly ∣ X ^ l.length * toPoly c + X ^ w * message l - toPoly (l.foldl (feed poly) c) := by
  induction l generalizing c with
  | nil => simp [message]
  | cons b l ih =>
    have first := (feed_dvd poly c b).mul_left (X ^ l.length)
    have both := dvd_add first (ih (feed poly c b))
    rw [List.foldl_cons, List.length_cons, message]
    refine both.trans (dvd_of_eq ?_)
    ring

/-- **The remainder.** The register after a message is the remainder of the
message and of what the register held before it. -/
theorem feeds_remainder (l : List Bool) :
    toPoly (l.foldl (feed poly) c) =
      (X ^ l.length * toPoly c + X ^ w * message l) %ₘ generator poly := by
  have small : degree (toPoly (l.foldl (feed poly) c)) < degree (generator poly) := by
    rw [generator_degree]
    exact toPoly_degree _
  rw [modByMonic_eq_of_dvd_sub (generator_monic poly) (feeds_dvd poly c l)]
  exact ((modByMonic_eq_self_iff (generator_monic poly)).mpr small).symm

end Crc
