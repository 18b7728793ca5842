import Mathlib.Data.Nat.Bitwise
import Mathlib.Algebra.Order.Ring.Nat

/-!
# Powers of two in words

Words of `w` bits as the naturals below `2 ^ w`. Masking with the complement of
`2 ^ k - 1` rounds down to a multiple of `2 ^ k`, and a power of two that does not
fit a word wraps to zero.
-/

namespace PowersOfTwo

variable {x k w : Nat}

/-- The bits from `k` on, as the mask that keeps them. -/
theorem high_mask (hk : k ≤ w) : 2 ^ w - 2 ^ k = (2 ^ (w - k) - 1) * 2 ^ k := by
  rw [Nat.sub_mul, ← Nat.pow_add, Nat.sub_add_cancel hk, Nat.one_mul]

theorem and_high (hx : x < 2 ^ w) (hk : k ≤ w) : x &&& (2 ^ w - 2 ^ k) = x / 2 ^ k * 2 ^ k := by
  apply Nat.eq_of_testBit_eq
  intro i
  rw [high_mask hk, Nat.testBit_and, Nat.testBit_mul_two_pow, Nat.testBit_mul_two_pow,
    Nat.testBit_two_pow_sub_one, Nat.testBit_div_two_pow]
  by_cases kept : k ≤ i
  · rw [Nat.sub_add_cancel kept]
    by_cases inside : i < w
    · have below : i - k < w - k := by omega
      simp [kept, below]
    · have beyond : x.testBit i = false :=
        Nat.testBit_lt_two_pow (hx.trans_le (Nat.pow_le_pow_right (by decide) (by omega)))
      simp [beyond]
  · simp [kept]

theorem wrapped (k w : Nat) : 2 ^ k % 2 ^ w = if k < w then 2 ^ k else 0 := by
  split
  · exact Nat.mod_eq_of_lt (Nat.pow_lt_pow_right (by decide) ‹_›)
  · exact Nat.mod_eq_zero_of_dvd (Nat.pow_dvd_pow 2 (by omega))

/-- A wrapped power of two that is not zero did not wrap. -/
theorem exact_of_ne_zero (h : 2 ^ k % 2 ^ w ≠ 0) : 2 ^ k % 2 ^ w = 2 ^ k := by
  rw [wrapped] at h ⊢
  split
  · rfl
  · rename_i beyond
    exact absurd (if_neg beyond) h

end PowersOfTwo
