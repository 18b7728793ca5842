import Mathlib.Data.List.Lex
import Mathlib.Order.Lattice
import ChronosVector.Lib.LittleEndian

/-!
# Byte strings in unsigned order

Bytes as a linear order, and big-endian numbers: on strings of one width the
lexicographic order is the order of the numbers.
-/

instance instLinearOrderByte : LinearOrder UInt8 where
  le_refl := UInt8.le_refl
  le_trans _ _ _ := UInt8.le_trans
  lt_iff_le_not_ge a b := by
    rw [UInt8.lt_iff_toNat_lt, UInt8.le_iff_toNat_le, UInt8.le_iff_toNat_le]
    omega
  le_antisymm _ _ := UInt8.le_antisymm
  le_total := UInt8.le_total
  toDecidableLE := inferInstance

namespace BigEndian

/-- The lowest `w` bytes of `v`, most significant first. -/
def encode (w v : Nat) : List UInt8 := (LittleEndian.encode w v).reverse

def decode (l : List UInt8) : Nat := LittleEndian.decode l.reverse

@[simp] theorem encode_length (w v : Nat) : (encode w v).length = w := by simp [encode]

@[simp] theorem decode_encode {w v : Nat} (h : v < 256 ^ w) : decode (encode w v) = v := by
  rw [decode, encode, List.reverse_reverse, LittleEndian.decode_encode h]

theorem encode_succ (w v : Nat) : encode (w + 1) v = encode w (v / 256) ++ [UInt8.ofNat v] := by
  simp [encode, LittleEndian.encode]

/-- The last symbol decides between strings that agree before it. -/
theorem append_singleton_lt {α : Type} [LinearOrder α] {x y : List α} {a b : α}
    (hl : x.length = y.length) : x ++ [a] < y ++ [b] ↔ x < y ∨ (x = y ∧ a < b) := by
  induction x generalizing y with
  | nil =>
    cases y with
    | nil =>
      rw [List.nil_append, List.nil_append, List.cons_lt_cons_iff]
      simp only [List.not_lt_nil, and_false, or_false, false_or, true_and]
    | cons d y => cases hl
  | cons c x ih =>
    cases y with
    | nil => cases hl
    | cons d y =>
      rw [List.cons_append, List.cons_append, List.cons_lt_cons_iff, List.cons_lt_cons_iff,
        ih (Nat.succ.inj hl), List.cons.injEq]
      constructor
      · rintro (less | ⟨rfl, less | ⟨rfl, less⟩⟩)
        · exact .inl (.inl less)
        · exact .inl (.inr ⟨rfl, less⟩)
        · exact .inr ⟨⟨rfl, rfl⟩, less⟩
      · rintro ((less | ⟨rfl, less⟩) | ⟨⟨rfl, rfl⟩, less⟩)
        · exact .inl less
        · exact .inr ⟨rfl, .inl less⟩
        · exact .inr ⟨rfl, .inr ⟨rfl, less⟩⟩

/-- **Order.** Big-endian strings compare as their numbers. -/
theorem encode_lt_encode {w u v : Nat} (hu : u < 256 ^ w) (hv : v < 256 ^ w) :
    encode w u < encode w v ↔ u < v := by
  induction w generalizing u v with
  | zero =>
    rw [Nat.pow_zero, Nat.lt_one_iff] at hu hv
    simp [hu, hv]
  | succ w ih =>
    rw [Nat.pow_succ] at hu hv
    have hu' : u / 256 < 256 ^ w := Nat.div_lt_of_lt_mul (by omega)
    have hv' : v / 256 < 256 ^ w := Nat.div_lt_of_lt_mul (by omega)
    have inj : encode w (u / 256) = encode w (v / 256) ↔ u / 256 = v / 256 := by
      constructor
      · intro h
        rw [← decode_encode hu', h, decode_encode hv']
      · intro h
        rw [h]
    rw [encode_succ, encode_succ, append_singleton_lt (by simp), ih hu' hv', inj,
      UInt8.lt_iff_toNat_lt, UInt8.toNat_ofNat', UInt8.toNat_ofNat']
    omega

end BigEndian
