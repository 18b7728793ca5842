import Mathlib.Algebra.Group.Nat.Defs

/-!
# Little-endian numbers

A number as its lowest `w` bytes, least significant first. Encoding reduces
modulo `256 ^ w`; decoding is injective on byte strings of one length. `field`
reads a number at an offset of a longer byte string.
-/

namespace LittleEndian

/-- The lowest `w` bytes of `v`. -/
def encode : Nat → Nat → List UInt8
  | 0, _ => []
  | w + 1, v => UInt8.ofNat v :: encode w (v / 256)

def decode : List UInt8 → Nat
  | [] => 0
  | b :: rest => b.toNat + 256 * decode rest

@[simp] theorem encode_length (w v : Nat) : (encode w v).length = w := by
  induction w generalizing v with
  | zero => rfl
  | succ w ih => simp [encode, ih]

theorem decode_encode_mod (w v : Nat) : decode (encode w v) = v % 256 ^ w := by
  induction w generalizing v with
  | zero => simp [encode, decode, Nat.mod_one]
  | succ w ih =>
    simp only [encode, decode, ih, UInt8.toNat_ofNat']
    rw [show 256 ^ (w + 1) = 256 * 256 ^ w from Nat.pow_succ', Nat.mod_mul]

@[simp] theorem decode_encode {w v : Nat} (h : v < 256 ^ w) : decode (encode w v) = v := by
  rw [decode_encode_mod, Nat.mod_eq_of_lt h]

theorem decode_lt (l : List UInt8) : decode l < 256 ^ l.length := by
  induction l with
  | nil => simp [decode]
  | cons b rest ih =>
    have hb := b.toNat_lt
    simp only [decode, List.length_cons, Nat.pow_succ]
    omega

@[simp] theorem encode_decode (l : List UInt8) : encode l.length (decode l) = l := by
  induction l with
  | nil => rfl
  | cons b rest ih =>
    have hb := b.toNat_lt
    have hdiv : (b.toNat + 256 * decode rest) / 256 = decode rest := by omega
    have hmod : UInt8.ofNat (b.toNat + 256 * decode rest) = b := by
      apply UInt8.toNat_inj.mp
      rw [UInt8.toNat_ofNat']
      omega
    simp only [decode, List.length_cons, encode, hdiv, hmod, ih]

theorem decode_inj {l l' : List UInt8} (hl : l.length = l'.length) (h : decode l = decode l') :
    l = l' := by
  rw [← encode_decode l, ← encode_decode l', hl, h]

/-! ## Fields of a byte string -/

/-- The number in `n` bytes at `off`. -/
def field (data : List UInt8) (off n : Nat) : Nat := decode ((data.drop off).take n)

variable {post data data' : List UInt8} {off n v : Nat} {b : UInt8}

theorem field_skip (pre : List UInt8) (h : pre.length ≤ off) :
    field (pre ++ post) off n = field post (off - pre.length) n := by
  simp only [field, List.drop_append, List.drop_eq_nil_of_le h, List.nil_append]

theorem field_cons (h : 0 < off) : field (b :: post) off n = field post (off - 1) n :=
  field_skip [b] h

theorem field_here (h : v < 256 ^ n) : field (encode n v ++ post) 0 n = v := by
  simp only [field, List.drop_zero]
  rw [List.take_append_of_le_length (by simp), List.take_of_length_le (by simp), decode_encode h]

end LittleEndian
