import ChronosVector.BlockCodec
import ChronosVector.Lib.CrcRemainder

/-!
# The checksum

`crc32_ieee` goes through its message byte by byte, with a table.

* `crc32Serial`: the same checksum bit by bit;
* `crc32Ieee_serial`: the two agree, and the register is the remainder of the
  message;
* `crc32Ieee_burst_ne`: messages that differ within 32 bits in a row have
  different checksums.
-/

namespace ChronosVector

open Polynomial

/-- The bits of a message, the least significant of each byte first. -/
def messageBits (data : List UInt8) : List Bool := data.flatMap fun b => Crc.bits b.toBitVec

/-- Bit `pos` of a message. -/
def bitAt (data : List UInt8) (pos : Nat) : Bool :=
  (data.getD (pos / 8) 0).toBitVec.getLsbD (pos % 8)

/-- CRC-32/IEEE, reflected and bit by bit. -/
def crc32Serial (data : List UInt8) : UInt32 :=
  ⟨(messageBits data).foldl (Crc.feed crcPolynomial) 0xFFFFFFFF#32 ^^^ 0xFFFFFFFF#32⟩

/-- The generator of CRC-32/IEEE, 0x04C11DB7 below the highest power. -/
noncomputable def ieeePolynomial : (ZMod 2)[X] :=
  X ^ 32 + X ^ 26 + X ^ 23 + X ^ 22 + X ^ 16 + X ^ 12 + X ^ 11 + X ^ 10 + X ^ 8 + X ^ 7 + X ^ 5 +
    X ^ 4 + X ^ 2 + X + 1

/-! ## Bits -/

theorem messageBits_cons (b : UInt8) (data : List UInt8) :
    messageBits (b :: data) = Crc.bits b.toBitVec ++ messageBits data := rfl

@[simp] theorem messageBits_length (data : List UInt8) :
    (messageBits data).length = 8 * data.length := by
  induction data with
  | nil => rfl
  | cons b data ih =>
    rw [messageBits_cons, List.length_append, Crc.bits_length, ih, List.length_cons]
    omega

theorem messageBits_get (data : List UInt8) {pos : Nat} (inside : pos < 8 * data.length) :
    (messageBits data)[pos]? = some (bitAt data pos) := by
  induction data generalizing pos with
  | nil => exact absurd inside (Nat.not_lt_zero pos)
  | cons b data ih =>
    rw [messageBits_cons, bitAt]
    by_cases first : pos < 8
    · rw [List.getElem?_append_left (by rwa [Crc.bits_length]), Nat.div_eq_of_lt first,
        Nat.mod_eq_of_lt first]
      simp [Crc.bits, first]
    · obtain ⟨later, rfl⟩ := Nat.exists_eq_add_of_le (Nat.le_of_not_lt first)
      rw [List.getElem?_append_right (by rw [Crc.bits_length]; omega), Crc.bits_length,
        Nat.add_sub_cancel_left, ih (by rw [List.length_cons] at inside; omega), bitAt,
        Nat.add_div_left _ (by decide), Nat.add_mod_left, List.getD_cons_succ]

theorem messageBits_injective : Function.Injective messageBits := by
  intro a b same
  have length : a.length = b.length := by
    have lengths := congrArg List.length same
    rw [messageBits_length, messageBits_length] at lengths
    omega
  apply List.ext_getElem length
  intro i hi hi'
  apply UInt8.toBitVec_inj.mp
  apply BitVec.eq_of_getLsbD_eq
  intro j hj
  have bit : (messageBits a)[8 * i + j]? = (messageBits b)[8 * i + j]? := by rw [same]
  have byte : (8 * i + j) / 8 = i := by omega
  have place : (8 * i + j) % 8 = j := by omega
  rw [messageBits_get a (by omega), messageBits_get b (by omega), Option.some.injEq, bitAt, bitAt,
    byte, place] at bit
  simpa [hi, hi'] using bit

/-! ## The bit-serial checksum -/

/-- One look into the table is eight bits. -/
theorem crcStep_feeds (c : BitVec 32) (b : UInt8) :
    crcStep c b = (Crc.bits b.toBitVec).foldl (Crc.feed crcPolynomial) c := by
  rw [crcStep_eq, Crc.feeds_shifts _ (by simp), Crc.pack_bits, Crc.bits_length]

theorem crc_register (data : List UInt8) (c : BitVec 32) :
    data.foldl crcStep c = (messageBits data).foldl (Crc.feed crcPolynomial) c := by
  induction data generalizing c with
  | nil => rfl
  | cons b data ih =>
    rw [List.foldl_cons, ih, crcStep_feeds, messageBits_cons, List.foldl_append]

theorem generator_ieee : Crc.generator crcPolynomial = ieeePolynomial := by
  have one : Crc.coef true = 1 := rfl
  have zero : Crc.coef false = 0 := rfl
  simp [Crc.generator, Crc.toPoly, Finset.sum_range_succ, crcPolynomial, one, zero, ieeePolynomial]
  ring

/-- **The checksum.** The table computes the bit-serial CRC-32/IEEE: its register
is the remainder of the message, shifted by 32 bits, with the initial register in
front. -/
theorem crc32Ieee_serial (data : List UInt8) :
    crc32Ieee data = crc32Serial data ∧
      Crc.toPoly ((crc32Ieee data).toBitVec ^^^ 0xFFFFFFFF#32) =
        (X ^ (8 * data.length) * Crc.toPoly 0xFFFFFFFF#32 +
          X ^ 32 * Crc.message (messageBits data)) %ₘ ieeePolynomial := by
  have serial : crc32Ieee data = crc32Serial data := by
    rw [crc32Ieee, crc32Serial, crc_register]
  refine ⟨serial, ?_⟩
  have remainder := Crc.feeds_remainder crcPolynomial 0xFFFFFFFF#32 (messageBits data)
  rw [messageBits_length, generator_ieee] at remainder
  rw [← remainder, serial, crc32Serial, BitVec.xor_assoc, BitVec.xor_self, BitVec.xor_zero]

example : crc32Ieee "123456789".toUTF8.toList = 0xCBF43926 := by decide +kernel

/-! ## Bursts -/

/-- **Bursts.** Two messages of one length that differ, and only within 32 bits in
a row, have different checksums. -/
theorem crc32Ieee_burst_ne {a b : List UInt8} (length : a.length = b.length) (differ : a ≠ b)
    {start : Nat} (burst : ∀ pos, bitAt a pos ≠ bitAt b pos → start ≤ pos ∧ pos < start + 32) :
    crc32Ieee a ≠ crc32Ieee b := by
  intro same
  have registers := congrArg UInt32.toBitVec same
  simp only [crc32Ieee, BitVec.xor_left_inj, crc_register] at registers
  apply Crc.burst_ne crcPolynomial crcPolynomial_msb 0xFFFFFFFF#32 ?_ ?_ ?_ registers
  · exact start
  · rw [messageBits_length, messageBits_length, length]
  · exact fun bits => differ (messageBits_injective bits)
  · intro pos other
    apply burst
    intro bit
    apply other
    by_cases inside : pos < 8 * a.length
    · rw [messageBits_get a inside, messageBits_get b (length ▸ inside), bit]
    · rw [List.getElem?_eq_none (by simpa using inside),
        List.getElem?_eq_none (by simpa [← length] using inside)]

/-- A burst over five bytes, from bit 7 to bit 38. -/
theorem five_byte_burst_ne : crc32Ieee [0, 0, 0, 0, 0] ≠ crc32Ieee [0x80, 0, 0, 0, 0x40] := by
  have near : ∀ pos < 40, bitAt [0, 0, 0, 0, 0] pos ≠ bitAt [0x80, 0, 0, 0, 0x40] pos →
      7 ≤ pos ∧ pos < 7 + 32 := by
    decide
  have burst (pos : Nat) (other : bitAt [0, 0, 0, 0, 0] pos ≠ bitAt [0x80, 0, 0, 0, 0x40] pos) :
      7 ≤ pos ∧ pos < 7 + 32 := by
    by_cases inside : pos < 40
    · exact near pos inside other
    · have past : 5 ≤ pos / 8 := by omega
      have none (a b c d e : UInt8) : [a, b, c, d, e].getD (pos / 8) 0 = 0 := by
        rw [List.getD_eq_getElem?_getD, List.getElem?_eq_none past, Option.getD_none]
      exact absurd (by rw [bitAt, bitAt, none, none]) other
  have length : [(0 : UInt8), 0, 0, 0, 0].length = [(0x80 : UInt8), 0, 0, 0, 0x40].length := rfl
  exact crc32Ieee_burst_ne length (by decide) burst

end ChronosVector
