import ChronosVector.BlockCodec

/-!
# Bit flips

One bit of a serialized block is inverted, and the bytes decoded at the same
length.

* `flip_caught_iff`: when the decoder reports it;
* `flip_unseen`: a block and a bit for which it does not.

While the length is read as it was written, the CRC sees every flip. A flip in
the fields that make up the length moves the CRC, and bytes behind a block are
allowed: the error stays unseen when the block now ends in front of four bytes
that happen to be the CRC of what remains.
-/

namespace ChronosVector

open LittleEndian Cells

def flipBit (data : List UInt8) (pos : Nat) : List UInt8 :=
  data.modify (pos / 8) fun b => b ^^^ (1 <<< UInt8.ofNat (pos % 8))

/-- The bits the length depends on: the INT8 flag, `dim`, `count` and
`payload_size_bytes`. -/
def LengthBit (pos : Nat) : Prop :=
  pos = 49 ∨ (64 ≤ pos ∧ pos < 128) ∨ (256 ≤ pos ∧ pos < 288)

/-- The bytes start with a shorter block, its CRC included. -/
def ShorterBlock (p : Nat → UInt8) (len : UInt64) : Prop :=
  ∃ hdr, parseHeader p = .ok hdr ∧ hdr.size ≠ 0 ∧ hdr.size < len ∧ crcMatches p hdr.size

/-! ## The CRC -/

theorem mask_ne_zero : ∀ k, k < 8 → (1 : UInt8) <<< UInt8.ofNat k ≠ 0 := by decide

theorem flip_ne (b : UInt8) (pos : Nat) : b ^^^ (1 <<< UInt8.ofNat (pos % 8)) ≠ b := by
  intro h
  apply mask_ne_zero (pos % 8) (Nat.mod_lt _ (by decide))
  calc (1 : UInt8) <<< UInt8.ofNat (pos % 8)
      = b ^^^ (b ^^^ (1 <<< UInt8.ofNat (pos % 8))) := by
        rw [← UInt8.xor_assoc, UInt8.xor_self, UInt8.zero_xor]
    _ = 0 := by rw [h, UInt8.xor_self]

@[simp] theorem flipBit_length (data : List UInt8) (pos : Nat) :
    (flipBit data pos).length = data.length := by
  simp [flipBit]

theorem modify_ne {data : List UInt8} {i : Nat} {g : UInt8 → UInt8} (hg : ∀ b, g b ≠ b)
    (hi : i < data.length) : data.modify i g ≠ data := by
  intro same
  have byte : g data[i] = data[i] := by
    rw [← List.getElem_modify_eq g i data (by simpa using hi)]
    simp only [same]
  exact hg _ byte

/-- Both the covered bytes and the CRC itself. -/
theorem crc_sees {body : List UInt8} {pos : Nat} {expected : UInt64} (beyond : Nat → UInt8)
    (hpos : pos < 8 * (body.length + 4)) (hexp : expected.toNat = body.length + 4) :
    crcMatches (view (flipBit (body ++ putU32Le (crc32Ieee body)) pos) beyond) expected =
      false := by
  have four : (putU32Le (crc32Ieee body)).length = 4 := encode_length _ _
  have length : (flipBit (body ++ putU32Le (crc32Ieee body)) pos).length = body.length + 4 := by
    rw [flipBit_length, List.length_append, four]
  have bodyBytes : (expected - kBlockCrcSize).toNat = body.length := by
    rw [UInt64.toNat_sub_of_le, hexp]
    · rfl
    · rw [UInt64.le_iff_toNat_le, hexp]
      exact Nat.le_add_left _ _
  apply beq_eq_false_iff_ne.mpr
  rw [bodyBytes, getU32Le, load_view _ (by omega), load_view _ (by omega), List.drop_zero,
    List.take_of_length_le (by rw [List.length_drop]; omega), flipBit, List.take_modify,
    List.take_left]
  intro same
  by_cases covered : pos / 8 < body.length
  · -- the stored CRC is the old one
    rw [List.drop_modify_of_lt _ _ _ _ covered, List.drop_left, decode_putU32Le] at same
    exact crc32Ieee_modify_ne covered (flip_ne _ pos) same.symm
  · -- the computed CRC is the old one
    have after : body.length ≤ pos / 8 := Nat.le_of_not_lt covered
    have inside : pos / 8 - body.length < (putU32Le (crc32Ieee body)).length := by
      rw [four]
      omega
    rw [List.modify_eq_self after, List.drop_modify_of_ge _ _ _ _ after, List.drop_left] at same
    apply modify_ne (flip_ne · pos) inside
    apply decode_u32_inj (by rw [List.length_modify, four]) four
    rw [same, decode_putU32Le]

/-! ## The length -/

variable {data : List UInt8} {pos : Nat} {beyond : Nat → UInt8}

theorem view_flip {i : Nat} (h : i ≠ pos / 8) :
    view (flipBit data pos) beyond i = view data beyond i := by
  simp only [view, flipBit, List.getD_eq_getElem?_getD, List.getElem?_modify_ne _ _ h.symm]

theorem getU32Le_flip {off : Nat} (h : pos < 8 * off ∨ 8 * off + 32 ≤ pos) :
    getU32Le (view (flipBit data pos) beyond) off = getU32Le (view data beyond) off := by
  have same : load (view (flipBit data pos) beyond) off 4 = load (view data beyond) off 4 := by
    apply load_congr
    intro i hi
    exact view_flip (by omega)
  rw [getU32Le, getU32Le, same]

theorem mask_low : ∀ k, k < 8 → k ≠ 1 → (1 : UInt8) <<< UInt8.ofNat k &&& 2 = 0 := by decide

/-- The low byte decides the flag. -/
theorem flag_byte (p : Nat → UInt8) :
    getU16Le p 6 &&& kFlagIsInt8 = (p 6 &&& 2).toUInt16 := by
  apply UInt16.toNat_inj.mp
  simp only [getU16Le, load, List.range_succ, List.range_zero, List.nil_append,
    List.cons_append, List.map_cons, List.map_nil, decode, kFlagIsInt8, UInt16.toNat_and,
    UInt16.toNat_ofNat', UInt8.toNat_toUInt16, UInt8.toNat_and]
  apply Nat.eq_of_testBit_eq
  intro i
  rw [Nat.testBit_and, Nat.testBit_and]
  by_cases h : i = 1
  · have low (b c : Nat) : ((b + 256 * c) % 2 ^ 16).testBit 1 = b.testBit 1 := by
      simp only [Nat.testBit_eq_decide_div_mod_eq]
      congr 1
      apply propext
      omega
    rw [h]
    exact congrArg (· && Nat.testBit 2 1) (low _ _)
  · have two : (2 : Nat).testBit i = false := Nat.testBit_two_pow_of_ne (fun eq => h eq.symm)
    simp [two]

theorem isInt8_flip (h : pos ≠ 49) :
    getU16Le (view (flipBit data pos) beyond) 6 &&& kFlagIsInt8 =
      getU16Le (view data beyond) 6 &&& kFlagIsInt8 := by
  rw [flag_byte, flag_byte]
  congr 1
  by_cases here : 6 = pos / 8
  · have other := mask_low (pos % 8) (Nat.mod_lt _ (by decide)) (by omega)
    rw [view, view, flipBit, List.getD_eq_getElem?_getD, List.getD_eq_getElem?_getD, ← here,
      List.getElem?_modify_eq]
    cases byte : data[6]? with
    | none => rfl
    | some b =>
      apply UInt8.toNat_inj.mp
      have masked := congrArg UInt8.toNat other
      rw [UInt8.toNat_and] at masked
      change ((b ^^^ _) &&& 2).toNat = (b &&& 2).toNat
      rw [UInt8.toNat_and, UInt8.toNat_xor, Nat.and_xor_distrib_right, masked]
      simp
  · rw [view_flip here]

theorem size_flip (h : ¬ LengthBit pos) :
    (readHeader (view (flipBit data pos) beyond)).size = (readHeader (view data beyond)).size := by
  have bits : pos ≠ 49 ∧ ¬ (64 ≤ pos ∧ pos < 128) ∧ ¬ (256 ≤ pos ∧ pos < 288) := by
    simpa only [LengthBit, not_or] using h
  obtain ⟨int8, shape, payload⟩ := bits
  have dim : getU32Le (view (flipBit data pos) beyond) 8 = getU32Le (view data beyond) 8 :=
    getU32Le_flip (by omega)
  have count : getU32Le (view (flipBit data pos) beyond) 12 = getU32Le (view data beyond) 12 :=
    getU32Le_flip (by omega)
  have payloadSz : getU32Le (view (flipBit data pos) beyond) 32 = getU32Le (view data beyond) 32 :=
    getU32Le_flip (by omega)
  simp only [readHeader, DecodedBlockHeader.size, isInt8_flip int8, dim, count, payloadSz]

/-! ## Serialized blocks -/

variable {blk : RawBlock}

theorem size_serialized (accepted : serializeBlock true blk ≠ [])
    (small : blk.exactSize < 2 ^ 64) :
    (readHeader (view (serializeBlock true blk) beyond)).size.toNat = blk.exactSize := by
  obtain ⟨valid, written⟩ := serialized accepted
  obtain ⟨dtype, known⟩ : ∃ dtype, blk.dtype = some dtype := by
    cases h : blk.dtype with
    | some dtype => exact ⟨dtype, rfl⟩
    | none => exact absurd (by rw [h]; rfl) valid.2.1
  have split : serializeBlock true blk = blk.header ++ (serializeBlock true blk).drop 40 := by
    conv => lhs; rw [← List.take_append_drop 40 (serializeBlock true blk)]
    congr 1
    simp only [written, RawBlock.body, List.append_assoc]
    rw [← blk.header_length, List.take_left]
  rw [split, readHeader_header known, ← size_exact valid small, known]
  rfl

/-- **Single-bit errors.** The error is reported unless the bit changes the
length and the block now ends at a CRC of its own. -/
theorem flip_caught_iff {out : OutPointers} (accepted : serializeBlock true blk ≠ [])
    (small : blk.exactSize < 2 ^ 64) (hpos : pos < 8 * (serializeBlock true blk).length) :
    decodeBlock (some (view (flipBit (serializeBlock true blk) pos) beyond))
        (UInt64.ofNat (serializeBlock true blk).length) true out = .error .corruption ↔
      ¬ (LengthBit pos ∧
        ShorterBlock (view (flipBit (serializeBlock true blk) pos) beyond)
          (UInt64.ofNat (serializeBlock true blk).length)) := by
  have length := serialized_length accepted small
  have len : (UInt64.ofNat (serializeBlock true blk).length).toNat = blk.exactSize := by
    rw [length]
    exact UInt64.toNat_ofNat_of_lt' small
  rw [decode_corruption_iff, not_iff_not]
  constructor
  · rintro ⟨-, hdr, parsed, size, fits, crc⟩
    have shorter : hdr.size < UInt64.ofNat (serializeBlock true blk).length := by
      apply UInt64.lt_of_le_of_ne fits
      intro same
      obtain ⟨valid, written⟩ := serialized accepted
      rw [written, List.length_append, putU32Le_length] at hpos
      have total : blk.exactSize = blk.body.length + 4 := by
        rw [← length, written, List.length_append, putU32Le_length]
      rw [written, crc_sees beyond hpos (by rw [same, len, total])] at crc
      cases crc
    constructor
    · by_contra other
      rw [parseHeader_ok parsed, UInt64.lt_iff_toNat_lt, size_flip other,
        size_serialized accepted small, len] at shorter
      exact Nat.lt_irrefl _ shorter
    · exact ⟨hdr, parsed, size, shorter, crc⟩
  · rintro ⟨-, hdr, parsed, size, shorter, crc⟩
    constructor
    · rw [UInt64.le_iff_toNat_le, len]
      exact blk.le_exactSize
    · exact ⟨hdr, parsed, size, UInt64.le_of_lt shorter, crc⟩

/-! ## A forged end -/

/-- A block of one row whose timestamp ends in the CRC of the header of an
empty block. -/
def forgedBlock : RawBlock where
  tStartMs := 1717902812018
  tEndMs := 1717902812018
  count := 1
  dim := 1
  payloadSizeBytes := 0
  dtype := some .float32
  timestamps := some (view (putI64Le 1717902812018) fun _ => 0)
  vectors := some fun _ => 0
  scales := none
  payloads := none

/-- What is left when its count becomes zero. -/
def forgedHeader : DecodedBlockHeader where
  dim := 1
  count := 0
  tStartMs := 1717902812018
  tEndMs := 1717902812018
  payloadSizeBytes := 0
  dtype := .float32

def allPointers : OutPointers := ⟨true, true, true, true⟩

/-- The lowest bit of `count` is flipped, and the block is read as empty. -/
theorem flip_unseen :
    serializeBlock true forgedBlock ≠ [] ∧ forgedBlock.exactSize < 2 ^ 64 ∧
      96 < 8 * (serializeBlock true forgedBlock).length ∧
      decodeBlock (some (view (flipBit (serializeBlock true forgedBlock) 96) fun _ => 0))
          (UInt64.ofNat (serializeBlock true forgedBlock).length) true allPointers =
        .ok ⟨forgedHeader, [], [], [], []⟩ := by
  decide +kernel

/-- A flip in its timestamp is reported. -/
theorem forged_timestamp_flip_caught :
    decodeBlock (some (view (flipBit (serializeBlock true forgedBlock) 320) fun _ => 0))
        (UInt64.ofNat (serializeBlock true forgedBlock).length) true allPointers =
      .error .corruption :=
  (flip_caught_iff (by decide +kernel) (by decide +kernel) (by decide +kernel)).mpr fun h =>
    absurd h.1 (by unfold LengthBit; omega)

end ChronosVector
