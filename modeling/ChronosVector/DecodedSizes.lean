import Mathlib.Algebra.GroupWithZero.Nat
import ChronosVector.BlockCodec

/-!
# Decoded sizes

The decoder compares its length with a size computed in 64-bit words, so a
header can announce more than the words can count.

* `announced`: the section lengths of a header, without wrap-around;
* `copies`: the places `decodeBlock` copies its sections from;
* `decoded_sizes_iff`: an accepted block is as large as announced exactly when
  the announced size is below `2 ^ 64`.
-/

namespace ChronosVector

open LittleEndian Cells

/-- The four sections, in the order of the format. -/
def DecodedBlock.sections (blk : DecodedBlock) : List (List UInt8) :=
  [blk.timestamps, blk.vectors, blk.scales, blk.payloads]

namespace DecodedBlockHeader

variable (hdr : DecodedBlockHeader)

/-- The lengths of the four sections, without wrap-around. -/
def announced : List Nat :=
  [hdr.count.toNat * 8,
    hdr.count.toNat * hdr.dim.toNat * hdr.dtype.size,
    if hdr.dtype = .int8 then hdr.count.toNat * 4 else 0,
    hdr.count.toNat * hdr.payloadSizeBytes.toNat]

/-- Header, sections and CRC. -/
def announcedSize : Nat := hdr.announced.sum + 44

/-- The offset and the length of each copy. -/
def copies : List (Nat × Nat) :=
  let ts := (tsBytes hdr.count).toNat
  let vec := (vecBytes hdr.count hdr.dim (some hdr.dtype)).toNat
  let sc := (scBytes hdr.count (some hdr.dtype)).toNat
  let pl := (plBytes hdr.count hdr.payloadSizeBytes).toNat
  [(40, ts), (40 + ts, vec), (40 + ts + vec, sc), (40 + ts + vec + sc, pl)]

@[simp] theorem extract_header (bytes : Nat → UInt8) (out : OutPointers) :
    (hdr.extract bytes out).header = hdr := rfl

/-- `copies` is where the sections come from. -/
theorem extract_copies (bytes : Nat → UInt8) :
    (hdr.extract bytes ⟨true, true, true, true⟩).sections =
      hdr.copies.map fun c => load bytes c.1 c.2 := rfl

/-- Header, copied sections and CRC. -/
def copiedSize : Nat := (hdr.copies.map Prod.snd).sum + 44

/-- The announced lengths fit the input, and the copies are as announced and stay
inside it. -/
def SizesTrue (len : UInt64) : Prop :=
  hdr.announcedSize ≤ len.toNat ∧ hdr.copies.map Prod.snd = hdr.announced ∧
    ∀ c ∈ hdr.copies, c.1 + c.2 ≤ len.toNat

/-- The decoder's size is that of its copies, up to wrap-around. -/
theorem size_toNat : hdr.size.toNat = hdr.copiedSize % 2 ^ 64 := by
  have known : dtypeSize (some hdr.dtype) ≠ 0 := by cases hdr.dtype <;> decide
  rw [size, blockSerializedSize, if_neg known]
  simp only [UInt64.toNat_add, kBlockHeaderSize, kBlockCrcSize, UInt64.reduceToNat, copiedSize,
    copies, List.map_cons, List.map_nil, List.sum_cons, List.sum_nil]
  omega

theorem dtypeSize_toNat (dtype : Dtype) : (dtypeSize (some dtype)).toNat = dtype.size := by
  cases dtype <;> rfl

variable {hdr}

/-- Below `2 ^ 64` no length wraps. -/
theorem copies_exact (small : hdr.announcedSize < 2 ^ 64) :
    hdr.copies.map Prod.snd = hdr.announced := by
  have vec := vecBytes_toNat hdr.count hdr.dim (some hdr.dtype)
  simp only [announcedSize, announced, List.sum_cons, List.sum_nil] at small
  rw [dtypeSize_toNat, Nat.mod_eq_of_lt (by omega)] at vec
  simp only [copies, announced, List.map_cons, List.map_nil, tsBytes_toNat, vec, scBytes_toNat,
    plBytes_toNat, Option.some.injEq]

theorem size_announced (small : hdr.announcedSize < 2 ^ 64) :
    hdr.size.toNat = hdr.announcedSize := by
  have total : hdr.copiedSize = hdr.announcedSize := by
    rw [copiedSize, copies_exact small, announcedSize]
  rw [size_toNat, total, Nat.mod_eq_of_lt small]

/-- Every copy ends before the CRC. -/
theorem copies_inside : ∀ c ∈ hdr.copies, c.1 + c.2 + 4 ≤ hdr.copiedSize := by
  simp only [copiedSize, copies, List.map_cons, List.map_nil, List.sum_cons, List.sum_nil,
    List.forall_mem_cons, List.not_mem_nil, false_imp_iff, implies_true, and_true]
  omega

end DecodedBlockHeader

section
variable {p : Nat → UInt8} {len : UInt64} {out : OutPointers} {blk : DecodedBlock}

/-- What an accepted input passed. -/
theorem decoded (accepted : decodeBlock (some p) len true out = .ok blk) :
    kBlockHeaderSize + kBlockCrcSize ≤ len ∧ parseHeader p = .ok (readHeader p) ∧
      (readHeader p).size ≠ 0 ∧ (readHeader p).size ≤ len ∧
      crcMatches p (readHeader p).size ∧ blk = (readHeader p).extract p out := by
  have passed : Accepted p len := by
    by_contra refused
    rw [decode_corruption_iff.mpr refused] at accepted
    cases accepted
  obtain ⟨long, hdr, parsed, size, fits, crc⟩ := passed
  rw [decode_ok long parsed size fits crc] at accepted
  cases parseHeader_ok parsed
  exact ⟨long, parsed, size, fits, crc, (Except.ok.inj accepted).symm⟩

/-- **Trusted sizes.** What the decoder accepts is as large as its header says
exactly when the announced size, with nothing wrapped, is a 64-bit number. -/
theorem decoded_sizes_iff (accepted : decodeBlock (some p) len true out = .ok blk) :
    blk.header.SizesTrue len ↔ (readHeader p).announcedSize < 2 ^ 64 := by
  obtain ⟨-, -, -, fits, -, rfl⟩ := decoded accepted
  rw [DecodedBlockHeader.extract_header]
  constructor
  · rintro ⟨announced, -⟩
    exact Nat.lt_of_le_of_lt announced len.toNat_lt
  · intro small
    have lengths := DecodedBlockHeader.copies_exact small
    have room : (readHeader p).announcedSize ≤ len.toNat := by
      rw [← DecodedBlockHeader.size_announced small]
      exact UInt64.le_iff_toNat_le.mp fits
    refine ⟨room, lengths, ?_⟩
    intro c hc
    have inside := DecodedBlockHeader.copies_inside c hc
    rw [DecodedBlockHeader.copiedSize, lengths] at inside
    exact Nat.le_trans (Nat.le_of_add_right_le inside) room

end

/-! ## Two inputs -/

/-- A header and what it covers, closed by their CRC. -/
def closed (covered : List UInt8) : List UInt8 := covered ++ putU32Le (crc32Ieee covered)

def headerOf (dim count payloadSize reserved : UInt32) (flags : UInt16) : List UInt8 :=
  putU32Le kBlockMagic ++ putU16Le kBlockVersion ++ putU16Le flags ++ putU32Le dim ++
    putU32Le count ++ putI64Le 0 ++ putI64Le 0 ++ putU32Le payloadSize ++ putU32Le reserved

/-- One INT8 row of two components. -/
def oneRow : List UInt8 :=
  closed (headerOf 2 1 0 0 kFlagIsInt8 ++ putI64Le 0 ++ [1, 2] ++ putU32Le 0)

theorem oneRow_sizes :
    (readHeader (view oneRow fun _ => 0)).SizesTrue 58 := by
  have accepted : decodeBlock (some (view oneRow fun _ => 0)) 58 true
      ⟨false, true, false, false⟩ =
        .ok ⟨⟨2, 1, 0, 0, 0, .int8⟩, [], [1, 2], [], []⟩ := by
    decide +kernel
  exact (decoded_sizes_iff accepted).mpr (by decide +kernel)

/-- `2 ^ 31` rows of `2 ^ 31 - 3` floats and 4 payload bytes: `2 ^ 64` bytes more than
the 44 there are. -/
def oversized : List UInt8 := closed (headerOf 0x7FFFFFFD 0x80000000 4 0 kFlagHasPayload)

/-- It is accepted, and its sections lie beyond it. -/
theorem oversized_accepted :
    ¬ ∀ (data : List UInt8) (beyond : Nat → UInt8) (len : UInt64) (out : OutPointers)
      (blk : DecodedBlock), data.length = len.toNat →
      decodeBlock (some (view data beyond)) len true out = .ok blk → blk.header.SizesTrue len := by
  intro h
  have accepted : decodeBlock (some (view oversized fun _ => 0)) 44 true
      ⟨false, false, false, false⟩ =
        .ok ⟨⟨0x7FFFFFFD, 0x80000000, 0, 0, 4, .float32⟩, [], [], [], []⟩ := by
    decide +kernel
  have sizes := h _ _ 44 _ _ (by decide +kernel) accepted
  exact absurd sizes.1 (by decide +kernel)

end ChronosVector
