import ChronosVector.Types
import ChronosVector.Lib.Cells
import ChronosVector.Lib.Crc
import ChronosVector.Lib.LittleEndian

/-!
# The block codec

`block_codec.cpp`: the bytes of a persisted block.

* `crc32Ieee`, by table;
* `blockSerializedSize`, in the 64-bit arithmetic of the code, which wraps;
* `RawBlock`: `Block` with its sections as bytes behind pointers;
* `serializeBlock` and `decodeBlock`.

A decoder that trusts a wrapped size reads outside its input, so its input is a
memory and a length, not a byte string.

* `crc32Ieee_modify_ne`: a changed byte changes the CRC;
* `serialized_length`: below `2 ^ 64` the size is the number of bytes written;
* `decode_corruption_iff`: what the decoder rejects.
-/

namespace ChronosVector

open LittleEndian Cells

def kBlockMagic : UInt32 := 0x30425643
def kBlockVersion : UInt16 := 1
def kBlockHeaderSize : UInt64 := 40
def kBlockCrcSize : UInt64 := 4
def kFlagHasPayload : UInt16 := 1
def kFlagIsInt8 : UInt16 := 2

/-! ## Little-endian helpers -/

def getU16Le (p : Nat → UInt8) (off : Nat) : UInt16 := UInt16.ofNat (decode (load p off 2))

def getU32Le (p : Nat → UInt8) (off : Nat) : UInt32 := UInt32.ofNat (decode (load p off 4))

def getI64Le (p : Nat → UInt8) (off : Nat) : Int64 :=
  (UInt64.ofNat (decode (load p off 8))).toInt64

def putU16Le (v : UInt16) : List UInt8 := encode 2 v.toNat

def putU32Le (v : UInt32) : List UInt8 := encode 4 v.toNat

def putI64Le (v : Int64) : List UInt8 := encode 8 v.toUInt64.toNat

@[simp] theorem putU32Le_length (v : UInt32) : (putU32Le v).length = 4 := encode_length 4 v.toNat

theorem decode_putU32Le (v : UInt32) : UInt32.ofNat (decode (putU32Le v)) = v := by
  rw [putU32Le, decode_encode v.toNat_lt, UInt32.ofNat_toNat]

theorem decode_u32_inj {l l' : List UInt8} (hl : l.length = 4) (hl' : l'.length = 4)
    (h : UInt32.ofNat (decode l) = UInt32.ofNat (decode l')) : l = l' := by
  have small := decode_lt l
  have small' := decode_lt l'
  rw [hl] at small
  rw [hl'] at small'
  apply decode_inj (hl.trans hl'.symm)
  have numbers := congrArg UInt32.toNat h
  rwa [UInt32.toNat_ofNat_of_lt' small, UInt32.toNat_ofNat_of_lt' small'] at numbers

/-! ## CRC32/IEEE -/

def crcPolynomial : BitVec 32 := 0xEDB88320#32

/-- `Crc32Table`, as the function of its index. -/
def kCrcTable (i : BitVec 32) : BitVec 32 := Crc.shifts crcPolynomial 8 i

/-- The body of the loop of `crc32_ieee`. -/
def crcStep (c : BitVec 32) (b : UInt8) : BitVec 32 :=
  kCrcTable ((c ^^^ b.toBitVec.setWidth 32) &&& 0xFF#32) ^^^ (c >>> 8)

def crc32Ieee (data : List UInt8) : UInt32 :=
  ⟨data.foldl crcStep 0xFFFFFFFF#32 ^^^ 0xFFFFFFFF#32⟩

/-- A step of the loop is eight shifts. -/
theorem crcStep_eq (c : BitVec 32) (b : UInt8) :
    crcStep c b = Crc.shifts crcPolynomial 8 (c ^^^ b.toBitVec.setWidth 32) := by
  have rest : (c ^^^ b.toBitVec.setWidth 32) >>> 8 = c >>> 8 := by
    apply BitVec.eq_of_toNat_eq
    have := b.toNat_lt
    rw [BitVec.ushiftRight_xor_distrib, BitVec.toNat_xor, BitVec.toNat_ushiftRight _ 8,
      BitVec.toNat_ushiftRight _ 8, Nat.shiftRight_eq_div_pow (b.toBitVec.setWidth 32).toNat]
    simp [Nat.div_eq_of_lt, this]
  rw [Crc.shifts_table, rest]
  rfl

theorem crcPolynomial_msb : crcPolynomial.msb = true := by decide

theorem crcStep_injective (b : UInt8) : Function.Injective fun c => crcStep c b := by
  intro c c' h
  simp only [crcStep_eq] at h
  simpa using Crc.shifts_injective crcPolynomial crcPolynomial_msb 8 h

theorem crcStep_byte_injective (c : BitVec 32) : Function.Injective (crcStep c) := by
  intro b b' h
  simp only [crcStep_eq] at h
  have wide : b.toBitVec.setWidth 32 = b'.toBitVec.setWidth 32 := by
    simpa using Crc.shifts_injective crcPolynomial crcPolynomial_msb 8 h
  have numbers : b.toNat % 2 ^ 32 = b'.toNat % 2 ^ 32 := by
    simpa only [BitVec.toNat_setWidth, UInt8.toNat_toBitVec] using congrArg BitVec.toNat wide
  have := b.toNat_lt
  have := b'.toNat_lt
  apply UInt8.toNat_inj.mp
  omega

/-- **A changed byte** changes the CRC. -/
theorem crc32Ieee_modify_ne {data : List UInt8} {i : Nat} {g : UInt8 → UInt8}
    (hi : i < data.length) (hg : g data[i] ≠ data[i]) :
    crc32Ieee (data.modify i g) ≠ crc32Ieee data := by
  intro h
  have registers := congrArg UInt32.toBitVec h
  apply Crc.fold_modify_ne crcStep_injective crcStep_byte_injective 0xFFFFFFFF#32 hi hg
  simpa [crc32Ieee] using registers

/-! ## Sizes -/

/-- `dtype_size`; `none` is a value that is no enumerator. -/
def dtypeSize : Option Dtype → UInt64
  | some dtype => UInt64.ofNat dtype.size
  | none => 0

def tsBytes (count : UInt32) : UInt64 := count.toUInt64 * 8

def vecBytes (count dim : UInt32) (dtype : Option Dtype) : UInt64 :=
  count.toUInt64 * dim.toUInt64 * dtypeSize dtype

def scBytes (count : UInt32) (dtype : Option Dtype) : UInt64 :=
  if dtype = some .int8 then count.toUInt64 * 4 else 0

def plBytes (count payloadSizeBytes : UInt32) : UInt64 :=
  if 0 < payloadSizeBytes then count.toUInt64 * payloadSizeBytes.toUInt64 else 0

def blockSerializedSize (count dim payloadSizeBytes : UInt32) (dtype : Option Dtype) : UInt64 :=
  if dtypeSize dtype = 0 then 0
  else
    kBlockHeaderSize + tsBytes count + vecBytes count dim dtype + scBytes count dtype +
      plBytes count payloadSizeBytes + kBlockCrcSize

section
variable (count dim payloadSizeBytes : UInt32) (dtype : Option Dtype)

theorem tsBytes_toNat : (tsBytes count).toNat = count.toNat * 8 := by
  have := count.toNat_lt
  rw [tsBytes, UInt64.toNat_mul, UInt32.toNat_toUInt64]
  exact Nat.mod_eq_of_lt (by simp; omega)

theorem scBytes_toNat :
    (scBytes count dtype).toNat = if dtype = some .int8 then count.toNat * 4 else 0 := by
  have := count.toNat_lt
  unfold scBytes
  split
  · rw [UInt64.toNat_mul, UInt32.toNat_toUInt64]
    exact Nat.mod_eq_of_lt (by simp; omega)
  · rfl

theorem mul_lt_wide : count.toNat * dim.toNat < 2 ^ 64 :=
  calc count.toNat * dim.toNat < 2 ^ 32 * 2 ^ 32 := Nat.mul_lt_mul'' count.toNat_lt dim.toNat_lt
    _ = 2 ^ 64 := by decide

theorem plBytes_toNat :
    (plBytes count payloadSizeBytes).toNat = count.toNat * payloadSizeBytes.toNat := by
  unfold plBytes
  split
  · rw [UInt64.toNat_mul, UInt32.toNat_toUInt64, UInt32.toNat_toUInt64]
    exact Nat.mod_eq_of_lt (mul_lt_wide count payloadSizeBytes)
  · rename_i h
    have zero : payloadSizeBytes = 0 := by simpa using h
    simp [zero]

theorem vecBytes_toNat :
    (vecBytes count dim dtype).toNat =
      count.toNat * dim.toNat * (dtypeSize dtype).toNat % 2 ^ 64 := by
  rw [vecBytes, UInt64.toNat_mul, UInt64.toNat_mul, UInt32.toNat_toUInt64,
    UInt32.toNat_toUInt64, Nat.mod_eq_of_lt (mul_lt_wide count dim)]

end

/-! ## Serialize -/

/-- `Block`, as the codec reads it. A null pointer is `none`. -/
structure RawBlock where
  tStartMs : Int64
  tEndMs : Int64
  count : UInt32
  dim : UInt32
  payloadSizeBytes : UInt32
  dtype : Option Dtype
  timestamps : Option (Nat → UInt8)
  vectors : Option (Nat → UInt8)
  scales : Option (Nat → UInt8)
  payloads : Option (Nat → UInt8)

namespace RawBlock

/-- What `serialize_block` checks. -/
def Valid (blk : RawBlock) : Prop :=
  blk.dim ≠ 0 ∧ dtypeSize blk.dtype ≠ 0 ∧
    (0 < blk.count →
      (blk.timestamps.isSome ∧ blk.vectors.isSome) ∧
      (blk.dtype = some .int8 → blk.scales.isSome) ∧
      (0 < blk.payloadSizeBytes → blk.payloads.isSome))

instance (blk : RawBlock) : Decidable blk.Valid := by
  unfold Valid
  infer_instance

def flags (blk : RawBlock) : UInt16 :=
  (if 0 < blk.payloadSizeBytes then kFlagHasPayload else 0) |||
    (if blk.dtype = some .int8 then kFlagIsInt8 else 0)

def header (blk : RawBlock) : List UInt8 :=
  putU32Le kBlockMagic ++ putU16Le kBlockVersion ++ putU16Le blk.flags ++ putU32Le blk.dim ++
    putU32Le blk.count ++ putI64Le blk.tStartMs ++ putI64Le blk.tEndMs ++
    putU32Le blk.payloadSizeBytes ++ putU32Le 0

/-- The copy of a section. -/
def copied (src : Option (Nat → UInt8)) (n : UInt64) : List UInt8 :=
  match src with
  | some p => load p 0 n.toNat
  | none => []

/-- Everything the CRC covers. -/
def body (blk : RawBlock) : List UInt8 :=
  blk.header ++ copied blk.timestamps (tsBytes blk.count) ++
    copied blk.vectors (vecBytes blk.count blk.dim blk.dtype) ++
    copied blk.scales (scBytes blk.count blk.dtype) ++
    copied blk.payloads (plBytes blk.count blk.payloadSizeBytes)

/-- The size without wrap-around. -/
def exactSize (blk : RawBlock) : Nat :=
  40 + blk.count.toNat * 8 + blk.count.toNat * blk.dim.toNat * (dtypeSize blk.dtype).toNat +
    (if blk.dtype = some .int8 then blk.count.toNat * 4 else 0) +
    blk.count.toNat * blk.payloadSizeBytes.toNat + 4

theorem le_exactSize (blk : RawBlock) : 44 ≤ blk.exactSize := by
  unfold exactSize
  omega

end RawBlock

/-- `serialize_block`: the bytes written, whose number it returns; nothing on
invalid input. -/
def serializeBlock (outBytes : Bool) (blk : RawBlock) : List UInt8 :=
  if outBytes = false then []
  else if blk.Valid then blk.body ++ putU32Le (crc32Ieee blk.body)
  else []

theorem serialized_of_valid {blk : RawBlock} (valid : blk.Valid) :
    serializeBlock true blk = blk.body ++ putU32Le (crc32Ieee blk.body) := by
  rw [serializeBlock, if_neg (by decide), if_pos valid]

theorem serialized {blk : RawBlock} (accepted : serializeBlock true blk ≠ []) :
    blk.Valid ∧ serializeBlock true blk = blk.body ++ putU32Le (crc32Ieee blk.body) := by
  by_cases valid : blk.Valid
  · exact ⟨valid, serialized_of_valid valid⟩
  · exact absurd (by rw [serializeBlock, if_neg (by decide), if_neg valid]) accepted

/-- A section with bytes in it has a row. -/
theorem count_pos_of_mul {count : UInt32} {n : UInt64} (h : 0 < count.toUInt64 * n) :
    0 < count := by
  by_contra none
  have zero : count = 0 := by simpa using none
  simp [zero] at h

namespace RawBlock

variable (blk : RawBlock)

@[simp] theorem header_length : blk.header.length = 40 := by
  simp [header, putU16Le, putU32Le, putI64Le]

theorem field_dim (rest : List UInt8) : field (blk.header ++ rest) 8 4 = blk.dim.toNat := by
  simp (disch := simp) [header, putU16Le, putU32Le, putI64Le, field_skip]
  exact field_here blk.dim.toNat_lt

theorem field_count (rest : List UInt8) : field (blk.header ++ rest) 12 4 = blk.count.toNat := by
  simp (disch := simp) [header, putU16Le, putU32Le, putI64Le, field_skip]
  exact field_here blk.count.toNat_lt

theorem field_payloadSize (rest : List UInt8) :
    field (blk.header ++ rest) 32 4 = blk.payloadSizeBytes.toNat := by
  simp (disch := simp) [header, putU16Le, putU32Le, putI64Le, field_skip]
  exact field_here blk.payloadSizeBytes.toNat_lt

theorem field_flags (rest : List UInt8) : field (blk.header ++ rest) 6 2 = blk.flags.toNat := by
  simp (disch := simp) [header, putU16Le, putU32Le, putI64Le, field_skip]
  exact field_here blk.flags.toNat_lt

theorem field_tStart (rest : List UInt8) :
    field (blk.header ++ rest) 16 8 = blk.tStartMs.toUInt64.toNat := by
  simp (disch := simp) [header, putU16Le, putU32Le, putI64Le, field_skip]
  exact field_here blk.tStartMs.toUInt64.toNat_lt

theorem field_tEnd (rest : List UInt8) :
    field (blk.header ++ rest) 24 8 = blk.tEndMs.toUInt64.toNat := by
  simp (disch := simp) [header, putU16Le, putU32Le, putI64Le, field_skip]
  exact field_here blk.tEndMs.toUInt64.toNat_lt

theorem copied_length {src : Option (Nat → UInt8)} {n : UInt64} (h : 0 < n → src.isSome) :
    (copied src n).length = n.toNat := by
  cases src with
  | some p => simp [copied]
  | none =>
    have zero : n = 0 := by simpa using h
    simp [copied, zero]

section
variable {blk} (valid : blk.Valid)
include valid

theorem timestamps_length :
    (copied blk.timestamps (tsBytes blk.count)).length = (tsBytes blk.count).toNat := by
  apply copied_length
  intro h
  exact (valid.2.2 (count_pos_of_mul h)).1.1

theorem vectors_length :
    (copied blk.vectors (vecBytes blk.count blk.dim blk.dtype)).length =
      (vecBytes blk.count blk.dim blk.dtype).toNat := by
  apply copied_length
  intro h
  rw [vecBytes, UInt64.mul_assoc] at h
  exact (valid.2.2 (count_pos_of_mul h)).1.2

theorem scales_length :
    (copied blk.scales (scBytes blk.count blk.dtype)).length =
      (scBytes blk.count blk.dtype).toNat := by
  apply copied_length
  intro h
  unfold scBytes at h
  split at h
  · rename_i int8
    exact (valid.2.2 (count_pos_of_mul h)).2.1 int8
  · simp at h

theorem payloads_length :
    (copied blk.payloads (plBytes blk.count blk.payloadSizeBytes)).length =
      (plBytes blk.count blk.payloadSizeBytes).toNat := by
  apply copied_length
  intro h
  unfold plBytes at h
  split at h
  · rename_i some
    exact (valid.2.2 (count_pos_of_mul h)).2.2 some
  · simp at h

theorem body_length :
    blk.body.length = 40 + (tsBytes blk.count).toNat +
      (vecBytes blk.count blk.dim blk.dtype).toNat + (scBytes blk.count blk.dtype).toNat +
      (plBytes blk.count blk.payloadSizeBytes).toNat := by
  simp only [body, List.length_append, header_length, timestamps_length valid,
    vectors_length valid, scales_length valid, payloads_length valid]

end

end RawBlock

section
variable {blk : RawBlock}

theorem size_exact (valid : blk.Valid) (small : blk.exactSize < 2 ^ 64) :
    (blockSerializedSize blk.count blk.dim blk.payloadSizeBytes blk.dtype).toNat =
      blk.exactSize := by
  have ts := tsBytes_toNat blk.count
  have vec := vecBytes_toNat blk.count blk.dim blk.dtype
  have sc := scBytes_toNat blk.count blk.dtype
  have pl := plBytes_toNat blk.count blk.payloadSizeBytes
  unfold RawBlock.exactSize at small ⊢
  rw [Nat.mod_eq_of_lt (by omega)] at vec
  rw [blockSerializedSize, if_neg valid.2.1]
  simp only [UInt64.toNat_add, ts, vec, sc, pl, kBlockHeaderSize, kBlockCrcSize]
  rw [← sc] at small ⊢
  simp only [UInt64.reduceToNat]
  omega

/-- **The number of bytes written.** -/
theorem serialized_length (accepted : serializeBlock true blk ≠ [])
    (small : blk.exactSize < 2 ^ 64) : (serializeBlock true blk).length = blk.exactSize := by
  obtain ⟨valid, written⟩ := serialized accepted
  have ts := tsBytes_toNat blk.count
  have vec := vecBytes_toNat blk.count blk.dim blk.dtype
  have sc := scBytes_toNat blk.count blk.dtype
  have pl := plBytes_toNat blk.count blk.payloadSizeBytes
  rw [written, List.length_append, RawBlock.body_length valid, putU32Le, encode_length]
  unfold RawBlock.exactSize at small ⊢
  rw [Nat.mod_eq_of_lt (by omega)] at vec
  omega

end

/-! ## Decode -/

structure DecodedBlockHeader where
  dim : UInt32
  count : UInt32
  tStartMs : Int64
  tEndMs : Int64
  payloadSizeBytes : UInt32
  dtype : Dtype
  deriving DecidableEq

/-- Which of the four data pointers the caller gave. -/
structure OutPointers where
  timestamps : Bool
  vectors : Bool
  scales : Bool
  payloads : Bool

/-- The header and the bytes copied to each given pointer. -/
structure DecodedBlock where
  header : DecodedBlockHeader
  timestamps : List UInt8
  vectors : List UInt8
  scales : List UInt8
  payloads : List UInt8
  deriving DecidableEq

/-- The header fields, before any check. -/
def readHeader (bytes : Nat → UInt8) : DecodedBlockHeader where
  dim := getU32Le bytes 8
  count := getU32Le bytes 12
  tStartMs := getI64Le bytes 16
  tEndMs := getI64Le bytes 24
  payloadSizeBytes := getU32Le bytes 32
  dtype := if getU16Le bytes 6 &&& kFlagIsInt8 ≠ 0 then .int8 else .float32

/-- The header checks of `decode_block`. -/
def parseHeader (bytes : Nat → UInt8) : Except ErrorCode DecodedBlockHeader :=
  let flags := getU16Le bytes 6
  let hdr := readHeader bytes
  if getU32Le bytes 0 ≠ kBlockMagic then .error .corruption
  else if getU16Le bytes 4 ≠ kBlockVersion then .error .corruption
  else if flags &&& ~~~(kFlagHasPayload ||| kFlagIsInt8) ≠ 0 then .error .corruption
  else if (flags &&& kFlagHasPayload != 0) ≠ decide (0 < hdr.payloadSizeBytes) then
    .error .corruption
  else if dtypeSize (some hdr.dtype) = 0 ∨ hdr.dim = 0 then .error .corruption
  else .ok hdr

namespace DecodedBlockHeader

def size (hdr : DecodedBlockHeader) : UInt64 :=
  blockSerializedSize hdr.count hdr.dim hdr.payloadSizeBytes (some hdr.dtype)

/-- The last part of `decode_block`: each section moves the pointer, copied or
not. -/
def extract (hdr : DecodedBlockHeader) (bytes : Nat → UInt8) (out : OutPointers) :
    DecodedBlock :=
  let ts := (tsBytes hdr.count).toNat
  let vec := (vecBytes hdr.count hdr.dim (some hdr.dtype)).toNat
  let sc := (scBytes hdr.count (some hdr.dtype)).toNat
  let pl := (plBytes hdr.count hdr.payloadSizeBytes).toNat
  { header := hdr
    timestamps := if out.timestamps then load bytes 40 ts else []
    vectors := if out.vectors then load bytes (40 + ts) vec else []
    scales := if out.scales then load bytes (40 + ts + vec) sc else []
    payloads := if out.payloads then load bytes (40 + ts + vec + sc) pl else [] }

end DecodedBlockHeader

/-- The stored and the computed CRC of an input of `expected` bytes. -/
def crcMatches (bytes : Nat → UInt8) (expected : UInt64) : Bool :=
  let bodyBytes := (expected - kBlockCrcSize).toNat
  getU32Le bytes bodyBytes == crc32Ieee (load bytes 0 bodyBytes)

/-- `decode_block`. Input longer than the header says is accepted. -/
def decodeBlock (bytes : Option (Nat → UInt8)) (len : UInt64) (outHdr : Bool)
    (out : OutPointers) : Except ErrorCode DecodedBlock :=
  match bytes with
  | none => .error .invalidArg
  | some p =>
    if outHdr = false then .error .invalidArg
    else if len < kBlockHeaderSize + kBlockCrcSize then .error .corruption
    else
      match parseHeader p with
      | .error err => .error err
      | .ok hdr =>
        if hdr.size = 0 ∨ len < hdr.size then .error .corruption
        else if crcMatches p hdr.size then .ok (hdr.extract p out)
        else .error .corruption

section
variable {p : Nat → UInt8} {len : UInt64} {out : OutPointers} {hdr : DecodedBlockHeader}

theorem getU16Le_view {data : List UInt8} {off : Nat} (beyond : Nat → UInt8)
    (h : off + 2 ≤ data.length) :
    getU16Le (view data beyond) off = UInt16.ofNat (field data off 2) := by
  rw [getU16Le, load_view beyond h, field]

theorem getU32Le_view {data : List UInt8} {off : Nat} (beyond : Nat → UInt8)
    (h : off + 4 ≤ data.length) :
    getU32Le (view data beyond) off = UInt32.ofNat (field data off 4) := by
  rw [getU32Le, load_view beyond h, field]

theorem getI64Le_view {data : List UInt8} {off : Nat} (beyond : Nat → UInt8)
    (h : off + 8 ≤ data.length) :
    getI64Le (view data beyond) off = (UInt64.ofNat (field data off 8)).toInt64 := by
  rw [getI64Le, load_view beyond h, field]

/-- The header is read as it was written. -/
theorem readHeader_header {blk : RawBlock} {dtype : Dtype} (known : blk.dtype = some dtype)
    (rest : List UInt8) (beyond : Nat → UInt8) :
    readHeader (view (blk.header ++ rest) beyond) =
      { dim := blk.dim
        count := blk.count
        tStartMs := blk.tStartMs
        tEndMs := blk.tEndMs
        payloadSizeBytes := blk.payloadSizeBytes
        dtype := dtype } := by
  have room (n : Nat) (hn : n ≤ 40) : n ≤ (blk.header ++ rest).length := by
    rw [List.length_append, RawBlock.header_length]
    omega
  have int8 : (blk.flags &&& kFlagIsInt8 ≠ 0) ↔ dtype = .int8 := by
    rw [RawBlock.flags, known]
    cases dtype <;> split <;> decide
  have shape : (if blk.flags &&& kFlagIsInt8 ≠ 0 then Dtype.int8 else .float32) = dtype := by
    simp only [int8]
    cases dtype <;> rfl
  simp only [readHeader, getU16Le_view beyond (room 8 (by decide)),
    getU32Le_view beyond (room 12 (by decide)), getU32Le_view beyond (room 16 (by decide)),
    getU32Le_view beyond (room 36 (by decide)), getI64Le_view beyond (room 24 (by decide)),
    getI64Le_view beyond (room 32 (by decide)), blk.field_flags, blk.field_dim, blk.field_count,
    blk.field_tStart, blk.field_tEnd, blk.field_payloadSize, UInt16.ofNat_toNat,
    UInt32.ofNat_toNat, UInt64.ofNat_toNat, shape]
  rfl

theorem parseHeader_cases (p : Nat → UInt8) :
    parseHeader p = .error .corruption ∨ parseHeader p = .ok (readHeader p) := by
  simp only [parseHeader]
  repeat' split
  all_goals simp

theorem parseHeader_ok (h : parseHeader p = .ok hdr) : hdr = readHeader p := by
  obtain bad | good := parseHeader_cases p
  · rw [bad] at h
    cases h
  · rw [good] at h
    exact (Except.ok.inj h).symm

theorem parseHeader_error {err : ErrorCode} (h : parseHeader p = .error err) :
    err = .corruption := by
  obtain bad | good := parseHeader_cases p
  · rw [bad] at h
    exact (Except.error.inj h).symm
  · rw [good] at h
    cases h

/-- Every check of `decode_block` passes. -/
def Accepted (p : Nat → UInt8) (len : UInt64) : Prop :=
  kBlockHeaderSize + kBlockCrcSize ≤ len ∧
    ∃ hdr, parseHeader p = .ok hdr ∧ hdr.size ≠ 0 ∧ hdr.size ≤ len ∧ crcMatches p hdr.size

theorem decode_ok (long : kBlockHeaderSize + kBlockCrcSize ≤ len)
    (parsed : parseHeader p = .ok hdr) (size : hdr.size ≠ 0) (fits : hdr.size ≤ len)
    (crc : crcMatches p hdr.size) : decodeBlock (some p) len true out = .ok (hdr.extract p out) := by
  have sized : ¬ (hdr.size = 0 ∨ len < hdr.size) := by
    rw [not_or, UInt64.not_lt]
    exact ⟨size, fits⟩
  simp [decodeBlock, UInt64.not_lt.mpr long, parsed, sized, crc]

/-- **Rejection.** Bytes that fail a check are reported as corruption. -/
theorem decode_corruption_iff :
    decodeBlock (some p) len true out = .error .corruption ↔ ¬ Accepted p len := by
  constructor
  · rintro h ⟨long, hdr, parsed, size, fits, crc⟩
    rw [decode_ok long parsed size fits crc] at h
    cases h
  · intro h
    simp only [decodeBlock, Bool.true_eq_false, if_false]
    split
    · rfl
    rename_i long
    split
    · rename_i err failed
      rw [parseHeader_error failed]
    rename_i hdr parsed
    split
    · rfl
    rename_i size
    rw [not_or, UInt64.not_lt] at size
    split
    · rename_i crc
      exact absurd ⟨UInt64.not_lt.mp long, hdr, parsed, size.1, size.2, crc⟩ h
    · rfl

end

end ChronosVector
