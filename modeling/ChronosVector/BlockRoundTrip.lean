import ChronosVector.BlockCodec

/-!
# The block round trip

Size, encoder and decoder agree on every block the encoder accepts: the encoder
writes `blockSerializedSize` bytes, and the decoder finds in them the header and
the sections, whatever comes behind them and whichever sections it is asked
for.

The decoder finds a section by the lengths of those before it, all computed from
the header, so a section that is not asked for does not shift the others.
-/

namespace ChronosVector

open LittleEndian Cells

namespace RawBlock

variable (blk : RawBlock)

/-- What a decoder should give back for the requested sections. -/
def kept (blk : RawBlock) (dtype : Dtype) (out : OutPointers) : DecodedBlock where
  header :=
    { dim := blk.dim
      count := blk.count
      tStartMs := blk.tStartMs
      tEndMs := blk.tEndMs
      payloadSizeBytes := blk.payloadSizeBytes
      dtype := dtype }
  timestamps := if out.timestamps then copied blk.timestamps (tsBytes blk.count) else []
  vectors :=
    if out.vectors then copied blk.vectors (vecBytes blk.count blk.dim blk.dtype) else []
  scales := if out.scales then copied blk.scales (scBytes blk.count blk.dtype) else []
  payloads :=
    if out.payloads then copied blk.payloads (plBytes blk.count blk.payloadSizeBytes) else []

theorem field_magic (rest : List UInt8) :
    field (blk.header ++ rest) 0 4 = kBlockMagic.toNat := by
  simp only [header, putU32Le, List.append_assoc]
  exact field_here kBlockMagic.toNat_lt

theorem field_version (rest : List UInt8) :
    field (blk.header ++ rest) 4 2 = kBlockVersion.toNat := by
  simp (disch := simp) [header, putU16Le, putU32Le, putI64Le, field_skip]
  exact field_here kBlockVersion.toNat_lt

/-! ## The flag word -/

theorem flags_known : blk.flags &&& ~~~(kFlagHasPayload ||| kFlagIsInt8) = 0 := by
  unfold flags
  split <;> split <;> decide

theorem flags_payload :
    (blk.flags &&& kFlagHasPayload != 0) = decide (0 < blk.payloadSizeBytes) := by
  unfold flags
  by_cases payload : 0 < blk.payloadSizeBytes
  · rw [if_pos payload, decide_eq_true payload]
    split <;> decide
  · rw [if_neg payload, decide_eq_false payload]
    split <;> decide

end RawBlock

variable {blk : RawBlock} {dtype : Dtype}

/-- The written header passes its own checks. -/
theorem parseHeader_header (valid : blk.Valid) (known : blk.dtype = some dtype)
    (rest : List UInt8) (beyond : Nat → UInt8) :
    parseHeader (view (blk.header ++ rest) beyond) =
      .ok (readHeader (view (blk.header ++ rest) beyond)) := by
  have long : 40 ≤ (blk.header ++ rest).length := by
    rw [List.length_append, RawBlock.header_length]
    exact Nat.le_add_right _ _
  have magic : getU32Le (view (blk.header ++ rest) beyond) 0 = kBlockMagic := by
    rw [getU32Le_view beyond (by omega), blk.field_magic, UInt32.ofNat_toNat]
  have version : getU16Le (view (blk.header ++ rest) beyond) 4 = kBlockVersion := by
    rw [getU16Le_view beyond (by omega), blk.field_version, UInt16.ofNat_toNat]
  have flags : getU16Le (view (blk.header ++ rest) beyond) 6 = blk.flags := by
    rw [getU16Le_view beyond (by omega), blk.field_flags, UInt16.ofNat_toNat]
  have shape : ¬ (dtypeSize (some dtype) = 0 ∨ blk.dim = 0) := by
    rw [not_or, ← known]
    exact ⟨valid.2.1, valid.1⟩
  simp only [parseHeader, magic, version, flags, readHeader_header known, blk.flags_known,
    blk.flags_payload, shape, ne_eq, not_true_eq_false, if_false]

/-- The CRC at the end of the covered bytes is found and agrees. -/
theorem crcMatches_written {body : List UInt8} {expected : UInt64} (trailing : List UInt8)
    (beyond : Nat → UInt8) (hexp : expected.toNat = body.length + 4) :
    crcMatches (view (body ++ putU32Le (crc32Ieee body) ++ trailing) beyond) expected = true := by
  have bodyBytes : (expected - kBlockCrcSize).toNat = body.length := by
    rw [UInt64.toNat_sub_of_le, hexp]
    · rfl
    · rw [UInt64.le_iff_toNat_le, hexp]
      exact Nat.le_add_left _ _
  have covered :
      load (view (body ++ putU32Le (crc32Ieee body) ++ trailing) beyond) 0 body.length = body := by
    apply load_view_part [] (putU32Le (crc32Ieee body) ++ trailing)
    · rw [List.nil_append, List.append_assoc]
    · rfl
    · rfl
  have stored :
      load (view (body ++ putU32Le (crc32Ieee body) ++ trailing) beyond) body.length 4 =
        putU32Le (crc32Ieee body) := by
    apply load_view_part body trailing
    · rfl
    · rfl
    · rw [putU32Le_length]
  rw [crcMatches, bodyBytes, covered, getU32Le, stored, decode_putU32Le, beq_self_eq_true]

/-- Each section is found behind the ones before it. -/
theorem extract_written (valid : blk.Valid) (known : blk.dtype = some dtype)
    (trailing : List UInt8) (beyond : Nat → UInt8) (out : OutPointers) :
    (blk.kept dtype out).header.extract (view (blk.body ++ trailing) beyond) out =
      blk.kept dtype out := by
  have head := blk.header_length
  have ts := RawBlock.timestamps_length valid
  have vec := RawBlock.vectors_length valid
  have sc := RawBlock.scales_length valid
  have pl := RawBlock.payloads_length valid
  rw [known] at vec sc
  -- what comes before each of the four
  let afterTs := blk.header ++ RawBlock.copied blk.timestamps (tsBytes blk.count)
  let afterVec := afterTs ++ RawBlock.copied blk.vectors (vecBytes blk.count blk.dim blk.dtype)
  let afterSc := afterVec ++ RawBlock.copied blk.scales (scBytes blk.count blk.dtype)
  have timestamps : load (view (blk.body ++ trailing) beyond) 40 (tsBytes blk.count).toNat =
      RawBlock.copied blk.timestamps (tsBytes blk.count) := by
    apply load_view_part blk.header
    · simp only [RawBlock.body, List.append_assoc]
      rfl
    · omega
    · omega
  have vectors : load (view (blk.body ++ trailing) beyond) (40 + (tsBytes blk.count).toNat)
      (vecBytes blk.count blk.dim (some dtype)).toNat =
      RawBlock.copied blk.vectors (vecBytes blk.count blk.dim blk.dtype) := by
    apply load_view_part afterTs
    · simp only [RawBlock.body, List.append_assoc, afterTs]
      rfl
    · simp only [afterTs, List.length_append]
      omega
    · rw [known, vec]
  have scales : load (view (blk.body ++ trailing) beyond)
      (40 + (tsBytes blk.count).toNat + (vecBytes blk.count blk.dim (some dtype)).toNat)
      (scBytes blk.count (some dtype)).toNat =
      RawBlock.copied blk.scales (scBytes blk.count blk.dtype) := by
    apply load_view_part afterVec
    · simp only [RawBlock.body, List.append_assoc, afterTs, afterVec]
      rfl
    · simp only [afterTs, afterVec, List.length_append, known]
      omega
    · rw [known, sc]
  have payloads : load (view (blk.body ++ trailing) beyond)
      (40 + (tsBytes blk.count).toNat + (vecBytes blk.count blk.dim (some dtype)).toNat +
        (scBytes blk.count (some dtype)).toNat)
      (plBytes blk.count blk.payloadSizeBytes).toNat =
      RawBlock.copied blk.payloads (plBytes blk.count blk.payloadSizeBytes) := by
    apply load_view_part afterSc trailing
    · simp only [RawBlock.body, List.append_assoc, afterTs, afterVec, afterSc]
    · simp only [afterTs, afterVec, afterSc, List.length_append, known]
      omega
    · rw [pl]
  simp only [DecodedBlockHeader.extract, RawBlock.kept, timestamps, vectors, scales, payloads]

/-- What is written has the exact size. -/
theorem valid_length (valid : blk.Valid) (small : blk.exactSize < 2 ^ 64) :
    (serializeBlock true blk).length = blk.exactSize := by
  have accepted : serializeBlock true blk ≠ [] := by
    apply List.ne_nil_of_length_pos
    rw [serialized_of_valid valid, List.length_append, putU32Le_length]
    exact Nat.succ_pos _
  exact serialized_length accepted small

/-- The decoder reads what was written. -/
theorem decode_written (valid : blk.Valid) (known : blk.dtype = some dtype)
    (small : blk.exactSize < 2 ^ 64) (trailing : List UInt8) (beyond : Nat → UInt8)
    (out : OutPointers) (room : (serializeBlock true blk ++ trailing).length < 2 ^ 64) :
    decodeBlock (some (view (serializeBlock true blk ++ trailing) beyond))
        (UInt64.ofNat (serializeBlock true blk ++ trailing).length) true out =
      .ok (blk.kept dtype out) := by
  have written := serialized_of_valid valid
  have length := valid_length valid small
  have total : blk.exactSize = blk.body.length + 4 := by
    rw [← length, written, List.length_append, putU32Le_length]
  have sized : (blk.kept dtype out).header.size.toNat = blk.exactSize := by
    rw [← size_exact valid small, known]
    rfl
  have parsed : parseHeader (view (serializeBlock true blk ++ trailing) beyond) =
      .ok (blk.kept dtype out).header := by
    rw [written]
    simp only [RawBlock.body, List.append_assoc]
    rw [parseHeader_header valid known, readHeader_header known]
    rfl
  have len : (UInt64.ofNat (serializeBlock true blk ++ trailing).length).toNat =
      blk.exactSize + trailing.length := by
    rw [UInt64.toNat_ofNat_of_lt' room, List.length_append, length]
  have crc := crcMatches_written trailing beyond (sized.trans total)
  have found := extract_written valid known (putU32Le (crc32Ieee blk.body) ++ trailing) beyond out
  rw [← List.append_assoc] at found
  rw [← written] at crc found
  rw [← found]
  apply decode_ok
  · rw [UInt64.le_iff_toNat_le, len]
    exact Nat.le_trans blk.le_exactSize (Nat.le_add_right _ _)
  · exact parsed
  · intro zero
    have least := blk.le_exactSize
    rw [← sized, zero] at least
    exact absurd least (by decide)
  · rw [UInt64.le_iff_toNat_le, len, sized]
    exact Nat.le_add_right _ _
  · exact crc

/-- **The round trip.** The encoder writes the size it announces, and the
decoder reads what was written. -/
theorem decode_serialized (valid : blk.Valid) (known : blk.dtype = some dtype)
    (small : blk.exactSize < 2 ^ 64) :
    (serializeBlock true blk).length =
        (blockSerializedSize blk.count blk.dim blk.payloadSizeBytes blk.dtype).toNat ∧
      ∀ (trailing : List UInt8) (beyond : Nat → UInt8) (out : OutPointers),
        (serializeBlock true blk ++ trailing).length < 2 ^ 64 →
        decodeBlock (some (view (serializeBlock true blk ++ trailing) beyond))
            (UInt64.ofNat (serializeBlock true blk ++ trailing).length) true out =
          .ok (blk.kept dtype out) := by
  constructor
  · rw [valid_length valid small, size_exact valid small]
  · intro trailing beyond out room
    exact decode_written valid known small trailing beyond out room

/-! ## An INT8 block with payloads -/

def packedBlock : RawBlock where
  tStartMs := -5
  tEndMs := 7
  count := 2
  dim := 3
  payloadSizeBytes := 1
  dtype := some .int8
  timestamps := some (view (putI64Le (-5) ++ putI64Le 7) fun _ => 0)
  vectors := some (view [1, 2, 3, 4, 5, 6] fun _ => 0)
  scales := some (view [0, 0, 128, 63, 0, 0, 0, 64] fun _ => 0)
  payloads := some (view [9, 8] fun _ => 0)

/-- Only scales and payloads are asked for. -/
theorem packed_round_trip :
    (serializeBlock true packedBlock).length = 76 ∧
      decodeBlock (some (view (serializeBlock true packedBlock ++ [1, 2]) fun _ => 0)) 78 true
          ⟨false, false, true, true⟩ =
        .ok
          { header := ⟨3, 2, -5, 7, 1, .int8⟩
            timestamps := []
            vectors := []
            scales := [0, 0, 128, 63, 0, 0, 0, 64]
            payloads := [9, 8] } := by
  have valid : packedBlock.Valid := by decide
  have known : packedBlock.dtype = some .int8 := rfl
  have trip := decode_serialized valid known (by decide)
  have length : (serializeBlock true packedBlock).length = 76 := trip.1
  constructor
  · exact length
  have back := trip.2 [1, 2] (fun _ => 0) ⟨false, false, true, true⟩ (by
    rw [List.length_append, length]
    decide)
  rw [List.length_append, length] at back
  exact back

end ChronosVector
