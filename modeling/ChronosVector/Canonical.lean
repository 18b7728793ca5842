import ChronosVector.DecodedSizes

/-!
# Canonical blocks

The decoder checks or returns every header field but the reserved word, which it
does not read. The bytes it accepts are those of the encoder up to that word.

* `DecodedBlock.toRaw`: what was decoded, as a block to encode again;
* `canonicalForm`: the accepted prefix with a zero reserved word and its CRC;
* `accepted_canonical`: the first encodes to the second, and the input itself is
  the encoder's exactly when its reserved word is zero.
-/

namespace ChronosVector

open LittleEndian Cells

/-- The header word that `serializeBlock` writes as zero. -/
def reservedWord (p : Nat → UInt8) : UInt32 := getU32Le p 36

/-- Some prefix of the input is what the encoder writes for some block. -/
def WrittenPrefix (p : Nat → UInt8) (len : UInt64) : Prop :=
  ∃ n ≤ len.toNat, ∃ blk : RawBlock,
    serializeBlock true blk ≠ [] ∧ load p 0 n = serializeBlock true blk

/-- The decoded header and sections, as the encoder takes them. -/
def DecodedBlock.toRaw (blk : DecodedBlock) : RawBlock where
  tStartMs := blk.header.tStartMs
  tEndMs := blk.header.tEndMs
  count := blk.header.count
  dim := blk.header.dim
  payloadSizeBytes := blk.header.payloadSizeBytes
  dtype := some blk.header.dtype
  timestamps := some (view blk.timestamps fun _ => 0)
  vectors := some (view blk.vectors fun _ => 0)
  scales := some (view blk.scales fun _ => 0)
  payloads := some (view blk.payloads fun _ => 0)

/-- The covered bytes of the input, with zeros in the reserved word. -/
def clearedBody (p : Nat → UInt8) (n : Nat) : List UInt8 :=
  load p 0 36 ++ putU32Le 0 ++ load p 40 (n - 40)

/-- The input the encoder would have written. -/
def canonicalForm (p : Nat → UInt8) : List UInt8 :=
  let body := clearedBody p ((readHeader p).copiedSize - 4)
  body ++ putU32Le (crc32Ieee body)

/-! ## Words written back -/

theorem putU16Le_getU16Le (p : Nat → UInt8) (off : Nat) : putU16Le (getU16Le p off) = load p off 2 := by
  have small := decode_lt (load p off 2)
  rw [load_length] at small
  rw [putU16Le, getU16Le, UInt16.toNat_ofNat_of_lt' small]
  exact encode_decode (load p off 2)

theorem putU32Le_getU32Le (p : Nat → UInt8) (off : Nat) : putU32Le (getU32Le p off) = load p off 4 := by
  have small := decode_lt (load p off 4)
  rw [load_length] at small
  rw [putU32Le, getU32Le, UInt32.toNat_ofNat_of_lt' small]
  exact encode_decode (load p off 4)

theorem putI64Le_getI64Le (p : Nat → UInt8) (off : Nat) : putI64Le (getI64Le p off) = load p off 8 := by
  have small := decode_lt (load p off 8)
  rw [load_length] at small
  rw [putI64Le, getI64Le, UInt64.toUInt64_toInt64, UInt64.toNat_ofNat_of_lt' small]
  exact encode_decode (load p off 8)

/-! ## The header -/

/-- Without unknown bits a flag word is one of four. -/
theorem known_flags {flags : UInt16} (h : flags &&& ~~~(kFlagHasPayload ||| kFlagIsInt8) = 0) :
    flags = 0 ∨ flags = 1 ∨ flags = 2 ∨ flags = 3 := by
  have all : (3 : UInt16) ||| ~~~(kFlagHasPayload ||| kFlagIsInt8) = -1 := by decide
  have bits : flags &&& 3 = flags := by
    calc flags &&& 3 = flags &&& 3 ||| flags &&& ~~~(kFlagHasPayload ||| kFlagIsInt8) := by
          rw [h, UInt16.or_zero]
      _ = flags &&& (3 ||| ~~~(kFlagHasPayload ||| kFlagIsInt8)) :=
          (UInt16.toBitVec_inj.1 BitVec.and_or_distrib_left).symm
      _ = flags := by rw [all, UInt16.and_neg_one]
  have low : flags.toNat < 4 := by
    rw [← bits, UInt16.toNat_and]
    exact Nat.and_lt_two_pow (n := 2) _ (by decide)
  simp only [← UInt16.toNat_inj, UInt16.reduceToNat]
  omega

variable {p : Nat → UInt8} {len : UInt64} {blk : DecodedBlock} {hdr : DecodedBlockHeader}

/-- What the header checks leave. -/
theorem parseHeader_checks (parsed : parseHeader p = .ok hdr) :
    getU32Le p 0 = kBlockMagic ∧ getU16Le p 4 = kBlockVersion ∧
      getU16Le p 6 &&& ~~~(kFlagHasPayload ||| kFlagIsInt8) = 0 ∧
      (getU16Le p 6 &&& kFlagHasPayload != 0) = decide (0 < hdr.payloadSizeBytes) ∧
      hdr.dim ≠ 0 := by
  cases parseHeader_ok parsed
  simp only [parseHeader] at parsed
  split at parsed
  · cases parsed
  rename_i magic
  split at parsed
  · cases parsed
  rename_i version
  split at parsed
  · cases parsed
  rename_i flags
  split at parsed
  · cases parsed
  rename_i payload
  split at parsed
  · cases parsed
  rename_i shape
  exact ⟨not_not.mp magic, not_not.mp version, not_not.mp flags, not_not.mp payload,
    (not_or.mp shape).2⟩

/-- The encoder's flags are the ones read. -/
theorem parsed_flags (parsed : parseHeader p = .ok (readHeader p)) (out : OutPointers) :
    ((readHeader p).extract p out).toRaw.flags = getU16Le p 6 := by
  obtain ⟨-, -, known, payload, -⟩ := parseHeader_checks parsed
  have shape : (readHeader p).dtype =
      if getU16Le p 6 &&& kFlagIsInt8 ≠ 0 then .int8 else .float32 := rfl
  have hasPayload : (0 < (readHeader p).payloadSizeBytes) ↔
      (getU16Le p 6 &&& kFlagHasPayload != 0) = true := by
    rw [payload, decide_eq_true_iff]
  simp only [RawBlock.flags, DecodedBlock.toRaw, DecodedBlockHeader.extract_header, shape,
    hasPayload]
  obtain word | word | word | word := known_flags known <;>
  · rw [word]
    decide

/-- **The header.** Up to the reserved word the encoder writes what was read. -/
theorem parsed_header (parsed : parseHeader p = .ok (readHeader p)) (out : OutPointers) :
    ((readHeader p).extract p out).toRaw.header = load p 0 36 ++ putU32Le 0 := by
  obtain ⟨magic, version, -⟩ := parseHeader_checks parsed
  have pieces : load p 0 36 = load p 0 4 ++ load p 4 2 ++ load p 6 2 ++ load p 8 4 ++
      load p 12 4 ++ load p 16 8 ++ load p 24 8 ++ load p 32 4 := by
    simp only [← load_add p 0, Nat.reduceAdd]
  rw [RawBlock.header, parsed_flags parsed, ← magic, ← version, pieces]
  simp only [← putU16Le_getU16Le, ← putU32Le_getU32Le, ← putI64Le_getI64Le]
  rfl

/-! ## The whole block -/

variable {out : OutPointers}

/-- A decoded block with a row has all the pointers the encoder wants. -/
theorem toRaw_valid (parsed : parseHeader p = .ok (readHeader p)) :
    ((readHeader p).extract p out).toRaw.Valid := by
  obtain ⟨-, -, -, -, dim⟩ := parseHeader_checks parsed
  refine ⟨dim, ?_, fun _ => ⟨⟨rfl, rfl⟩, fun _ => rfl, fun _ => rfl⟩⟩
  show dtypeSize (some (readHeader p).dtype) ≠ 0
  cases (readHeader p).dtype <;> decide

theorem copied_view {l : List UInt8} {n : UInt64} (beyond : Nat → UInt8) (h : n.toNat = l.length) :
    RawBlock.copied (some (view l beyond)) n = l := by
  rw [RawBlock.copied, h, load_view_all]

/-- **The body.** Encoded again, the decoded sections follow the cleared header. -/
theorem toRaw_body (parsed : parseHeader p = .ok (readHeader p)) :
    ((readHeader p).extract p ⟨true, true, true, true⟩).toRaw.body =
      clearedBody p ((readHeader p).copiedSize - 4) := by
  generalize whole : (readHeader p).extract p ⟨true, true, true, true⟩ = blk
  have head := parsed_header parsed ⟨true, true, true, true⟩
  rw [whole] at head
  have sections := (readHeader p).extract_copies p
  rw [whole] at sections
  have fields : blk.header = readHeader p := by rw [← whole, DecodedBlockHeader.extract_header]
  simp only [DecodedBlock.sections, DecodedBlockHeader.copies, List.map_cons, List.map_nil,
    List.cons.injEq, and_true] at sections
  obtain ⟨ts, vec, sc, pl⟩ := sections
  have covered : (readHeader p).copiedSize - 4 - 40 = (tsBytes blk.header.count).toNat +
      (vecBytes blk.header.count blk.header.dim (some blk.header.dtype)).toNat +
      (scBytes blk.header.count (some blk.header.dtype)).toNat +
      (plBytes blk.header.count blk.header.payloadSizeBytes).toNat := by
    rw [fields]
    simp only [DecodedBlockHeader.copiedSize, DecodedBlockHeader.copies, List.map_cons,
      List.map_nil, List.sum_cons, List.sum_nil]
    omega
  rw [← fields] at ts vec sc pl
  rw [RawBlock.body, head, clearedBody, covered, load_add, load_add, load_add]
  simp only [DecodedBlock.toRaw]
  rw [copied_view _ (by rw [ts, load_length]), copied_view _ (by rw [vec, load_length]),
    copied_view _ (by rw [sc, load_length]), copied_view _ (by rw [pl, load_length]), ts, vec, sc, pl]
  simp only [List.append_assoc, Nat.add_assoc]

theorem clearedBody_of_zero {n : Nat} (long : 40 ≤ n) (zero : reservedWord p = 0) :
    clearedBody p n = load p 0 n := by
  have word : putU32Le 0 = load p 36 4 := by
    rw [← zero, reservedWord, putU32Le_getU32Le]
  rw [clearedBody, word, ← load_add p 0, ← load_add p 0, Nat.add_sub_cancel' long]

/-- What the encoder writes has a zero in the reserved word. -/
theorem reserved_of_written (written : WrittenPrefix p len) : reservedWord p = 0 := by
  obtain ⟨n, -, blk, accepted, eq⟩ := written
  obtain ⟨-, bytes⟩ := serialized accepted
  have ends : blk.header = blk.header.take 36 ++ putU32Le 0 := by
    conv_lhs => rw [← List.take_append_drop 36 blk.header]
    rw [RawBlock.header, List.drop_left' (by simp [putU16Le, putU32Le, putI64Le])]
  have long : 40 ≤ n := by
    rw [← load_length p 0 n, eq, bytes, RawBlock.body]
    simp only [List.length_append, RawBlock.header_length]
    omega
  have pieces : load p 0 n = load p 0 36 ++ (load p 36 4 ++ load p 40 (n - 40)) := by
    rw [← load_add p 36, ← load_add p 0]
    congr 1
    omega
  rw [pieces, bytes, RawBlock.body, ends] at eq
  simp only [List.append_assoc] at eq
  obtain ⟨-, after⟩ := List.append_inj eq (by simp)
  obtain ⟨word, -⟩ := List.append_inj after (by simp)
  rw [reservedWord, getU32Le, word, decode_putU32Le]

/-- The two CRC values that the decoder compares. -/
theorem stored_crc {size : UInt64} (long : 4 ≤ size.toNat) (crc : crcMatches p size) :
    load p (size.toNat - 4) 4 = putU32Le (crc32Ieee (load p 0 (size.toNat - 4))) := by
  have bodyBytes : (size - kBlockCrcSize).toNat = size.toNat - 4 := by
    rw [UInt64.toNat_sub_of_le size kBlockCrcSize (UInt64.le_iff_toNat_le.mpr long)]
    rfl
  rw [crcMatches, bodyBytes, beq_iff_eq] at crc
  rw [← crc, putU32Le_getU32Le]

/-- **Canonical input.** Where the sections are as long as the size that is
checked, all that can be decoded encodes to the accepted prefix with its reserved
word cleared. The prefix itself is an encoder's exactly when that word is zero, and
then it is what comes out again. -/
theorem accepted_canonical (accepted : decodeBlock (some p) len true out = .ok blk)
    (small : blk.header.copiedSize < 2 ^ 64) :
    ∃ whole, decodeBlock (some p) len true ⟨true, true, true, true⟩ = .ok whole ∧
      serializeBlock true whole.toRaw = canonicalForm p ∧
      (WrittenPrefix p len ↔ reservedWord p = 0) ∧
      (reservedWord p = 0 →
        serializeBlock true whole.toRaw = load p 0 whole.header.copiedSize) := by
  obtain ⟨long, parsed, nonzero, fits, crc, rfl⟩ := decoded accepted
  rw [DecodedBlockHeader.extract_header] at small
  have size : (readHeader p).size.toNat = (readHeader p).copiedSize := by
    rw [DecodedBlockHeader.size_toNat, Nat.mod_eq_of_lt small]
  have least : 44 ≤ (readHeader p).copiedSize := Nat.le_add_left 44 _
  have again : serializeBlock true
      ((readHeader p).extract p ⟨true, true, true, true⟩).toRaw = canonicalForm p := by
    rw [serialized_of_valid (toRaw_valid parsed), toRaw_body parsed, canonicalForm]
  have unchanged (zero : reservedWord p = 0) :
      canonicalForm p = load p 0 (readHeader p).copiedSize := by
    have stored := stored_crc (by omega) crc
    rw [size] at stored
    rw [canonicalForm, clearedBody_of_zero (by omega) zero, ← stored]
    nth_rewrite 3 [show (readHeader p).copiedSize = (readHeader p).copiedSize - 4 + 4 by omega]
    rw [load_add, Nat.zero_add]
  refine ⟨_, decode_ok long parsed nonzero fits crc, again, ⟨reserved_of_written, ?_⟩, ?_⟩
  · intro zero
    have inside : (readHeader p).copiedSize ≤ len.toNat := by
      rw [← size]
      exact UInt64.le_iff_toNat_le.mp fits
    refine ⟨_, inside, ((readHeader p).extract p ⟨true, true, true, true⟩).toRaw, ?_, ?_⟩
    · rw [again, unchanged zero]
      exact List.ne_nil_of_length_pos (by rw [load_length]; omega)
    · rw [again, unchanged zero]
  · intro zero
    rw [again, unchanged zero, DecodedBlockHeader.extract_header]

/-! ## An empty block -/

/-- A header of no rows, with its CRC. -/
def emptyBlock (reserved : UInt32) : List UInt8 := closed (headerOf 1 0 0 reserved 0)

/-- With a zero in the reserved word it is the encoder's. -/
theorem emptyBlock_canonical : WrittenPrefix (view (emptyBlock 0) fun _ => 0) 44 := by
  have accepted : decodeBlock (some (view (emptyBlock 0) fun _ => 0)) 44 true
      ⟨true, true, true, true⟩ = .ok ⟨⟨1, 0, 0, 0, 0, .float32⟩, [], [], [], []⟩ := by
    decide +kernel
  obtain ⟨-, -, -, canonical, -⟩ := accepted_canonical accepted (by decide)
  exact canonical.mpr (by decide +kernel)

/-- With a one there it is accepted all the same. -/
theorem reserved_unchecked :
    ¬ ∀ (data : List UInt8) (beyond : Nat → UInt8) (len : UInt64) (out : OutPointers)
      (blk : DecodedBlock), data.length = len.toNat →
      decodeBlock (some (view data beyond)) len true out = .ok blk →
      WrittenPrefix (view data beyond) len := by
  intro h
  have accepted : decodeBlock (some (view (emptyBlock 1) fun _ => 0)) 44 true
      ⟨true, true, true, true⟩ = .ok ⟨⟨1, 0, 0, 0, 0, .float32⟩, [], [], [], []⟩ := by
    decide +kernel
  have zero := reserved_of_written (h _ _ 44 _ _ (by decide +kernel) accepted)
  exact absurd zero (by decide +kernel)

end ChronosVector
