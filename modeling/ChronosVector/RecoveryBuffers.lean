import ChronosVector.BlockRoundTrip
import ChronosVector.DecodedSizes

/-!
# The buffers of recovery

`RehydrateSensorRing` sizes its scratch from the header of a first read and hands
it to a second one, which copies whole sections. The products of the sizes are
formed in 32 bits, those of the decoder in 64.

* `scratchSizes`: the sizes, in bytes, as the source computes them;
* `BuffersFit`: the copies and the replay stay inside;
* `Room`: the 32-bit product of a section is exact, or an earlier block has left
  room, or there is no buffer and nothing looks for one;
* `buffers_fit_iff`: the buffers fit exactly when vectors and payloads have room.
-/

namespace ChronosVector

open LittleEndian Cells

/-- Sizes in bytes. -/
structure ScratchSizes where
  timestamps : Nat
  vectors : Nat
  scales : Nat
  payloads : Nat

namespace DecodedBlockHeader

variable (hdr : DecodedBlockHeader)

/-- The sizes of the buffers after the first read: what recovery asks for, or what
earlier blocks have left. Elements of 8 and 4 bytes are counted, vectors and payloads
are sized in bytes. -/
def scratchSizes (prior : ScratchSizes) : ScratchSizes where
  timestamps := max prior.timestamps (hdr.count.toNat * 8)
  vectors :=
    max prior.vectors ((hdr.count * hdr.dim).toUInt64 * dtypeSize (some hdr.dtype)).toNat
  scales := if hdr.dtype = .int8 then max prior.scales (hdr.count.toNat * 4) else prior.scales
  payloads :=
    if 0 < hdr.payloadSizeBytes then
      max prior.payloads (hdr.count * hdr.payloadSizeBytes).toNat
    else prior.payloads

/-- The pointers of the second read. An empty buffer has no data, and its pointer
is null. -/
def recoveryPointers (sizes : ScratchSizes) : OutPointers where
  timestamps := sizes.timestamps ≠ 0
  vectors := sizes.vectors ≠ 0
  scales := hdr.dtype = .int8 ∧ sizes.scales ≠ 0
  payloads := 0 < hdr.payloadSizeBytes ∧ sizes.payloads ≠ 0

/-- `vec_stride`. -/
def vecStride : UInt64 := hdr.dim.toUInt64 * dtypeSize (some hdr.dtype)

/-- The offset of a row's vector, in 64 bits. -/
def vecOffset (i : UInt32) : UInt64 := i.toUInt64 * hdr.vecStride

/-- The offset of a row's payload, in 32 bits. -/
def payloadOffset (i : UInt32) : UInt32 := i * hdr.payloadSizeBytes

end DecodedBlockHeader

/-- What the second read copies fits the buffers, and so does every row that the
replay reads: those not older than the cutoff, while the ring has room. -/
structure BuffersFit (sizes : ScratchSizes) (full : DecodedBlock) (replayed : UInt32 → Prop) :
    Prop where
  timestamps : full.timestamps.length ≤ sizes.timestamps
  vectors : full.vectors.length ≤ sizes.vectors
  scales : full.scales.length ≤ sizes.scales
  payloads : full.payloads.length ≤ sizes.payloads
  rowTimestamp : ∀ i < full.header.count, i.toNat * 8 + 8 ≤ sizes.timestamps
  rowScale : ∀ i < full.header.count, replayed i → full.header.dtype = .int8 →
    i.toNat * 4 + 4 ≤ sizes.scales
  rowVector : ∀ i < full.header.count, replayed i →
    (full.header.vecOffset i).toNat + full.header.vecStride.toNat ≤ sizes.vectors
  rowPayload : ∀ i < full.header.count, replayed i → 0 < full.header.payloadSizeBytes →
    (full.header.payloadOffset i).toNat + full.header.payloadSizeBytes.toNat ≤ sizes.payloads

/-! ## Products -/

theorem mul_toNat_of_lt {a b : UInt32} (h : a.toNat * b.toNat < 2 ^ 32) :
    (a * b).toNat = a.toNat * b.toNat := by
  rw [UInt32.toNat_mul, Nat.mod_eq_of_lt h]

/-- A 32-bit product holds the exact one only when it does not wrap. -/
theorem mul_toNat_enough {a b : UInt32} (h : a.toNat * b.toNat ≤ (a * b).toNat) :
    a.toNat * b.toNat < 2 ^ 32 := Nat.lt_of_le_of_lt h (a * b).toNat_lt

theorem mul_toNat_le (a b : UInt32) : (a * b).toNat ≤ a.toNat * b.toNat := by
  rw [UInt32.toNat_mul]
  exact Nat.mod_le _ _

/-- `count` elements of `size * unit` bytes have room: their 32-bit number is exact, or
the buffer was large enough before, or it is empty and `idle`. -/
def Room (count size : UInt32) (unit prior : Nat) (idle : Prop) : Prop :=
  count.toNat * size.toNat < 2 ^ 32 ∨ count.toNat * size.toNat * unit ≤ prior ∨
    (prior = 0 ∧ count * size = 0) ∧ idle

section
variable {count size : UInt32} {unit prior : Nat} {idle : Prop}

/-- A buffer that is empty is not copied to; any other has to hold all elements. -/
theorem room_iff (pos : 0 < unit) :
    Room count size unit prior idle ↔
      (max prior ((count * size).toNat * unit) ≠ 0 →
        count.toNat * size.toNat * unit ≤ max prior ((count * size).toNat * unit)) ∧
      (max prior ((count * size).toNat * unit) = 0 → count.toNat * size.toNat ≠ 0 → idle) := by
  have empty : max prior ((count * size).toNat * unit) = 0 ↔ prior = 0 ∧ count * size = 0 := by
    rw [← UInt32.toNat_inj]
    simp [Nat.ne_of_gt pos]
  constructor
  · rintro (exact_ | roomy | ⟨none, idle⟩)
    · rw [mul_toNat_of_lt exact_]
      refine ⟨fun _ => Nat.le_max_right _ _, ?_⟩
      intro zero some
      have := Nat.max_eq_zero_iff.mp zero
      simp [some, Nat.ne_of_gt pos] at this
    · refine ⟨fun _ => Nat.le_trans roomy (Nat.le_max_left _ _), ?_⟩
      intro zero some
      have none := (empty.mp zero).1
      rw [none, Nat.le_zero, Nat.mul_eq_zero] at roomy
      exact (roomy.resolve_right (Nat.ne_of_gt pos) |> some).elim
    · exact ⟨fun some => absurd (empty.mpr none) some, fun _ _ => idle⟩
  · rintro ⟨copies, reads⟩
    by_cases none : max prior ((count * size).toNat * unit) = 0
    · by_cases zero : count.toNat * size.toNat = 0
      · exact .inl (by rw [zero]; decide)
      · exact .inr (.inr ⟨empty.mp none, reads none zero⟩)
    · have roomy := copies none
      obtain asked | left := Nat.le_total prior ((count * size).toNat * unit)
      · rw [Nat.max_eq_right asked] at roomy
        exact .inl (mul_toNat_enough (Nat.le_of_mul_le_mul_right roomy pos))
      · rw [Nat.max_eq_left left] at roomy
        exact .inr (.inl roomy)

/-- Room that is looked for holds all elements. -/
theorem Room.enough (room : Room count size unit prior idle) (busy : ¬ idle) :
    count.toNat * size.toNat * unit ≤ max prior ((count * size).toNat * unit) := by
  obtain exact_ | roomy | ⟨-, idle⟩ := room
  · rw [mul_toNat_of_lt exact_]
    exact Nat.le_max_right _ _
  · exact Nat.le_trans roomy (Nat.le_max_left _ _)
  · exact absurd idle busy

end

namespace DecodedBlockHeader

variable {hdr : DecodedBlockHeader}

/-- The schema limits keep the announced size far below `2 ^ 64`. -/
theorem announced_small (dim : hdr.dim ≤ kMaxDim) (payload : hdr.payloadSizeBytes ≤ kMaxPayloadSize) :
    hdr.announcedSize < 2 ^ 64 := by
  have count := hdr.count.toNat_lt
  have dims : hdr.count.toNat * hdr.dim.toNat ≤ 2 ^ 32 * 65536 :=
    Nat.mul_le_mul (Nat.le_of_lt count) (UInt32.le_iff_toNat_le.mp dim)
  have payloads : hdr.count.toNat * hdr.payloadSizeBytes.toNat ≤ 2 ^ 32 * 4096 :=
    Nat.mul_le_mul (Nat.le_of_lt count) (UInt32.le_iff_toNat_le.mp payload)
  simp only [announcedSize, announced, List.sum_cons, List.sum_nil]
  cases hdr.dtype <;> simp only [Dtype.size, reduceCtorEq, if_false, if_true] <;> omega

theorem vecStride_toNat : hdr.vecStride.toNat = hdr.dim.toNat * hdr.dtype.size := by
  have dim := hdr.dim.toNat_lt
  rw [vecStride, UInt64.toNat_mul, UInt32.toNat_toUInt64, dtypeSize_toNat]
  apply Nat.mod_eq_of_lt
  cases hdr.dtype <;> simp only [Dtype.size] <;> omega

/-- Only the product before the widening can wrap. -/
theorem scratch_vectors (prior : ScratchSizes) :
    (hdr.scratchSizes prior).vectors =
      max prior.vectors ((hdr.count * hdr.dim).toNat * hdr.dtype.size) := by
  have product := (hdr.count * hdr.dim).toNat_lt
  have widened : ((hdr.count * hdr.dim).toUInt64 * dtypeSize (some hdr.dtype)).toNat =
      (hdr.count * hdr.dim).toNat * hdr.dtype.size := by
    rw [UInt64.toNat_mul, UInt32.toNat_toUInt64, dtypeSize_toNat]
    apply Nat.mod_eq_of_lt
    cases hdr.dtype <;> simp only [Dtype.size] <;> omega
  simp only [scratchSizes, widened]

theorem scratch_payloads (prior : ScratchSizes) :
    (hdr.scratchSizes prior).payloads =
      max prior.payloads ((hdr.count * hdr.payloadSizeBytes).toNat * 1) := by
  rw [Nat.mul_one]
  simp only [scratchSizes]
  split
  · rfl
  · rename_i none
    have zero : hdr.payloadSizeBytes = 0 := by simpa using none
    simp [zero]

theorem vecOffset_toNat (dim : hdr.dim ≤ kMaxDim) (i : UInt32) :
    (hdr.vecOffset i).toNat = i.toNat * hdr.vecStride.toNat := by
  have stride : hdr.vecStride.toNat ≤ 65536 * 4 := by
    rw [vecStride_toNat]
    apply Nat.mul_le_mul (UInt32.le_iff_toNat_le.mp dim)
    cases hdr.dtype <;> decide
  have offset : i.toNat * hdr.vecStride.toNat ≤ 2 ^ 32 * (65536 * 4) :=
    Nat.mul_le_mul (Nat.le_of_lt i.toNat_lt) stride
  rw [vecOffset, UInt64.toNat_mul, UInt32.toNat_toUInt64, Nat.mod_eq_of_lt (by omega)]

/-- The lengths of what the second read copies: whole sections, but nothing to an
empty buffer. -/
theorem extract_lengths (dim : hdr.dim ≤ kMaxDim) (payload : hdr.payloadSizeBytes ≤ kMaxPayloadSize)
    (p : Nat → UInt8) (sizes : ScratchSizes) :
    let full := hdr.extract p (hdr.recoveryPointers sizes)
    full.timestamps.length = (if sizes.timestamps ≠ 0 then hdr.count.toNat * 8 else 0) ∧
      full.vectors.length =
        (if sizes.vectors ≠ 0 then hdr.count.toNat * hdr.dim.toNat * hdr.dtype.size else 0) ∧
      full.scales.length =
        (if hdr.dtype = .int8 ∧ sizes.scales ≠ 0 then hdr.count.toNat * 4 else 0) ∧
      full.payloads.length =
        (if sizes.payloads ≠ 0 then hdr.count.toNat * hdr.payloadSizeBytes.toNat else 0) := by
  have lengths := copies_exact (announced_small dim payload)
  simp only [copies, announced, List.map_cons, List.map_nil, List.cons.injEq, and_true] at lengths
  obtain ⟨ts, vec, sc, pl⟩ := lengths
  simp only [extract, recoveryPointers, ts, vec, sc, pl, decide_eq_true_eq, apply_ite List.length,
    load_length, List.length_nil, true_and]
  constructor
  · by_cases int8 : hdr.dtype = .int8
    · simp [int8]
    · simp [int8]
  · by_cases some : 0 < hdr.payloadSizeBytes
    · simp [some]
    · have zero : hdr.payloadSizeBytes = 0 := by simpa using some
      simp [zero]

end DecodedBlockHeader

/-- A copy to a buffer that may be empty. -/
theorem copy_fits (size length : Nat) :
    (if size ≠ 0 then length else 0) ≤ size ↔ (size ≠ 0 → length ≤ size) := by
  split
  · exact ⟨fun h _ => h, fun h => h ‹_›⟩
  · exact iff_of_true (Nat.zero_le _) fun some => absurd some ‹_›

/-- **When the buffers fit.** For a block within the schema limits, whatever earlier
blocks have left and whichever rows the cutoff lets through, all that the second read
copies and the replay reads lies inside the scratch exactly when vectors and payloads
have room. -/
theorem buffers_fit_iff {p : Nat → UInt8} {len : UInt64} {peek full : DecodedBlock}
    {prior : ScratchSizes} {replayed : UInt32 → Prop}
    (peeked : decodeBlock (some p) len true ⟨false, false, false, false⟩ = .ok peek)
    (read : decodeBlock (some p) len true
      (peek.header.recoveryPointers (peek.header.scratchSizes prior)) = .ok full)
    (dim : peek.header.dim ≤ kMaxDim) (payload : peek.header.payloadSizeBytes ≤ kMaxPayloadSize) :
    BuffersFit (peek.header.scratchSizes prior) full replayed ↔
      Room peek.header.count peek.header.dim peek.header.dtype.size prior.vectors
          (∀ i < peek.header.count, ¬ replayed i) ∧
        Room peek.header.count peek.header.payloadSizeBytes 1 prior.payloads
          (∀ i < peek.header.count, ¬ replayed i) := by
  obtain ⟨-, -, -, -, -, rfl⟩ := decoded peeked
  obtain ⟨-, -, -, -, -, rfl⟩ := decoded read
  rw [DecodedBlockHeader.extract_header] at dim payload ⊢
  generalize readHeader p = hdr at dim payload ⊢
  have size : 0 < hdr.dtype.size := by cases hdr.dtype <;> decide
  obtain ⟨ts, vec, sc, pl⟩ :=
    DecodedBlockHeader.extract_lengths dim payload p (hdr.scratchSizes prior)
  constructor
  · intro fit
    have vectors := fit.vectors
    have payloads := fit.payloads
    have rowVector := fit.rowVector
    have rowPayload := fit.rowPayload
    simp only [DecodedBlockHeader.extract_header] at rowVector rowPayload
    rw [vec, copy_fits, DecodedBlockHeader.scratch_vectors] at vectors
    rw [pl, copy_fits, DecodedBlockHeader.scratch_payloads] at payloads
    rw [DecodedBlockHeader.scratch_vectors] at rowVector
    rw [DecodedBlockHeader.scratch_payloads] at rowPayload
    rw [← Nat.mul_one (hdr.count.toNat * hdr.payloadSizeBytes.toNat)] at payloads
    refine ⟨(room_iff size).mpr ⟨vectors, ?_⟩, (room_iff Nat.one_pos).mpr ⟨payloads, ?_⟩⟩
    · intro none some i inside replays
      have row := rowVector i inside replays
      rw [none, Nat.le_zero, Nat.add_eq_zero_iff, DecodedBlockHeader.vecStride_toNat,
        Nat.mul_eq_zero] at row
      have zero := row.2.resolve_right (Nat.ne_of_gt size)
      exact some (by rw [zero, Nat.mul_zero])
    · intro none some i inside replays
      have brings : 0 < hdr.payloadSizeBytes := by
        rw [UInt32.lt_iff_toNat_lt]
        exact Nat.pos_of_mul_pos_left (Nat.pos_of_ne_zero some)
      have row := rowPayload i inside replays brings
      rw [none, Nat.le_zero, Nat.add_eq_zero_iff] at row
      exact some (by rw [row.2, Nat.mul_zero])
  · rintro ⟨vectors, payloads⟩
    have copyVectors := ((room_iff size).mp vectors).1
    have copyPayloads := ((room_iff Nat.one_pos).mp payloads).1
    rw [← DecodedBlockHeader.scratch_vectors] at copyVectors
    rw [← DecodedBlockHeader.scratch_payloads, Nat.mul_one] at copyPayloads
    have busy {i : UInt32} (inside : i < hdr.count) (replays : replayed i) :
        ¬ ∀ i < hdr.count, ¬ replayed i := fun idle => idle i inside replays
    refine ⟨?_, ?_, ?_, ?_, ?_, ?_, ?_, ?_⟩
    · rw [ts, copy_fits]
      exact fun _ => Nat.le_max_right _ _
    · rw [vec, copy_fits]
      exact copyVectors
    · rw [sc]
      split
      · rename_i int8
        rw [DecodedBlockHeader.scratchSizes, if_pos int8.1]
        exact Nat.le_max_right _ _
      · exact Nat.zero_le _
    · rw [pl, copy_fits]
      exact copyPayloads
    · intro i inside
      rw [DecodedBlockHeader.extract_header] at inside
      exact Nat.le_trans (slot_inside 8 (UInt32.lt_iff_toNat_lt.mp inside)) (Nat.le_max_right _ _)
    · intro i inside replays int8
      rw [DecodedBlockHeader.extract_header] at inside int8
      rw [DecodedBlockHeader.scratchSizes, if_pos int8]
      exact Nat.le_trans (slot_inside 4 (UInt32.lt_iff_toNat_lt.mp inside)) (Nat.le_max_right _ _)
    · intro i inside replays
      rw [DecodedBlockHeader.extract_header] at inside ⊢
      have enough := vectors.enough (busy inside replays)
      rw [← DecodedBlockHeader.scratch_vectors, Nat.mul_assoc,
        ← DecodedBlockHeader.vecStride_toNat] at enough
      rw [DecodedBlockHeader.vecOffset_toNat dim]
      exact Nat.le_trans (slot_inside _ (UInt32.lt_iff_toNat_lt.mp inside)) enough
    · intro i inside replays brings
      rw [DecodedBlockHeader.extract_header] at inside ⊢
      have enough := payloads.enough (busy inside replays)
      rw [← DecodedBlockHeader.scratch_payloads, Nat.mul_one] at enough
      have row := slot_inside hdr.payloadSizeBytes.toNat (UInt32.lt_iff_toNat_lt.mp inside)
      have offset := mul_toNat_le i hdr.payloadSizeBytes
      rw [DecodedBlockHeader.payloadOffset]
      omega

/-- Before the first block. -/
def noScratch : ScratchSizes := ⟨0, 0, 0, 0⟩

/-- One small row. -/
theorem oneRow_fits :
    ∃ full, BuffersFit (DecodedBlockHeader.scratchSizes ⟨2, 1, 0, 0, 0, .int8⟩ noScratch) full
      fun _ => True := by
  have peeked : decodeBlock (some (view oneRow fun _ => 0)) 58 true ⟨false, false, false, false⟩ =
      .ok ⟨⟨2, 1, 0, 0, 0, .int8⟩, [], [], [], []⟩ := by
    decide +kernel
  have read : decodeBlock (some (view oneRow fun _ => 0)) 58 true
      (DecodedBlockHeader.recoveryPointers ⟨2, 1, 0, 0, 0, .int8⟩
        (DecodedBlockHeader.scratchSizes ⟨2, 1, 0, 0, 0, .int8⟩ noScratch)) =
        .ok ⟨⟨2, 1, 0, 0, 0, .int8⟩, [0, 0, 0, 0, 0, 0, 0, 0], [1, 2], [0, 0, 0, 0], []⟩ := by
    decide +kernel
  exact ⟨_, (buffers_fit_iff peeked read (by decide) (by decide)).mpr
    ⟨.inl (by decide), .inl (by decide)⟩⟩

/-! ## The longest vectors -/

/-- One row more than the default ring holds, of the longest vectors. -/
def wideBlock : RawBlock where
  tStartMs := 0
  tEndMs := 0
  count := 65537
  dim := 65536
  payloadSizeBytes := 0
  dtype := some .float32
  timestamps := some fun _ => 0
  vectors := some fun _ => 0
  scales := none
  payloads := none

/-- Recovery makes room for one vector, and the second read copies all of them. -/
theorem wideBlock_overflows :
    ¬ ∀ (blk : RawBlock) (dtype : Dtype) (beyond : Nat → UInt8) (peek full : DecodedBlock)
      (prior : ScratchSizes) (replayed : UInt32 → Prop),
      blk.Valid → blk.dtype = some dtype → blk.dim ≤ kMaxDim → blk.payloadSizeBytes ≤ kMaxPayloadSize →
      decodeBlock (some (view (serializeBlock true blk) beyond))
        (UInt64.ofNat (serializeBlock true blk).length) true ⟨false, false, false, false⟩ = .ok peek →
      decodeBlock (some (view (serializeBlock true blk) beyond))
        (UInt64.ofNat (serializeBlock true blk).length) true
        (peek.header.recoveryPointers (peek.header.scratchSizes prior)) = .ok full →
      BuffersFit (peek.header.scratchSizes prior) full replayed := by
  intro h
  have valid : wideBlock.Valid := by decide
  have small : wideBlock.exactSize < 2 ^ 64 := by decide
  have reads (out : OutPointers) := decode_written valid rfl small [] (fun _ => 0) out (by
    rw [List.append_nil, valid_length valid small]
    exact small)
  simp only [List.append_nil] at reads
  have fits := h wideBlock .float32 (fun _ => 0) _ _ noScratch (fun _ => True) valid rfl (by decide)
    (by decide) (reads _) (reads _)
  have vectors := fits.vectors
  simp only [RawBlock.kept, DecodedBlockHeader.recoveryPointers,
    DecodedBlockHeader.scratch_vectors] at vectors
  rw [if_pos (by decide), RawBlock.vectors_length valid] at vectors
  exact absurd vectors (by decide)

end ChronosVector
