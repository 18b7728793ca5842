import ChronosVector.BlockBytes
import ChronosVector.BlockRoundTrip

/-!
# What is read back of a stored block

`WriteBlock` has the arrays of a handed block copied to bytes, and `ReadBlock`
copies the bytes to arrays. The abstract backend keeps rows in between.

* `StoredBlock.decoded`: the arrays of the rows, one row behind the other;
* `Block.reads_back`: what is decoded from the bytes of a handed block is that of
  the rows it stands for.
-/

namespace ChronosVector

open Cells

/-- An element in a cell of `size` bytes. -/
def cellOf {α : Type} (enc : α → List UInt8) (size : Nat) (x : α) : List UInt8 :=
  (List.range size).map fun k => (enc x).getD k 0

theorem cellOf_eq {α : Type} {enc : α → List UInt8} {size : Nat} {x : α}
    (whole : (enc x).length = size) : cellOf enc size x = enc x := by
  apply List.ext_getElem
  · simp [cellOf, whole]
  · intro k hk hk'
    simp [cellOf, List.getElem?_eq_getElem hk']

theorem slot_bytesOf {α : Type} (enc : α → List UInt8) {size : Nat} (src : Nat → α) (i : Nat) :
    slot (bytesOf enc size src) size i = cellOf enc size (src i) := by
  apply List.map_congr_left
  intro k hk
  have inside : k < size := List.mem_range.mp hk
  have pos : 0 < size := Nat.zero_lt_of_lt inside
  have cell : (i * size + k) / size = i := by
    rw [Nat.mul_comm, Nat.mul_add_div pos, Nat.div_eq_of_lt inside, Nat.add_zero]
  have byte : (i * size + k) % size = k := by
    rw [Nat.mul_comm, Nat.mul_add_mod, Nat.mod_eq_of_lt inside]
  simp only [bytesOf, cell, byte]

/-- An array in memory, one element behind the other. -/
theorem load_array {α : Type} (enc : α → List UInt8) (size count : Nat) (src : Nat → α) :
    load (bytesOf enc size src) 0 (count * size) =
      (load src 0 count).flatMap (cellOf enc size) := by
  rw [load_slots, load, List.flatMap_map]
  apply List.flatMap_congr
  intro i _
  rw [slot_bytesOf, Nat.zero_add]

variable {F : Type}

/-! ## The arrays of the rows -/

/-- What `ReadBlock` gives for the requested sections. -/
def StoredBlock.decoded (bits : F → UInt32) (b : StoredBlock F) (out : OutPointers) :
    DecodedBlock where
  header :=
    { dim := UInt32.ofNat b.dim
      count := UInt32.ofNat b.rows.length
      tStartMs := b.tStartMs
      tEndMs := b.tEndMs
      payloadSizeBytes := UInt32.ofNat b.payloadSizeBytes
      dtype := b.dtype }
  timestamps := if out.timestamps then b.rows.flatMap fun x => putI64Le x.ts else []
  vectors :=
    if out.vectors then
      b.rows.flatMap fun x => x.vec.flatMap (cellOf (Elem.bytes bits) b.dtype.size)
    else []
  scales :=
    if out.scales then b.rows.flatMap fun x => x.scale.toList.flatMap fun y => putU32Le (bits y)
    else []
  payloads := if out.payloads then b.rows.flatMap Row.payload else []

/-- The bytes hold the block: the decoder accepts them, and gives its rows. -/
def StoredBlock.ReadsFrom (bits : F → UInt32) (b : StoredBlock F) (value : List UInt8) : Prop :=
  ∀ (beyond : Nat → UInt8) (out : OutPointers),
    decodeBlock (some (view value beyond)) (UInt64.ofNat value.length) true out =
      .ok (b.decoded bits out)

/-! ## The sections of a handed block -/

namespace Block

/-- The sizes that the factories let through. -/
structure Sized (b : Block F) : Prop where
  complete : b.Complete
  dim : b.dim ≤ kMaxDim.toNat
  payload : b.payloadSizeBytes ≤ kMaxPayloadSize.toNat

theorem Sized.dim_toNat {b : Block F} (sized : b.Sized) : (UInt32.ofNat b.dim).toNat = b.dim := by
  have le := sized.dim
  have max : kMaxDim.toNat = 65536 := rfl
  exact UInt32.toNat_ofNat_of_lt' (by rw [UInt32.size]; omega)

theorem Sized.payload_toNat {b : Block F} (sized : b.Sized) :
    (UInt32.ofNat b.payloadSizeBytes).toNat = b.payloadSizeBytes := by
  have le := sized.payload
  have max : kMaxPayloadSize.toNat = 4096 := rfl
  exact UInt32.toNat_ofNat_of_lt' (by rw [UInt32.size]; omega)

/-- No size wraps. -/
theorem Sized.exactSize_lt {b : Block F} (sized : b.Sized) (bits : F → UInt32) :
    (b.raw bits).exactSize < 2 ^ 64 := by
  have count := b.count.toNat_lt
  have dim := sized.dim
  have payload := sized.payload
  have maxDim : kMaxDim.toNat = 65536 := rfl
  have maxPayload : kMaxPayloadSize.toNat = 4096 := rfl
  have size : (dtypeSize (some b.dtype)).toNat ≤ 4 := by
    cases b.dtype <;> decide
  have vectors : b.count.toNat * b.dim * (dtypeSize (some b.dtype)).toNat ≤
      b.count.toNat * (65536 * 4) := by
    rw [Nat.mul_assoc]
    exact Nat.mul_le_mul_left _ (Nat.mul_le_mul (maxDim ▸ dim) size)
  have payloads : b.count.toNat * b.payloadSizeBytes ≤ b.count.toNat * 4096 :=
    Nat.mul_le_mul_left _ (maxPayload ▸ payload)
  unfold RawBlock.exactSize
  split
  · simp only [raw, sized.dim_toNat, sized.payload_toNat]
    omega
  · simp only [raw, sized.dim_toNat, sized.payload_toNat]
    omega

/-- The size of the vectors does not wrap either. -/
theorem Sized.vectors_size {b : Block F} (sized : b.Sized) :
    (vecBytes b.count (UInt32.ofNat b.dim) (some b.dtype)).toNat =
      b.count.toNat * b.dim * b.dtype.size := by
  have size : (dtypeSize (some b.dtype)).toNat = b.dtype.size := by
    cases b.dtype <;> rfl
  have total := sized.exactSize_lt fun _ => 0
  unfold RawBlock.exactSize at total
  simp only [raw, sized.dim_toNat, size] at total
  rw [vecBytes_toNat, sized.dim_toNat, size]
  exact Nat.mod_eq_of_lt (by omega)

theorem Sized.valid {b : Block F} (sized : b.Sized) (bits : F → UInt32) : (b.raw bits).Valid := by
  refine ⟨?_, ?_, ?_⟩
  · intro zero
    have dim := congrArg UInt32.toNat zero
    simp only [raw, sized.dim_toNat, UInt32.toNat_zero] at dim
    have pos := sized.complete.1
    omega
  · simp only [raw]
    cases b.dtype <;> decide
  · intro some
    have rows := sized.complete.2 some
    refine ⟨⟨rfl, rfl⟩, ?_, ?_⟩
    · intro quantized
      simpa [raw] using rows.1 (Option.some.inj quantized)
    · intro labelled
      apply rows.2
      have pos := UInt32.lt_iff_toNat_lt.mp labelled
      rwa [raw, sized.payload_toNat] at pos

variable [FloatArith F] {b : Block F}

theorem stored_length (b : Block F) : b.stored.rows.length = b.count.toNat := by
  simp [stored]

section
variable (bits : F → UInt32)

theorem timestamps_rows : RawBlock.copied (b.raw bits).timestamps (tsBytes b.count) =
    b.stored.rows.flatMap fun x => putI64Le x.ts := by
  have whole (t : Int64) : cellOf putI64Le 8 t = putI64Le t :=
    cellOf_eq (LittleEndian.encode_length 8 _)
  simp only [raw, RawBlock.copied]
  rw [tsBytes_toNat, load_array]
  simp only [load, stored, List.flatMap_map, row, whole, Nat.zero_add]

theorem vectors_rows (sized : b.Sized) :
    RawBlock.copied (b.raw bits).vectors (vecBytes b.count (UInt32.ofNat b.dim) (some b.dtype)) =
      b.stored.rows.flatMap fun x =>
        x.vec.flatMap (cellOf (Elem.bytes bits) b.stored.dtype.size) := by
  simp only [raw, RawBlock.copied]
  rw [sized.vectors_size, load_array, load_slots, List.flatMap_assoc]
  simp only [stored, List.flatMap_map, row, slot]

theorem scales_rows (sized : b.Sized) :
    RawBlock.copied (b.raw bits).scales (scBytes b.count (some b.dtype)) =
      b.stored.rows.flatMap fun x => x.scale.toList.flatMap fun y => putU32Le (bits y) := by
  have whole (y : F) : cellOf (fun x => putU32Le (bits x)) 4 y = putU32Le (bits y) :=
    cellOf_eq (putU32Le_length _)
  by_cases quantized : b.dtype = .int8
  · have size : (scBytes b.count (some b.dtype)).toNat = b.count.toNat * 4 := by
      rw [scBytes_toNat, if_pos (by rw [quantized])]
    obtain none | ⟨scales, found⟩ := b.scales.eq_none_or_eq_some
    · have empty : b.count.toNat = 0 := by
        by_contra some
        have there := (sized.complete.2 (Nat.pos_of_ne_zero some)).1 quantized
        rw [none] at there
        cases there
      simp only [raw, RawBlock.copied, none, Option.map_none, stored, empty]
      rfl
    · simp only [raw, RawBlock.copied, found, Option.map_some]
      rw [size, load_array]
      simp only [load, stored, List.flatMap_map, row, found, quantized, whole, Nat.zero_add,
        if_true, Option.getD_some, Option.toList_some, List.flatMap_cons, List.flatMap_nil,
        List.append_nil]
  · have size : (scBytes b.count (some b.dtype)).toNat = 0 := by
      rw [scBytes_toNat, if_neg (by simpa using quantized)]
    have none : ∀ i, (b.row i).scale = none := fun i => if_neg quantized
    have left : RawBlock.copied (b.raw bits).scales (scBytes b.count (some b.dtype)) = [] := by
      unfold RawBlock.copied
      split
      · rw [size, load_zero]
      · rfl
    rw [left]
    simp [stored, none]

theorem payloads_rows (sized : b.Sized) :
    RawBlock.copied (b.raw bits).payloads (plBytes b.count (UInt32.ofNat b.payloadSizeBytes)) =
      b.stored.rows.flatMap Row.payload := by
  have size : (plBytes b.count (UInt32.ofNat b.payloadSizeBytes)).toNat =
      b.count.toNat * b.payloadSizeBytes := by
    rw [plBytes_toNat, sized.payload_toNat]
  obtain none | ⟨payloads, found⟩ := b.payloads.eq_none_or_eq_some
  · have empty : b.count.toNat = 0 ∨ b.payloadSizeBytes = 0 := by
      by_contra some
      rw [not_or] at some
      have there := (sized.complete.2 (Nat.pos_of_ne_zero some.1)).2 (Nat.pos_of_ne_zero some.2)
      rw [none] at there
      cases there
    simp only [raw, RawBlock.copied, none, stored, List.flatMap_map, row]
    obtain empty | empty := empty
    · simp [empty]
    · simp [empty]
  · simp only [raw, RawBlock.copied, found]
    rw [size, load_slots]
    simp only [stored, List.flatMap_map, row, found, Option.getD_some]
    rfl

end

theorem kept_decoded (bits : F → UInt32) (sized : b.Sized) (out : OutPointers) :
    (b.raw bits).kept b.dtype out = b.stored.decoded bits out := by
  simp only [RawBlock.kept, StoredBlock.decoded, ← timestamps_rows bits, ← vectors_rows bits sized,
    ← scales_rows bits sized, ← payloads_rows bits sized, stored_length, UInt32.ofNat_toNat]
  rfl

/-- **What is stored is read back.** -/
theorem reads_back (bits : F → UInt32) (sized : b.Sized) :
    b.stored.ReadsFrom bits (b.bytes bits) := by
  have valid := sized.valid bits
  have small := sized.exactSize_lt bits
  have length := valid_length valid small
  intro beyond out
  have trip := decode_written valid rfl small [] beyond out
  rw [List.append_nil] at trip
  rw [← kept_decoded bits sized]
  exact trip (by rwa [length])

end Block

end ChronosVector
