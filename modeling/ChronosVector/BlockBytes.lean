import ChronosVector.BlockCodec
import ChronosVector.StorageBackend

/-!
# The bytes of a handed block

`Block` has typed rows behind its pointers and `RawBlock` has bytes. A typed
array in memory is read here as the bytes it is made of, so that what eviction
hands over can be given to the codec.

* `Block.raw`: the block as `serialize_block` reads it;
* `Block.Alike`: two blocks that differ at most in what lies past their rows;
* `bytes_alike`: those are serialized to the same bytes.
-/

namespace ChronosVector

/-- The bytes of an array whose elements take `size` of them. -/
def bytesOf {α : Type} (enc : α → List UInt8) (size : Nat) (src : Nat → α) : Nat → UInt8 :=
  fun off => (enc (src (off / size))).getD (off % size) 0

/-- A copy of whole elements, or of fewer bytes, reads those elements only. -/
theorem load_bytesOf {α : Type} {enc : α → List UInt8} {size n : Nat} (count : Nat)
    {src src' : Nat → α} (same : ∀ i < count, src i = src' i) (hn : n ≤ count * size) :
    Cells.load (bytesOf enc size src) 0 n = Cells.load (bytesOf enc size src') 0 n := by
  apply Cells.load_congr
  intro j hj
  have inside : j / size < count := Nat.div_lt_of_lt_mul (by rw [Nat.mul_comm]; omega)
  simp only [bytesOf, Nat.zero_add, same _ inside]

variable {F : Type}

/-- An element of a vector in memory; `bits` is the representation of a float. -/
def Elem.bytes (bits : F → UInt32) : Elem F → List UInt8
  | .f32 x => putU32Le (bits x)
  | .i8 q => [q.toUInt8]

namespace Block

/-- The block with its sections as bytes. -/
def raw (bits : F → UInt32) (b : Block F) : RawBlock where
  tStartMs := b.tStartMs
  tEndMs := b.tEndMs
  count := b.count
  dim := UInt32.ofNat b.dim
  payloadSizeBytes := UInt32.ofNat b.payloadSizeBytes
  dtype := some b.dtype
  timestamps := some (bytesOf putI64Le 8 b.timestamps)
  vectors := some (bytesOf (Elem.bytes bits) b.dtype.size b.vectors)
  scales := b.scales.map (bytesOf (fun x => putU32Le (bits x)) 4)
  payloads := b.payloads

/-- What `WriteBlock` stores. -/
def bytes (bits : F → UInt32) (b : Block F) : List UInt8 := serializeBlock true (b.raw bits)

/-- Two blocks with one header and the same rows. -/
structure Alike [FloatArith F] (b b' : Block F) : Prop where
  sensor : b'.sensorId = b.sensorId
  id : b'.blockId = b.blockId
  count : b'.count = b.count
  scales : b'.scales.isSome = b.scales.isSome
  payloads : b'.payloads.isSome = b.payloads.isSome
  stored : b'.stored = b.stored

variable [FloatArith F] {b b' : Block F} {bits : F → UInt32}

namespace Alike

theorem symm (h : b.Alike b') : b'.Alike b :=
  ⟨h.sensor.symm, h.id.symm, h.count.symm, h.scales.symm, h.payloads.symm, h.stored.symm⟩

theorem row (h : b.Alike b') {i : Nat} (hi : i < b.count.toNat) : b'.row i = b.row i := by
  have rows := congrArg StoredBlock.rows h.stored
  simp only [Block.stored, h.count] at rows
  exact List.map_inj_left.mp rows i (List.mem_range.mpr hi)

theorem dim (h : b.Alike b') : b'.dim = b.dim := congrArg StoredBlock.dim h.stored

theorem payloadSizeBytes (h : b.Alike b') : b'.payloadSizeBytes = b.payloadSizeBytes :=
  congrArg StoredBlock.payloadSizeBytes h.stored

theorem dtype (h : b.Alike b') : b'.dtype = b.dtype := congrArg StoredBlock.dtype h.stored

/-- Alike blocks differ in their sections at most. -/
theorem raw_eq (h : b.Alike b') (bits : F → UInt32) : b'.raw bits =
    { b.raw bits with
      timestamps := (b'.raw bits).timestamps, vectors := (b'.raw bits).vectors
      scales := (b'.raw bits).scales, payloads := (b'.raw bits).payloads } := by
  have start : b'.tStartMs = b.tStartMs := congrArg StoredBlock.tStartMs h.stored
  have stop : b'.tEndMs = b.tEndMs := congrArg StoredBlock.tEndMs h.stored
  simp only [raw, h.count, h.dim, h.payloadSizeBytes, h.dtype, start, stop]

theorem header (h : b.Alike b') : (b'.raw bits).header = (b.raw bits).header := by
  rw [h.raw_eq bits]
  rfl

theorem valid (h : b.Alike b') : (b'.raw bits).Valid ↔ (b.raw bits).Valid := by
  rw [h.raw_eq bits]
  simp only [RawBlock.Valid, raw, Option.isSome_map, Option.isSome_some, h.scales, h.payloads]

theorem timestamps_copied (h : b.Alike b') (bits : F → UInt32) :
    RawBlock.copied (b'.raw bits).timestamps (tsBytes b.count) =
      RawBlock.copied (b.raw bits).timestamps (tsBytes b.count) := by
  apply load_bytesOf b.count.toNat
  · exact fun i hi => congrArg Row.ts (h.row hi)
  · rw [tsBytes_toNat]

theorem vectors_copied (h : b.Alike b') (bits : F → UInt32) :
    RawBlock.copied (b'.raw bits).vectors
        (vecBytes b.count (UInt32.ofNat b.dim) (some b.dtype)) =
      RawBlock.copied (b.raw bits).vectors
        (vecBytes b.count (UInt32.ofNat b.dim) (some b.dtype)) := by
  have same (i : Nat) (hi : i < b.count.toNat) :
      Cells.slot b'.vectors b.dim i = Cells.slot b.vectors b.dim i := by
    have row := congrArg Row.vec (h.row hi)
    simp only [Block.row, h.dim] at row
    exact row
  simp only [RawBlock.copied, raw, h.dtype]
  apply load_bytesOf (b.count.toNat * b.dim)
  · exact fun x hx => Cells.cell_of_slots same hx
  · rw [vecBytes_toNat]
    have size : (dtypeSize (some b.dtype)).toNat = b.dtype.size := by
      cases b.dtype <;> rfl
    have dim : (UInt32.ofNat b.dim).toNat ≤ b.dim := by
      rw [UInt32.toNat_ofNat']
      exact Nat.mod_le _ _
    rw [size]
    exact Nat.le_trans (Nat.mod_le _ _)
      (Nat.mul_le_mul_right _ (Nat.mul_le_mul_left _ dim))

theorem scales_copied (h : b.Alike b') (bits : F → UInt32) :
    RawBlock.copied (b'.raw bits).scales (scBytes b.count (some b.dtype)) =
      RawBlock.copied (b.raw bits).scales (scBytes b.count (some b.dtype)) := by
  have isSome := h.scales
  simp only [raw]
  cases hb : b.scales with
  | none =>
    rw [hb, Option.isSome_none] at isSome
    have none' : b'.scales = none := by simpa using isSome
    rw [none']
  | some scales =>
    rw [hb, Option.isSome_some] at isSome
    obtain ⟨scales', hb'⟩ := Option.isSome_iff_exists.mp isSome
    rw [hb']
    simp only [Option.map_some, RawBlock.copied]
    by_cases quantized : b.dtype = .int8
    · apply load_bytesOf b.count.toNat
      · intro i hi
        have row := congrArg Row.scale (h.row hi)
        simpa only [Block.row, h.dtype, quantized, if_true, hb, hb', Option.getD_some,
          Option.some.injEq] using row
      · rw [scBytes_toNat, if_pos (by rw [quantized])]
    · have none : (scBytes b.count (some b.dtype)).toNat = 0 := by
        rw [scBytes_toNat, if_neg (by simpa using quantized)]
      rw [none, Cells.load_zero, Cells.load_zero]

theorem payloads_copied (h : b.Alike b') (bits : F → UInt32) :
    RawBlock.copied (b'.raw bits).payloads
        (plBytes b.count (UInt32.ofNat b.payloadSizeBytes)) =
      RawBlock.copied (b.raw bits).payloads
        (plBytes b.count (UInt32.ofNat b.payloadSizeBytes)) := by
  have isSome := h.payloads
  simp only [raw]
  cases hb : b.payloads with
  | none =>
    rw [hb, Option.isSome_none] at isSome
    have none' : b'.payloads = none := by simpa using isSome
    rw [none']
  | some payloads =>
    rw [hb, Option.isSome_some] at isSome
    obtain ⟨payloads', hb'⟩ := Option.isSome_iff_exists.mp isSome
    rw [hb']
    simp only [RawBlock.copied]
    have same (i : Nat) (hi : i < b.count.toNat) :
        Cells.slot payloads' b.payloadSizeBytes i = Cells.slot payloads b.payloadSizeBytes i := by
      have row := congrArg Row.payload (h.row hi)
      simp only [Block.row, h.payloadSizeBytes, hb, hb', Option.getD_some] at row
      exact row
    apply Cells.load_congr
    intro x hx
    have size : (UInt32.ofNat b.payloadSizeBytes).toNat ≤ b.payloadSizeBytes := by
      rw [UInt32.toNat_ofNat']
      exact Nat.mod_le _ _
    rw [plBytes_toNat] at hx
    have inside : 0 + x < b.count.toNat * b.payloadSizeBytes := by
      rw [Nat.zero_add]
      exact Nat.lt_of_lt_of_le hx (Nat.mul_le_mul_left _ size)
    exact Cells.cell_of_slots same inside

end Alike

/-- **Alike blocks have the same bytes.** -/
theorem bytes_alike (h : b.Alike b') : b'.bytes bits = b.bytes bits := by
  have body : (b'.raw bits).body = (b.raw bits).body := by
    have timestamps := h.timestamps_copied bits
    have vectors := h.vectors_copied bits
    have scales := h.scales_copied bits
    have payloads := h.payloads_copied bits
    simp only [RawBlock.body, h.header]
    simp only [raw, h.count, h.dim, h.dtype, h.payloadSizeBytes] at timestamps vectors scales payloads ⊢
    rw [timestamps, vectors, scales, payloads]
  simp only [bytes, serializeBlock, h.valid, body]

end Block

end ChronosVector
