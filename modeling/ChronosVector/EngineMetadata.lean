import ChronosVector.Types
import ChronosVector.Lib.LittleEndian

/-!
# The engine metadata blob

`serialize_engine_metadata` and `deserialize_engine_metadata`: 59 packed bytes
with the schema, the runtime settings and the engine's identity.

* `deserialize_serialize`: what was written is read back, field by field.
-/

namespace ChronosVector

open LittleEndian

def kEngineMetaMagic : UInt32 := 0x4D564543
def kEngineMetaVersion : UInt16 := 1
def kEngineMetaSize : Nat := 59

/-- The fields of the blob. -/
structure Metadata where
  dim : UInt32
  storageDtype : UInt8
  distanceMetric : UInt8
  payloadSizeBytes : UInt32
  ringCapacity : UInt64
  windowDurationMs : Int64
  evictionIntervalMs : Int64
  uuid : Uuid
  recoverHotWindow : UInt8
  deriving DecidableEq

def Config.metadata (cfg : Config) (uuid : Uuid) : Metadata where
  dim := cfg.dim
  storageDtype := cfg.storageDtype
  distanceMetric := cfg.distanceMetric
  payloadSizeBytes := cfg.payloadSizeBytes
  ringCapacity := cfg.ringCapacity
  windowDurationMs := cfg.windowDurationMs
  evictionIntervalMs := cfg.evictionIntervalMs
  uuid := uuid
  recoverHotWindow := cfg.recoverHotWindow

/-- `serialize_engine_metadata`. -/
def serializeEngineMetadata (m : Metadata) : List UInt8 :=
  encode 4 kEngineMetaMagic.toNat ++ encode 2 kEngineMetaVersion.toNat ++ encode 2 0 ++
  encode 4 m.dim.toNat ++ [m.storageDtype, m.distanceMetric] ++
  encode 4 m.payloadSizeBytes.toNat ++ encode 8 m.ringCapacity.toNat ++
  encode 8 m.windowDurationMs.toUInt64.toNat ++ encode 8 m.evictionIntervalMs.toUInt64.toNat ++
  m.uuid.toList ++ [m.recoverHotWindow]

def byteAt (data : List UInt8) (off : Nat) : UInt8 := (data.drop off).headD 0

/-- `deserialize_engine_metadata`. -/
def deserializeEngineMetadata (data : List UInt8) : Except ErrorCode Metadata :=
  if data.length < kEngineMetaSize then .error .corruption
  else if UInt32.ofNat (field data 0 4) ≠ kEngineMetaMagic then .error .corruption
  else if UInt16.ofNat (field data 4 2) ≠ kEngineMetaVersion then .error .corruption
  else .ok
    { dim := UInt32.ofNat (field data 8 4)
      storageDtype := byteAt data 12
      distanceMetric := byteAt data 13
      payloadSizeBytes := UInt32.ofNat (field data 14 4)
      ringCapacity := UInt64.ofNat (field data 18 8)
      windowDurationMs := (UInt64.ofNat (field data 26 8)).toInt64
      evictionIntervalMs := (UInt64.ofNat (field data 34 8)).toInt64
      uuid := Vector.ofFn fun i => byteAt data (42 + i.val)
      recoverHotWindow := byteAt data 58 }

@[simp] theorem serialize_length (m : Metadata) :
    (serializeEngineMetadata m).length = kEngineMetaSize := by
  simp [serializeEngineMetadata, kEngineMetaSize]

theorem serialize_ne_nil (m : Metadata) : serializeEngineMetadata m ≠ [] := by
  intro h
  have := serialize_length m
  simp [h, kEngineMetaSize] at this

/-! ## Reading behind a prefix -/

variable {pre post : List UInt8} {off : Nat} {b : UInt8}

theorem byteAt_skip (pre : List UInt8) (h : pre.length ≤ off) :
    byteAt (pre ++ post) off = byteAt post (off - pre.length) := by
  simp only [byteAt, List.drop_append, List.drop_eq_nil_of_le h, List.nil_append]

theorem byteAt_cons (h : 0 < off) : byteAt (b :: post) off = byteAt post (off - 1) :=
  byteAt_skip [b] h

@[simp] theorem byteAt_zero : byteAt (b :: post) 0 = b := rfl

theorem byteAt_getElem {l : List UInt8} {i : Nat} (h : i < l.length) :
    byteAt (l ++ post) i = l[i] := by
  simp only [byteAt, List.drop_append_of_le_length (Nat.le_of_lt h), List.drop_eq_getElem_cons h,
    List.cons_append, List.headD_cons]

section
variable (m : Metadata)

theorem field_magic : field (serializeEngineMetadata m) 0 4 = kEngineMetaMagic.toNat := by
  simp only [serializeEngineMetadata, List.append_assoc]
  exact field_here kEngineMetaMagic.toNat_lt

theorem field_version : field (serializeEngineMetadata m) 4 2 = kEngineMetaVersion.toNat := by
  simp (disch := simp) [serializeEngineMetadata, field_skip]
  exact field_here kEngineMetaVersion.toNat_lt

theorem field_dim : field (serializeEngineMetadata m) 8 4 = m.dim.toNat := by
  simp (disch := simp) [serializeEngineMetadata, field_skip]
  exact field_here m.dim.toNat_lt

theorem field_payload :
    field (serializeEngineMetadata m) 14 4 = m.payloadSizeBytes.toNat := by
  simp (disch := simp) [serializeEngineMetadata, field_skip, field_cons]
  exact field_here m.payloadSizeBytes.toNat_lt

theorem field_capacity : field (serializeEngineMetadata m) 18 8 = m.ringCapacity.toNat := by
  simp (disch := simp) [serializeEngineMetadata, field_skip, field_cons]
  exact field_here m.ringCapacity.toNat_lt

theorem field_window :
    field (serializeEngineMetadata m) 26 8 = m.windowDurationMs.toUInt64.toNat := by
  simp (disch := simp) [serializeEngineMetadata, field_skip, field_cons]
  exact field_here m.windowDurationMs.toUInt64.toNat_lt

theorem field_interval :
    field (serializeEngineMetadata m) 34 8 = m.evictionIntervalMs.toUInt64.toNat := by
  simp (disch := simp) [serializeEngineMetadata, field_skip, field_cons]
  exact field_here m.evictionIntervalMs.toUInt64.toNat_lt

theorem byteAt_uuid (i : Fin 16) :
    byteAt (serializeEngineMetadata m) (42 + i.val) = m.uuid[i.val] := by
  have h (pre : List UInt8) (hp : pre.length = 42) :
      byteAt (pre ++ (m.uuid.toList ++ [m.recoverHotWindow])) (42 + i.val) = m.uuid[i.val] := by
    rw [byteAt_skip _ (by omega), hp, Nat.add_sub_cancel_left, byteAt_getElem (by simp)]
    simp
  simp only [serializeEngineMetadata, List.append_assoc] at h ⊢
  simpa using h (encode 4 kEngineMetaMagic.toNat ++ encode 2 kEngineMetaVersion.toNat ++
    encode 2 0 ++ encode 4 m.dim.toNat ++ [m.storageDtype, m.distanceMetric] ++
    encode 4 m.payloadSizeBytes.toNat ++ encode 8 m.ringCapacity.toNat ++
    encode 8 m.windowDurationMs.toUInt64.toNat ++
    encode 8 m.evictionIntervalMs.toUInt64.toNat) (by simp)

/-- **The blob round-trips.** -/
theorem deserialize_serialize : deserializeEngineMetadata (serializeEngineMetadata m) = .ok m := by
  have hd : byteAt (serializeEngineMetadata m) 12 = m.storageDtype := by
    simp (disch := simp) [serializeEngineMetadata, byteAt_skip]
  have hm : byteAt (serializeEngineMetadata m) 13 = m.distanceMetric := by
    simp (disch := simp) [serializeEngineMetadata, byteAt_skip, byteAt_cons]
  have hr : byteAt (serializeEngineMetadata m) 58 = m.recoverHotWindow := by
    simp (disch := simp) [serializeEngineMetadata, byteAt_skip, byteAt_cons]
  have hu : (Vector.ofFn fun i : Fin 16 => byteAt (serializeEngineMetadata m) (42 + i.val)) =
      m.uuid := by
    simp only [byteAt_uuid]
    ext i hi
    simp
  simp [deserializeEngineMetadata, field_magic, field_version, field_dim, field_payload,
    field_capacity, field_window, field_interval, hd, hm, hr, hu, kEngineMetaSize]

end

end ChronosVector
