import ChronosVector.BlockCodec
import ChronosVector.Lib.ByteOrder
import ChronosVector.Lib.PrefixKeys
import ChronosVector.Lib.SortedMap

/-!
# The key space

`storage_rocksdb.cpp` down to its keys. RocksDB is a map of byte strings in
unsigned bytewise order; a block is kept under `<sensor_id> 01 <block_id>`, the
id in eight big-endian bytes, and the engine metadata under a key without the
separator.

Each operation of an opened backend takes the status RocksDB answers with; one
that is not `ok` leaves the store as it was.
-/

namespace ChronosVector

open PrefixKeys

/-! ## Keys -/

def kSep : UInt8 := 0x01

def putU64Be (v : UInt64) : List UInt8 := BigEndian.encode 8 v.toNat

def getU64Be (buf : List UInt8) : UInt64 := UInt64.ofNat (BigEndian.decode buf)

def encodeKey (sensorId : List UInt8) (blockId : Int64) : List UInt8 :=
  sensorId ++ [kSep] ++ putU64Be blockId.toUInt64

def rangeBeginKey (sensorId : List UInt8) : List UInt8 := sensorId ++ [kSep]

def rangeEndKey (sensorId : List UInt8) : List UInt8 := sensorId ++ [kSep + 1]

/-- `"\0meta"`. -/
def kMetadataKey : List UInt8 := [0x00, 0x6D, 0x65, 0x74, 0x61]

theorem kSep_covBy : kSep ⋖ kSep + 1 := by
  refine ⟨by decide, ?_⟩
  intro c lower upper
  rw [UInt8.lt_iff_toNat_lt] at lower upper
  have one : kSep.toNat = 1 := rfl
  have two : (kSep + 1).toNat = 2 := rfl
  omega

@[simp] theorem putU64Be_length (v : UInt64) : (putU64Be v).length = 8 :=
  BigEndian.encode_length 8 v.toNat

@[simp] theorem getU64Be_putU64Be (v : UInt64) : getU64Be (putU64Be v) = v := by
  rw [getU64Be, putU64Be, BigEndian.decode_encode v.toNat_lt, UInt64.ofNat_toNat]

theorem putU64Be_lt {u v : UInt64} : putU64Be u < putU64Be v ↔ u < v := by
  rw [putU64Be, putU64Be, BigEndian.encode_lt_encode u.toNat_lt v.toNat_lt,
    UInt64.lt_iff_toNat_lt]

theorem scanSensorId_some {l : List UInt8} {n m : Nat} (h : scanSensorId l n = some m)
    (hm : m ≤ kMaxSensorIdLen) : 0x01 ∉ l ∧ m = n + l.length := by
  induction l generalizing n with
  | nil =>
    cases h
    exact ⟨List.not_mem_nil, rfl⟩
  | cons c rest ih =>
    rw [scanSensorId] at h
    split at h
    · cases h
      omega
    · split at h
      · cases h
      · rename_i other
        obtain ⟨free, length⟩ := ih h
        constructor
        · intro mem
          obtain eq | mem := List.mem_cons.mp mem
          · exact other eq.symm
          · exact free mem
        · rw [length, List.length_cons]
          omega

/-- What `validate_sensor_id` is for. -/
theorem SensorId.sep_free (s : SensorId) : kSep ∉ s.bytes ∧ s.bytes ≠ [] := by
  have accepted := s.valid
  simp only [validateSensorId] at accepted
  split at accepted
  · cases accepted
  · rename_i n scanned
    split at accepted
    · cases accepted
    · rename_i some
      split at accepted
      · cases accepted
      · rename_i short
        obtain ⟨free, length⟩ := scanSensorId_some scanned (Nat.le_of_not_lt short)
        refine ⟨free, ?_⟩
        intro empty
        rw [empty] at length
        exact some (by simpa using length)

theorem encodeKey_eq (sensorId : List UInt8) (id : Int64) :
    encodeKey sensorId id = sensorId ++ kSep :: putU64Be id.toUInt64 := by
  rw [encodeKey, List.append_assoc, List.singleton_append]

theorem encodeKey_inj {s t : SensorId} {id id' : Int64}
    (h : encodeKey s.bytes id = encodeKey t.bytes id') : s = t ∧ id = id' := by
  have same : s.bytes = t.bytes := by
    have left := beforeSep_append s.sep_free.1 (putU64Be id.toUInt64)
    have right := beforeSep_append t.sep_free.1 (putU64Be id'.toUInt64)
    rw [← encodeKey_eq] at left right
    rw [h, right] at left
    exact (Option.some.inj left).symm
  refine ⟨SensorId.ext same, ?_⟩
  rw [encodeKey, encodeKey, same] at h
  have ids := congrArg getU64Be (List.append_cancel_left h)
  rw [getU64Be_putU64Be, getU64Be_putU64Be] at ids
  rw [← id.toInt64_toUInt64, ids, id'.toInt64_toUInt64]

theorem beforeSep_encodeKey (s : SensorId) (id : Int64) :
    beforeSep kSep (encodeKey s.bytes id) = some s.bytes := by
  rw [encodeKey_eq]
  exact beforeSep_append s.sep_free.1 _

theorem beforeSep_metadata : beforeSep kSep kMetadataKey = none := by decide

theorem encodeKey_ne_metadata (s : SensorId) (id : Int64) :
    encodeKey s.bytes id ≠ kMetadataKey := by
  intro h
  have found := beforeSep_encodeKey s id
  rw [h, beforeSep_metadata] at found
  cases found

/-- A range holds the keys of its sensor. -/
theorem mem_sensor_range (s : SensorId) (k : List UInt8) :
    rangeBeginKey s.bytes ≤ k ∧ k < rangeEndKey s.bytes ↔ beforeSep kSep k = some s.bytes := by
  rw [rangeBeginKey, rangeEndKey, mem_range_iff kSep_covBy]
  constructor
  · intro h
    exact beforeSep_of_starts s.sep_free.1 h
  · intro h
    exact beforeSep_starts h

theorem encodeKey_mem_range (s t : SensorId) (id : Int64) :
    rangeBeginKey s.bytes ≤ encodeKey t.bytes id ∧ encodeKey t.bytes id < rangeEndKey s.bytes ↔
      t = s := by
  rw [mem_sensor_range, beforeSep_encodeKey, Option.some.injEq]
  constructor
  · intro h
    exact SensorId.ext h
  · intro h
    rw [h]

theorem metadata_not_mem_range (sensorId : List UInt8) :
    ¬ (rangeBeginKey sensorId ≤ kMetadataKey ∧ kMetadataKey < rangeEndKey sensorId) := by
  rw [rangeBeginKey, rangeEndKey, mem_range_iff kSep_covBy]
  intro h
  have sep : kSep ∈ kMetadataKey := h.subset (List.mem_append_right _ List.mem_cons_self)
  exact absurd sep (by decide)

/-- Ids from zero up are kept in numeric order. -/
theorem encodeKey_lt {sensorId : List UInt8} {id id' : Int64} (h : 0 ≤ id) (h' : 0 ≤ id') :
    encodeKey sensorId id < encodeKey sensorId id' ↔ id < id' := by
  rw [encodeKey, encodeKey, append_lt_append_left, putU64Be_lt, UInt64.lt_iff_toNat_lt,
    Int64.toNat_toUInt64_of_le h, Int64.toNat_toUInt64_of_le h', Int64.lt_iff_toInt_lt]
  rw [Int64.le_iff_toInt_le, Int64.toInt_zero] at h h'
  change id.toInt.toNat < id'.toInt.toNat ↔ _
  omega

/-! ## Operations -/

/-- The content of the default column family. -/
abbrev Db := SortedMap (List UInt8) (List UInt8)

namespace Db

/-- `WriteBlock`. The serialization scratch can grow to `scratch` bytes. -/
def writeBlock (scratch : Nat) (status : ErrorCode) (sensorId : List UInt8) (blockId : Int64)
    (blk : RawBlock) (db : Db) : ErrorCode × Db :=
  let needed := blockSerializedSize blk.count blk.dim blk.payloadSizeBytes blk.dtype
  let bytes := serializeBlock true blk
  if sensorId = [] then (.invalidArg, db)
  else if needed = 0 then (.invalidArg, db)
  else if scratch < needed.toNat then (.oom, db)
  else if UInt64.ofNat bytes.length = 0 ∨ UInt64.ofNat bytes.length ≠ needed then
    (.invalidArg, db)
  else if status = .ok then (.ok, db.put (encodeKey sensorId blockId) bytes)
  else (status, db)

/-- `ReadBlock`; `beyond` is the memory behind the value. -/
def readBlock (status : ErrorCode) (beyond : Nat → UInt8) (sensorId : List UInt8)
    (blockId : Int64) (out : OutPointers) (db : Db) : Except ErrorCode DecodedBlock :=
  if sensorId = [] then .error .invalidArg
  else if status ≠ .ok then .error status
  else
    match db.get (encodeKey sensorId blockId) with
    | none => .error .notFound
    | some value =>
      decodeBlock (some (Cells.view value beyond)) (UInt64.ofNat value.length) true out

/-- The block id in a key of the range; other lengths are skipped. -/
def blockIdOf (sensorId k : List UInt8) : Option Int64 :=
  if k.length ≠ sensorId.length + 1 + 8 then none
  else some (getU64Be (k.drop (sensorId.length + 1))).toInt64

/-- `ListBlocks`. -/
def listBlocks (status : ErrorCode) (sensorId : List UInt8) (db : Db) :
    Except ErrorCode (List Int64) :=
  if sensorId = [] then .error .invalidArg
  else if status ≠ .ok then .error status
  else
    .ok ((db.range (rangeBeginKey sensorId) (rangeEndKey sensorId)).filterMap fun e =>
      blockIdOf sensorId e.1)

/-- `ListSensors`: what comes before the separator, where it differs from the
last one seen. -/
def listSensors (status : ErrorCode) (db : Db) : Except ErrorCode (List (List UInt8)) :=
  if status ≠ .ok then .error status
  else .ok (firstOfRuns (beforeSep kSep) [] db.keys)

/-- `DeleteSensor`. -/
def deleteSensor (status : ErrorCode) (sensorId : List UInt8) (db : Db) : ErrorCode × Db :=
  if sensorId = [] then (.invalidArg, db)
  else if status = .ok then
    (.ok, db.eraseRange (rangeBeginKey sensorId) (rangeEndKey sensorId))
  else (status, db)

def writeMetadata (status : ErrorCode) (data : List UInt8) (db : Db) : ErrorCode × Db :=
  if data = [] then (.invalidArg, db)
  else if status = .ok then (.ok, db.put kMetadataKey data)
  else (status, db)

def readMetadata (status : ErrorCode) (db : Db) : Except ErrorCode (List UInt8) :=
  if status ≠ .ok then .error status
  else
    match db.get kMetadataKey with
    | none => .error .notFound
    | some data => .ok data

/-! ## Runs -/

inductive Op
  | writeBlock (scratch : Nat) (status : ErrorCode) (s : SensorId) (id : Int64) (blk : RawBlock)
  | deleteSensor (status : ErrorCode) (s : SensorId)
  | writeMetadata (status : ErrorCode) (data : List UInt8)

def step (db : Db) : Op → ErrorCode × Db
  | .writeBlock scratch status s id blk => db.writeBlock scratch status s.bytes id blk
  | .deleteSensor status s => db.deleteSensor status s.bytes
  | .writeMetadata status data => db.writeMetadata status data

def run (ops : List Op) : Db := ops.foldl (fun db op => (db.step op).2) .empty

theorem run_concat (ops : List Op) (op : Op) : run (ops ++ [op]) = ((run ops).step op).2 := by
  simp [run]

namespace Op

/-- No answer depends on the content of the store. -/
def answer (op : Op) : ErrorCode := (step .empty op).1

/-- What an accepted operation does. -/
def effect : Op → Db → Db
  | .writeBlock _ _ s id blk, db => db.put (encodeKey s.bytes id) (serializeBlock true blk)
  | .deleteSensor _ s, db => db.eraseRange (rangeBeginKey s.bytes) (rangeEndKey s.bytes)
  | .writeMetadata _ data, db => db.put kMetadataKey data

/-- Block ids are never negative. -/
def IdOk : Op → Prop
  | .writeBlock _ _ _ id _ => 0 ≤ id
  | _ => True

def Writes (s : SensorId) (id : Int64) (op : Op) : Prop :=
  op.answer = .ok ∧ ∃ scratch status blk, op = .writeBlock scratch status s id blk

def Deletes (s : SensorId) (op : Op) : Prop :=
  op.answer = .ok ∧ ∃ status, op = .deleteSensor status s

end Op

theorem step_spec (db : Db) (op : Op) :
    db.step op = (op.answer, if op.answer = .ok then op.effect db else db) := by
  cases op with
  | writeBlock scratch status s id blk =>
    simp only [Op.answer, step, writeBlock, Op.effect, s.sep_free.2, if_false]
    repeat' split
    all_goals simp_all
  | deleteSensor status s =>
    simp only [Op.answer, step, deleteSensor, Op.effect, s.sep_free.2, if_false]
    split <;> simp_all
  | writeMetadata status data =>
    simp only [Op.answer, step, writeMetadata, Op.effect]
    repeat' split
    all_goals simp_all

end Db

end ChronosVector
