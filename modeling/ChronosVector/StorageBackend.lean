import Mathlib.Data.List.AList
import ChronosVector.RingBuffer
import ChronosVector.Lib.SortedMap

/-!
# The cold tier

`storage_backend.h` and the operations of `storage_rocksdb.cpp`, at the level of
blocks: a sensor's blocks are a map from block id to content, kept in id order.

* `Block`: the borrowed view that eviction hands to `WriteBlock`;
* `StoredBlock`: the copy the backend keeps, which carries that its rows have
  the shape its header announces;
* `StorageStatus`: what RocksDB answered to each operation of one call;
* `Backend`: the null backend or a RocksDB directory.

An operation whose status is not `ok` has no effect.
-/

namespace ChronosVector

variable {F : Type}

/-- `Block`. Pointers are functions of the offset; a null one is `none`. -/
structure Block (F : Type) where
  sensorId : SensorId
  blockId : Nat
  tStartMs : Int64
  tEndMs : Int64
  count : UInt32
  dim : Nat
  payloadSizeBytes : Nat
  dtype : Dtype
  timestamps : Nat → Int64
  vectors : Nat → Elem F
  scales : Option (Nat → F)
  payloads : Option (Nat → UInt8)

/-- A row with the sections a block of this schema has. -/
def Row.Fits (row : Row F) (dim payloadSize : Nat) (dtype : Dtype) : Prop :=
  row.vec.length = dim ∧ row.payload.length = payloadSize ∧ (row.scale.isSome ↔ dtype = .int8)

/-- A persisted block, decoded. -/
structure StoredBlock (F : Type) where
  tStartMs : Int64
  tEndMs : Int64
  dim : Nat
  payloadSizeBytes : Nat
  dtype : Dtype
  rows : List (Row F)
  fits : ∀ row ∈ rows, row.Fits dim payloadSizeBytes dtype

namespace Block

/-- The conditions under which `serialize_block` writes anything. -/
def Complete (b : Block F) : Prop :=
  0 < b.dim ∧ (0 < b.count.toNat →
    (b.dtype = .int8 → b.scales.isSome) ∧ (0 < b.payloadSizeBytes → b.payloads.isSome))

instance (b : Block F) : Decidable b.Complete := by
  unfold Complete
  infer_instance

/-- Row `i` behind the pointers. A null section of a complete block is empty. -/
def row [FloatArith F] (b : Block F) (i : Nat) : Row F where
  ts := b.timestamps i
  vec := Cells.load b.vectors (i * b.dim) b.dim
  scale := if b.dtype = .int8 then some ((b.scales.getD fun _ => 0) i) else none
  payload := Cells.load (b.payloads.getD fun _ => 0) (i * b.payloadSizeBytes) b.payloadSizeBytes

/-- What reading the block back gives. -/
def stored [FloatArith F] (b : Block F) : StoredBlock F where
  tStartMs := b.tStartMs
  tEndMs := b.tEndMs
  dim := b.dim
  payloadSizeBytes := b.payloadSizeBytes
  dtype := b.dtype
  rows := (List.range b.count.toNat).map b.row
  fits := by
    intro r hr
    obtain ⟨i, -, rfl⟩ := List.mem_map.mp hr
    refine ⟨by simp [row], by simp [row], ?_⟩
    simp only [row]
    split <;> simp_all

end Block

/-! ## RocksDB -/

/-- Statuses of the backend during one call, after `map_status`. A block is
read twice by recovery: its header first, then all of it. -/
structure StorageStatus where
  init : ErrorCode
  readMetadata : ErrorCode
  writeMetadata : ErrorCode
  listSensors : ErrorCode
  flush : ErrorCode
  listBlocks : SensorId → ErrorCode
  deleteSensor : SensorId → ErrorCode
  writeBlock : SensorId → ErrorCode
  peekBlock : SensorId → Nat → ErrorCode
  readBlock : SensorId → Nat → ErrorCode

/-- Every operation succeeds. -/
structure StorageStatus.Succeeds (st : StorageStatus) : Prop where
  init : st.init = .ok
  readMetadata : st.readMetadata = .ok
  writeMetadata : st.writeMetadata = .ok
  listSensors : st.listSensors = .ok
  flush : st.flush = .ok
  listBlocks : ∀ s, st.listBlocks s = .ok
  deleteSensor : ∀ s, st.deleteSensor s = .ok
  writeBlock : ∀ s, st.writeBlock s = .ok
  peekBlock : ∀ s id, st.peekBlock s id = .ok
  readBlock : ∀ s id, st.readBlock s id = .ok

/-- What `Open` needs before it reads blocks succeeds. -/
structure StorageStatus.Lists (st : StorageStatus) : Prop where
  init : st.init = .ok
  readMetadata : st.readMetadata = .ok
  listSensors : st.listSensors = .ok
  listBlocks : ∀ s, st.listBlocks s = .ok

theorem StorageStatus.Succeeds.lists {st : StorageStatus} (h : st.Succeeds) : st.Lists :=
  ⟨h.init, h.readMetadata, h.listSensors, h.listBlocks⟩

def StorageStatus.allOk : StorageStatus :=
  ⟨.ok, .ok, .ok, .ok, .ok, fun _ => .ok, fun _ => .ok, fun _ => .ok, fun _ _ => .ok,
    fun _ _ => .ok⟩

theorem StorageStatus.allOk_succeeds : allOk.Succeeds := by
  constructor <;> intros <;> rfl

/-- The content of one cold-tier directory. -/
structure ColdTier (F : Type) where
  metadata : Option (List UInt8)
  sensors : AList (fun _ : SensorId => SortedMap Nat (StoredBlock F))

namespace ColdTier

def empty : ColdTier F := ⟨none, ∅⟩

/-- The blocks of one sensor, in id order. -/
def blocks (db : ColdTier F) (s : SensorId) : SortedMap Nat (StoredBlock F) :=
  (db.sensors.lookup s).getD .empty

def put (db : ColdTier F) (s : SensorId) (id : Nat) (b : StoredBlock F) : ColdTier F :=
  { db with sensors := db.sensors.insert s ((db.blocks s).put id b) }

def erase (db : ColdTier F) (s : SensorId) : ColdTier F :=
  { db with sensors := db.sensors.erase s }

@[simp] theorem blocks_empty (s : SensorId) : (empty : ColdTier F).blocks s = .empty := rfl

@[simp] theorem blocks_put_self (db : ColdTier F) (s : SensorId) (id : Nat) (b : StoredBlock F) :
    (db.put s id b).blocks s = (db.blocks s).put id b := by
  simp [put, blocks]

theorem blocks_put_ne (db : ColdTier F) {s t : SensorId} (h : t ≠ s) (id : Nat)
    (b : StoredBlock F) : (db.put s id b).blocks t = db.blocks t := by
  simp [put, blocks, AList.lookup_insert_ne h]

@[simp] theorem blocks_erase_self (db : ColdTier F) (s : SensorId) :
    (db.erase s).blocks s = .empty := by
  simp [erase, blocks]

theorem blocks_erase_ne (db : ColdTier F) {s t : SensorId} (h : t ≠ s) :
    (db.erase s).blocks t = db.blocks t := by
  simp [erase, blocks, AList.lookup_erase_ne h]

end ColdTier

/-! ## The backend interface -/

inductive Backend (F : Type)
  | null
  | rocksdb (db : ColdTier F)

namespace Backend

/-- The directory behind the backend; the null backend persists nothing. -/
def cold : Backend F → ColdTier F
  | null => .empty
  | rocksdb db => db

def writeBlock [FloatArith F] (status : ErrorCode) (blk : Block F) : Backend F → ErrorCode × Backend F
  | null => (.ok, null)
  | rocksdb db =>
    if ¬ blk.Complete then (.invalidArg, rocksdb db)
    else if status = .ok then (.ok, rocksdb (db.put blk.sensorId blk.blockId blk.stored))
    else (status, rocksdb db)

def readBlock (status : ErrorCode) (s : SensorId) (id : Nat) :
    Backend F → Except ErrorCode (StoredBlock F)
  | null => .error .notFound
  | rocksdb db =>
    if status = .ok then
      match (db.blocks s).get id with
      | none => .error .notFound
      | some b => .ok b
    else .error status

def listBlocks (status : ErrorCode) (s : SensorId) : Backend F → Except ErrorCode (List Nat)
  | null => .ok []
  | rocksdb db => if status = .ok then .ok (db.blocks s).keys else .error status

/-- Sensors with at least one block. -/
def listSensors (status : ErrorCode) : Backend F → Except ErrorCode (List SensorId)
  | null => .ok []
  | rocksdb db =>
    if status = .ok then .ok (db.sensors.keys.filter fun s => (db.blocks s).keys ≠ [])
    else .error status

def deleteSensor (status : ErrorCode) (s : SensorId) : Backend F → ErrorCode × Backend F
  | null => (.ok, null)
  | rocksdb db =>
    if status = .ok then (.ok, rocksdb (db.erase s)) else (status, rocksdb db)

def flush (status : ErrorCode) : Backend F → ErrorCode
  | null => .ok
  | rocksdb _ => status

def writeMetadata (status : ErrorCode) (data : List UInt8) :
    Backend F → ErrorCode × Backend F
  | null => (.ok, null)
  | rocksdb db =>
    if data = [] then (.invalidArg, rocksdb db)
    else if status = .ok then (.ok, rocksdb { db with metadata := some data })
    else (status, rocksdb db)

def readMetadata (status : ErrorCode) : Backend F → Except ErrorCode (List UInt8)
  | null => .error .notFound
  | rocksdb db =>
    if status = .ok then
      match db.metadata with
      | none => .error .notFound
      | some data => .ok data
    else .error status

theorem writeBlock_blocks_ne [FloatArith F] {blk : Block F} {s : SensorId}
    (other : s ≠ blk.sensorId) (status : ErrorCode) (bk : Backend F) :
    (bk.writeBlock status blk).2.cold.blocks s = bk.cold.blocks s := by
  cases bk with
  | null => rfl
  | rocksdb db =>
    simp only [writeBlock]
    split
    · rfl
    · split
      · exact db.blocks_put_ne other _ _
      · rfl

theorem readBlock_ok {status : ErrorCode} {db : ColdTier F} {s : SensorId} {id : Nat}
    {b : StoredBlock F} (h : (rocksdb db).readBlock status s id = .ok b) :
    (db.blocks s).get id = some b := by
  simp only [readBlock] at h
  split at h
  · split at h
    · cases h
    · cases h
      assumption
  · cases h

theorem mem_listSensors {db : ColdTier F} {l : List SensorId}
    (h : (rocksdb db).listSensors .ok = .ok l) (s : SensorId) :
    s ∈ l ↔ (db.blocks s).keys ≠ [] := by
  simp only [listSensors, if_true, Except.ok.injEq] at h
  subst h
  simp only [List.mem_filter, decide_eq_true_eq, and_iff_right_iff_imp]
  intro hne
  by_contra hs
  apply hne ?_
  have : db.sensors.lookup s = none := AList.lookup_eq_none.mpr (by simpa [AList.mem_keys] using hs)
  simp [ColdTier.blocks, this, SortedMap.empty, SortedMap.keys]

end Backend

end ChronosVector
