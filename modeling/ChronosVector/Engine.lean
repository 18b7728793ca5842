import ChronosVector.StorageBackend

/-!
# The engine: state, sensors and ingest

The state of `Engine` and the operations that register sensors and append to
their rings. Eviction, queries, recovery and the factories are in the modules
that follow.

* `Env`: what one call meets outside the engine;
* `Engine`: the state; one configuration fixes the shape of every ring;
* `getOrCreateRing`, `preallocateSensor`, `append`, `appendBatch`,
  `dropSensor`, `close`: the operations;
* `Engine.Ok`: the invariant of the sensor map.
-/

namespace ChronosVector

variable {F : Type} [FloatArith F]

/-- The body of `Append` past the checks: norm, quantization and the ring's
`Append`. `AppendBatch` runs it for every row. -/
def SensorRing.ingest (r : SensorRing F) (ts : Int64) (vec : Nat → F) (dim : Nat)
    (payload : Option (Nat → UInt8)) : SensorRing F :=
  let norm := l2NormF32 vec dim
  if r.shape.dtype = .int8 then
    let (q, scale) := quantizeF32ToI8 vec dim
    r.append ts (fun i => .i8 (q i)) norm payload scale
  else r.append ts (fun i => .f32 (vec i)) norm payload 0

/-- The entry `ingest` stores. -/
def SensorRing.ingested (r : SensorRing F) (ts : Int64) (vec : Nat → F) (dim : Nat)
    (payload : Option (Nat → UInt8)) : Entry F :=
  let norm := l2NormF32 vec dim
  if r.shape.dtype = .int8 then
    let (q, scale) := quantizeF32ToI8 vec dim
    r.stored ts (fun i => .i8 (q i)) norm payload scale
  else r.stored ts (fun i => .f32 (vec i)) norm payload 0

/-- `SensorSlot`. -/
structure SensorSlot (F : Type) where
  ring : Option (SensorRing F)
  nextBlockId : Nat

/-- A `std::vector` that is only ever resized upwards. -/
structure GrowVec (α : Type) where
  size : Nat
  data : Nat → α

/-- `if (v.size() < n) v.resize(n)`: new elements are zero. -/
def GrowVec.growTo {α : Type} (v : GrowVec α) (n : Nat) (zero : α) : GrowVec α :=
  if v.size < n then ⟨n, fun i => if i < v.size then v.data i else zero⟩ else v

def GrowVec.back {α : Type} (v : GrowVec α) : α := v.data (v.size - 1)

/-- `EvictScratch`, shared by all sensors of an engine. -/
structure EvictScratch (F : Type) where
  timestamps : GrowVec Int64
  vectors : GrowVec (Elem F)
  scales : GrowVec F
  payloads : GrowVec UInt8

def EvictScratch.empty : EvictScratch F :=
  ⟨⟨0, fun _ => 0⟩, ⟨0, fun _ => default⟩, ⟨0, fun _ => 0⟩, ⟨0, fun _ => 0⟩⟩

/-- What one call meets outside the engine: the backend's statuses, the order in
which the hash map iterates, the allocator's answers, the clock and the
generator of identities. `scratchMemory` counts the scratch vectors of a pass
that can be resized before the allocator fails. -/
structure Env (F : Type) where
  storage : StorageStatus
  order : List SensorId → List SensorId
  order_perm : ∀ l, (order l).Perm l
  ringMemory : SensorId → Option (Columns F)
  scratchMemory : SensorId → Nat
  recoveryMemory : SensorId → Bool
  now : Int64
  freshUuid : Uuid

structure Engine (F : Type) where
  cfg : ValidConfig
  uuid : Uuid
  sensors : AList (fun _ : SensorId => SensorSlot F)
  backend : Backend F
  evictScratch : EvictScratch F
  totalAppends : Nat
  totalQueries : Nat
  totalAnomalyChecks : Nat
  totalEvictions : Nat
  totalDroppedSensors : Nat
  flushErrorsTotal : Nat
  droppedOverwriteEvents : Nat
  droppedOverwrittenEntries : Nat
  closed : Bool

namespace Engine

variable (e : Engine F) (env : Env F)

/-- The state after construction and `InitBackend`. -/
def init (cfg : ValidConfig) (uuid : Uuid) (backend : Backend F) : Engine F where
  cfg := cfg
  uuid := uuid
  sensors := ∅
  backend := backend
  evictScratch := .empty
  totalAppends := 0
  totalQueries := 0
  totalAnomalyChecks := 0
  totalEvictions := 0
  totalDroppedSensors := 0
  flushErrorsTotal := 0
  droppedOverwriteEvents := 0
  droppedOverwrittenEntries := 0
  closed := false

def setSlot (s : SensorId) (slot : SensorSlot F) : Engine F :=
  { e with sensors := e.sensors.insert s slot }

/-- A store through the pointer to a registered ring. -/
def setRing (s : SensorId) (r : SensorRing F) : Engine F :=
  match e.sensors.lookup s with
  | none => e
  | some slot => e.setSlot s { slot with ring := some r }

/-- The ring of a sensor that has one. -/
def ring (s : SensorId) : Option (SensorRing F) := (e.sensors.lookup s).bind SensorSlot.ring

/-- `GetOrCreateRing`, both paths. The slow path's second lookup sees what the
first one saw, calls being whole steps here. -/
def getOrCreateRing (s : SensorId) : Except ErrorCode (Engine F × SensorRing F) :=
  match e.sensors.lookup s with
  | some ⟨some r, _⟩ => .ok (e, r)
  | some ⟨none, next⟩ =>
    match env.ringMemory s with
    | none => .error .oom
    | some mem =>
      let r := SensorRing.new e.cfg.shape mem
      .ok (e.setSlot s ⟨some r, next⟩, r)
  | none =>
    if 0 < e.cfg.maxSensors.toNat ∧ e.cfg.maxSensors.toNat ≤ e.sensors.keys.length then
      .error .capacity
    else
      match env.ringMemory s with
      | none => .error .oom
      | some mem =>
        let r := SensorRing.new e.cfg.shape mem
        .ok (e.setSlot s ⟨some r, 0⟩, r)

def preallocateSensor (s : SensorId) : ErrorCode × Engine F :=
  if e.closed then (.closed, e)
  else
    match e.getOrCreateRing env s with
    | .error err => (err, e)
    | .ok (e', _) => (.ok, e')

def append (s : SensorId) (ts : Int64) (vec : Nat → F) (dim : Nat)
    (payload : Option (Nat → UInt8)) : ErrorCode × Engine F :=
  if e.closed then (.closed, e)
  else if dim ≠ e.cfg.dim.toNat then (.dimMismatch, e)
  else
    match e.getOrCreateRing env s with
    | .error err => (err, e)
    | .ok (e', r) =>
      (.ok, { e'.setRing s (r.ingest ts vec dim payload) with totalAppends := e'.totalAppends + 1 })

/-- One row of `AppendBatch`, read from the caller's arrays. -/
structure BatchRow (F : Type) where
  ts : Int64
  vec : Nat → F
  payload : Option (Nat → UInt8)

/-- Row `i` of the caller's arrays. -/
def batchRow (ts : Nat → Int64) (vecs : Nat → F) (dim payloadSize : Nat)
    (payloads : Option (Nat → UInt8)) (i : Nat) : BatchRow F where
  ts := ts i
  vec := fun j => vecs (i * dim + j)
  payload :=
    match payloads with
    | none => none
    | some p => if 0 < payloadSize then some fun j => p (i * payloadSize + j) else none

/-- The loop of `AppendBatch`. -/
def ingestAll (dim : Nat) : List (BatchRow F) → SensorRing F → SensorRing F
  | [], r => r
  | b :: rest, r => ingestAll dim rest (r.ingest b.ts b.vec dim b.payload)

/-- The entries the loop stores. -/
def ingestedAll (dim : Nat) : List (BatchRow F) → SensorRing F → List (Entry F)
  | [], _ => []
  | b :: rest, r =>
    r.ingested b.ts b.vec dim b.payload :: ingestedAll dim rest (r.ingest b.ts b.vec dim b.payload)

def appendBatch (s : SensorId) (ts : Option (Nat → Int64)) (vecs : Option (Nat → F))
    (count dim : Nat) (payloads : Option (Nat → UInt8)) : ErrorCode × Engine F :=
  if e.closed then (.closed, e)
  else if dim ≠ e.cfg.dim.toNat then (.dimMismatch, e)
  else if count = 0 then (.ok, e)
  else
    match ts, vecs with
    | some ts, some vecs =>
      match e.getOrCreateRing env s with
      | .error err => (err, e)
      | .ok (e', r) =>
        let rows := (List.range count).map
          (batchRow ts vecs dim e.cfg.payloadSizeBytes.toNat payloads)
        (.ok, { e'.setRing s (ingestAll dim rows r) with totalAppends := e'.totalAppends + count })
    | _, _ => (.invalidArg, e)

/-- `DropSensor`. The outcome of the backend's delete is ignored. -/
def dropSensor (s : SensorId) : ErrorCode × Engine F :=
  if e.closed then (.closed, e)
  else
    match e.sensors.lookup s with
    | none => (.notFound, e)
    | some slot =>
      let (events, entries) := match slot.ring with
        | none => (0, 0)
        | some r => (r.overwriteEvents, r.overwrittenEntries)
      (.ok,
        { e with
          sensors := e.sensors.erase s
          backend := (e.backend.deleteSensor (env.storage.deleteSensor s) s).2
          totalDroppedSensors := e.totalDroppedSensors + 1
          droppedOverwriteEvents := e.droppedOverwriteEvents + events
          droppedOverwrittenEntries := e.droppedOverwrittenEntries + entries })

def close : ErrorCode × Engine F := (.ok, { e with closed := true })

/-- `ListSensors` up to the caller's `max`. -/
def listSensors (max : Nat) : List SensorId := (env.order e.sensors.keys).take max

/-! ## The invariant of the sensor map -/

/-- Every ring was constructed from this engine's configuration. -/
def Ok : Prop := ∀ s r, e.ring s = some r → r.shape = e.cfg.shape ∧ r.Ok

end Engine

end ChronosVector
