import ChronosVector.Api
import ChronosVector.Lib.Runs
import ChronosVector.Lib.ValueSum

/-!
# Threads on one engine

Calls from several threads, interleaved at their critical sections. Under
`map_mutex_`: the lookup of `GetOrCreateRing`, its double-checked insert, the
erase of `DropSensor`, the sum of `GetStats`, and a whole eviction pass, which
holds the lock shared and `eviction_pass_mu_` from its first sensor to its last
`WriteBlock`. Without it: each `SensorRing::Append`, the backend's
`DeleteSensor` and `Flush`, and each read of an atomic counter.

* `Pc`: where a thread stands between two of its steps;
* `Threads`: the engine and all threads, with what its calls have reported;
* `Threads.step`: the next step of one thread, nothing if it has to wait.

Rings are told apart by how often their sensor had one attached. A store
through the pointer to a ring that is gone changes nothing here. A pass copies a
window in one step; `EvictionRace` has the reads of the copy one by one.
-/

namespace ChronosVector

variable {F : Type}

/-- What `GetOrCreateRing` returned: the sensor's `ring`-th ring, attached after
its `life`-th drop. -/
structure RingPtr where
  sensor : SensorId
  ring : Nat
  life : Nat
  deriving DecidableEq

/-- A row at its index in a ring. -/
structure Appended (F : Type) where
  ring : RingPtr
  index : Nat
  row : Row F
  deriving DecidableEq

/-- A full ring `r` behind `p` loses the row to the next append. -/
def Appended.Lost (x : Appended F) (p : RingPtr) (r : SensorRing F) : Prop :=
  x.ring = p ∧ r.shape.capacity ≤ r.head - r.tail ∧ x.index + r.shape.capacity = r.head

instance (x : Appended F) (p : RingPtr) (r : SensorRing F) : Decidable (x.Lost p r) := by
  unfold Appended.Lost
  infer_instance

/-- A pass on its way over the sensors. That of a `Flush` has the rows that were
in the rings, or past them, when the call began. -/
structure PassRun (F : Type) where
  windowMs : Int64
  rest : List SensorId
  flush : Option (List (Appended F))

/-- A `GetStats` call: the totals reported before it began and what it has read. -/
structure StatsCall where
  earlier : List (Nat × Nat)
  events : Nat
  entries : Nat

/-- A completed call. -/
structure StatsReport where
  earlier : List (Nat × Nat)
  totals : Nat × Nat
  deriving DecidableEq

inductive Pc (F : Type)
  | idle
  | looking (s : SensorId) (rows : List (Engine.BatchRow F))
  | inserting (s : SensorId) (rows : List (Engine.BatchRow F))
  | storing (p : RingPtr) (rows : List (Engine.BatchRow F)) (count : Nat)
  | deleting (s : SensorId)
  | entering (windowMsOverride : Int64) (flush : Option (List (Appended F)))
  | visiting (p : PassRun F)
  | snapped (p : PassRun F) (s : SensorId) (b newTail : Nat)
  | copied (p : PassRun F) (s : SensorId) (b newTail : Nat)
  | moved (p : PassRun F) (s : SensorId) (b newTail : Nat)
  | syncing (flush : List (Appended F))
  | reading (call : StatsCall)
  | summing (call : StatsCall)

def Pc.isIdle : Pc F → Bool
  | .idle => true
  | _ => false

/-- Inside a pass. -/
def Pc.inPass : Pc F → Prop
  | .visiting _ | .snapped _ _ _ _ | .copied _ _ _ _ | .moved _ _ _ _ => True
  | _ => False

/-- The sensor a pass is at. -/
def Pc.evicting : Pc F → Option SensorId
  | .snapped _ s _ _ | .copied _ s _ _ | .moved _ s _ _ => some s
  | _ => none

/-- The sensor whose ring `GetOrCreateRing` is about to find or create. -/
def Pc.creating : Pc F → Option SensorId
  | .looking s _ | .inserting s _ => some s
  | _ => none

/-- The sensor whose blocks a `DropSensor` is about to delete. -/
def Pc.dropping : Pc F → Option SensorId
  | .deleting s => some s
  | _ => none

theorem Pc.eq_idle {p : Pc F} (h : p.isIdle) : p = .idle := by
  cases p <;> trivial

theorem Pc.eq_deleting {p : Pc F} {s : SensorId} (h : p.dropping = some s) : p = .deleting s := by
  cases p <;> cases h
  rfl

/-- Between the first counter that `GetStats` reads and the sum. -/
def Pc.inStats : Pc F → Bool
  | .reading _ | .summing _ => true
  | _ => false

/-- A call to begin. An `Append` has one row, `PreallocateSensor` none. -/
inductive ThreadOp (F : Type)
  | ingest (s : SensorId) (rows : List (Engine.BatchRow F))
  | dropSensor (s : SensorId)
  | flush
  | maintainSlidingWindow (windowMs : Int64)
  | backgroundPass
  | getStats

structure Threads (F : Type) where
  engine : Engine F
  pc : Nat → Pc F
  /-- The holder of `eviction_pass_mu_`. -/
  passOwner : Option Nat
  attached : SensorId → Nat
  drops : SensorId → Nat
  /-- The rows appended and not overwritten in the ring since. -/
  appended : List (Appended F)
  /-- The rows that completed flushes answer for. -/
  flushed : List (Appended F)
  reports : List StatsReport

/-! ## Parts of the engine's operations -/

namespace Engine

variable (e : Engine F)

def lostEvents (slot : SensorSlot F) : Nat :=
  match slot.ring with
  | none => 0
  | some r => r.overwriteEvents

def lostEntries (slot : SensorSlot F) : Nat :=
  match slot.ring with
  | none => 0
  | some r => r.overwrittenEntries

/-- The part of `DropSensor` under the lock. -/
def eraseSlot (s : SensorId) (slot : SensorSlot F) : Engine F :=
  { e with
    sensors := e.sensors.erase s
    totalDroppedSensors := e.totalDroppedSensors + 1
    droppedOverwriteEvents := e.droppedOverwriteEvents + lostEvents slot
    droppedOverwrittenEntries := e.droppedOverwrittenEntries + lostEntries slot }

/-- The part of `DropSensor` outside the lock. -/
def deleteBlocks (env : Env F) (s : SensorId) : Engine F :=
  { e with backend := (e.backend.deleteSensor (env.storage.deleteSensor s) s).2 }

/-- `AdvanceTail` in `EvictSensor`. -/
def moveTail (s : SensorId) (slot : SensorSlot F) (r : SensorRing F) (newTail : Nat) : Engine F :=
  { e.setSlot s { slot with ring := some (r.advanceTail newTail) } with
    totalEvictions := e.totalEvictions + 1 }

/-- `WriteBlock` in `EvictSensor` and what follows it. -/
def writeEvicted [FloatArith F] (env : Env F) (s : SensorId) (slot : SensorSlot F)
    (r : SensorRing F) (count : Nat) : Engine F :=
  let blk := e.evictScratch.block r s slot.nextBlockId count
  let (rc, backend) := e.backend.writeBlock (env.storage.writeBlock s) blk
  { e.setSlot s
      { slot with nextBlockId := if rc = .ok then slot.nextBlockId + 1 else slot.nextBlockId } with
    backend := backend
    flushErrorsTotal := if rc = .ok then e.flushErrorsTotal else e.flushErrorsTotal + 1 }

/-- The loop of `GetStats` over the live rings. -/
def liveSum (f : SensorSlot F → Nat) : Nat := e.sensors.valueSum fun _ => f

end Engine

/-! ## Steps -/

namespace Threads

/-- All threads idle. -/
def start (e : Engine F) : Threads F where
  engine := e
  pc := fun _ => .idle
  passOwner := none
  attached := fun _ => 0
  drops := fun _ => 0
  appended := []
  flushed := []
  reports := []

variable (c : Threads F) (t : Nat)

def goto (p : Pc F) : Threads F := { c with pc := Function.update c.pc t p }

@[simp] theorem pc_goto_self (p : Pc F) : (c.goto t p).pc t = p := Function.update_self _ _ _

def setEngine (e : Engine F) : Threads F := { c with engine := e }

/-- A pointer to the attached ring of `s`. -/
def ptr (s : SensorId) : RingPtr := ⟨s, c.attached s, c.drops s⟩

/-- The ring behind a pointer, while it is the sensor's. -/
def deref (p : RingPtr) : Option (SensorRing F) :=
  if c.attached p.sensor = p.ring then c.engine.ring p.sensor else none

/-- Attach a new ring to the slot of `s`, a fresh one or one without a ring. -/
def attach (s : SensorId) (mem : Columns F) (next : Nat) : Threads F :=
  { c with
    engine := c.engine.setSlot s ⟨some (.new c.engine.cfg.shape mem), next⟩
    attached := Function.update c.attached s (c.attached s + 1) }

/-- The erase of `DropSensor`. -/
def erase (s : SensorId) (slot : SensorSlot F) : Threads F :=
  { c with
    engine := c.engine.eraseSlot s slot
    drops := Function.update c.drops s (c.drops s + 1) }

/-- One `SensorRing::Append`. -/
def store [FloatArith F] (s : SensorId) (r : SensorRing F) (row : Engine.BatchRow F) : Threads F :=
  let dim := c.engine.cfg.dim.toNat
  { c with
    engine := c.engine.setRing s (r.ingest row.ts row.vec dim row.payload)
    appended := c.appended.filter (fun x => ¬ x.Lost (c.ptr s) r) ++
      [⟨c.ptr s, r.head, (r.ingested row.ts row.vec dim row.payload).toRow⟩] }

/-- The slow path of `GetOrCreateRing`. -/
def insert (env : Env F) (s : SensorId) (rows : List (Engine.BatchRow F)) : Threads F :=
  let create (next : Nat) : Threads F :=
    match env.ringMemory s with
    | none => c.goto t .idle
    | some mem =>
      let c' := c.attach s mem next
      c'.goto t (.storing (c'.ptr s) rows rows.length)
  match c.engine.sensors.lookup s with
  | some ⟨some _, _⟩ => c.goto t (.storing (c.ptr s) rows rows.length)
  | some ⟨none, next⟩ => create next
  | none =>
    if 0 < c.engine.cfg.maxSensors.toNat ∧
        c.engine.cfg.maxSensors.toNat ≤ c.engine.sensors.keys.length then
      c.goto t .idle
    else create 0

/-- `Snapshot` and the search for the frontier, for the next sensor of a pass. -/
def visit (p : PassRun F) (s : SensorId) (rest : List SensorId) : Threads F :=
  let p' := { p with rest := rest }
  match c.engine.ring s with
  | none => c.goto t (.visiting p')
  | some r =>
    let (b, e) := r.snapshot
    if b = e ∨ r.newTail p.windowMs = b then c.goto t (.visiting p')
    else c.goto t (.snapped p' s b (r.newTail p.windowMs))

/-- The resizes and the copy. -/
def copy [FloatArith F] (env : Env F) (p : PassRun F) (s : SensorId) (b newTail : Nat)
    (r : SensorRing F) : Threads F :=
  let sc := c.engine.evictScratch.reserve r.shape (newTail - b) (env.scratchMemory s)
  if env.scratchMemory s < 4 then
    (c.setEngine { c.engine with evictScratch := sc }).goto t (.visiting p)
  else
    (c.setEngine { c.engine with evictScratch := sc.copyRows r b (newTail - b) }).goto t
      (.copied p s b newTail)

/-- The backend's `Flush` at the end of `Flush`. -/
def sync (env : Env F) (rows : List (Appended F)) : Threads F :=
  let rc := c.engine.backend.flush env.storage.flush
  { c with flushed := if rc = .ok then c.flushed ++ rows else c.flushed }

/-- The sum of `GetStats`. -/
def report (call : StatsCall) : Threads F :=
  let totals := (call.events + c.engine.liveSum Engine.lostEvents,
    call.entries + c.engine.liveSum Engine.lostEntries)
  { c with reports := c.reports ++ [⟨call.earlier, totals⟩] }

/-- The first step of a call. -/
def begin (op : ThreadOp F) : Option (Threads F) :=
  match op with
  | .ingest s rows => if c.engine.closed then some c else some (c.goto t (.looking s rows))
  | .dropSensor s =>
    if c.engine.closed then some c
    else if c.passOwner.isSome then none
    else
      match c.engine.sensors.lookup s with
      | none => some c
      | some slot => some ((c.erase s slot).goto t (.deleting s))
  | .flush =>
    if c.engine.closed then some c else some (c.goto t (.entering 0 (some c.appended)))
  | .maintainSlidingWindow windowMs =>
    if c.engine.closed then some c
    else if h : windowMs.toInt < 0 then some c
    else
      let cfg := c.engine.cfg.setWindow windowMs (window_checked h)
      some ((c.setEngine { c.engine with cfg := cfg }).goto t (.entering (-1) none))
  | .backgroundPass =>
    if c.engine.closed then some c else some (c.goto t (.entering (-1) none))
  | .getStats =>
    some (c.goto t (.reading
      ⟨c.reports.map StatsReport.totals, c.engine.droppedOverwriteEvents, 0⟩))

/-- The next step of thread `t`: of the call it is in, or of `op` if it is idle.
Whoever needs `map_mutex_` exclusively waits for a pass to end. -/
def step [FloatArith F] (env : Env F) (op : ThreadOp F) : Option (Threads F) :=
  match c.pc t with
  | .idle => c.begin t op
  | .looking s rows =>
    match c.engine.ring s with
    | some _ => some (c.goto t (.storing (c.ptr s) rows rows.length))
    | none => some (c.goto t (.inserting s rows))
  | .inserting s rows => if c.passOwner.isSome then none else some (c.insert t env s rows)
  | .storing p (row :: rows) count =>
    match c.deref p with
    | none => some (c.goto t (.storing p rows count))
    | some r => some ((c.store p.sensor r row).goto t (.storing p rows count))
  | .storing _ [] count =>
    some ((c.setEngine
      { c.engine with totalAppends := c.engine.totalAppends + count }).goto t .idle)
  | .deleting s => some ((c.setEngine (c.engine.deleteBlocks env s)).goto t .idle)
  | .entering windowMsOverride flush =>
    if c.passOwner.isSome then none
    else
      let effective :=
        if 0 ≤ windowMsOverride then windowMsOverride else c.engine.cfg.windowDurationMs
      some ({ c with passOwner := some t }.goto t
        (.visiting ⟨effective, env.order c.engine.sensors.keys, flush⟩))
  | .visiting p =>
    match p.rest with
    | [] =>
      some ({ c with passOwner := none }.goto t (p.flush.elim .idle .syncing))
    | s :: rest => some (c.visit t p s rest)
  | .snapped p s b newTail =>
    match c.engine.ring s with
    | none => none
    | some r => some (c.copy t env p s b newTail r)
  | .copied p s b newTail =>
    match c.engine.sensors.lookup s with
    | some ⟨some r, next⟩ =>
      some ((c.setEngine (c.engine.moveTail s ⟨some r, next⟩ r newTail)).goto t
        (.moved p s b newTail))
    | _ => none
  | .moved p s b newTail =>
    match c.engine.sensors.lookup s with
    | some ⟨some r, next⟩ =>
      some ((c.setEngine (c.engine.writeEvicted env s ⟨some r, next⟩ r (newTail - b))).goto t
        (.visiting p))
    | _ => none
  | .syncing rows =>
    some ((c.sync env rows).goto t .idle)
  | .reading call =>
    some (c.goto t (.summing { call with entries := c.engine.droppedOverwrittenEntries }))
  | .summing call =>
    some ((c.report call).goto t .idle)

/-- Who moves next, in which environment, and what it calls if it is idle. -/
structure Turn (F : Type) where
  thread : Nat
  env : Env F
  op : ThreadOp F

/-- A schedule. -/
def run [FloatArith F] : Threads F → List (Turn F) → Option (Threads F) :=
  Runs.run fun c x => c.step x.thread x.env x.op

/-- A condition on every step of a schedule, about the state before it. -/
def Along [FloatArith F] (P : Threads F → Turn F → Prop) : Threads F → List (Turn F) → Prop :=
  Runs.Along (fun c x => c.step x.thread x.env x.op) P

end Threads

end ChronosVector
