import ChronosVector.Eviction
import ChronosVector.Query

/-!
# The calls on an open engine

The extern "C" wall on a valid handle, with its own argument checks, and the
background thread's pass. `none` is a null pointer.

* `Call`: one call with its arguments;
* `Engine.call`: the error code and the state after it;
* `Engine.writes`: the blocks it hands to `WriteBlock`;
* `Engine.appended`: the rows it appends to a sensor;
* `Engine.run`: calls as whole steps, one after the other.
-/

namespace ChronosVector

variable {F : Type} [FloatArith F]

abbrev CString := Option (List UInt8)

inductive Call (F : Type)
  | preallocateSensor (id : CString)
  | append (id : CString) (ts : Int64) (vec : Option (Nat → F)) (dim : Nat)
      (payload : Option (Nat → UInt8))
  | appendBatch (id : CString) (ts : Option (Nat → Int64)) (vecs : Option (Nat → F))
      (count dim : Nat) (payloads : Option (Nat → UInt8))
  | queryNearestN (id : CString) (target : Option (Nat → F)) (dim : Nat) (n : Int) (outs : Bool)
  | queryRange (id : CString) (tStart tEnd : Int64) (max : Int) (outs : Bool)
  | detectAnomaly (id : CString) (v : Option (Nat → F)) (dim : Nat) (threshold : F) (outs : Bool)
  | maintainSlidingWindow (windowMs : Int64)
  | flush
  | backgroundPass
  | dropSensor (id : CString)
  | close

/-- The call passes rows for sensor `s`. -/
inductive Call.Brings {F : Type} (s : SensorId) : Call F → Prop
  | append (ts : Int64) (vec : Nat → F) (dim : Nat) (payload : Option (Nat → UInt8)) :
    Brings s (.append (some s.bytes) ts (some vec) dim payload)
  | appendBatch (ts : Nat → Int64) (vecs : Nat → F) {count : Nat} (pos : 0 < count) (dim : Nat)
    (payloads : Option (Nat → UInt8)) :
    Brings s (.appendBatch (some s.bytes) (some ts) (some vecs) count dim payloads)

/-- Run a checked call, or report what `validate_sensor_id` says. -/
def withSensor {α : Type} (id : CString) (e : α) (f : SensorId → ErrorCode × α) : ErrorCode × α :=
  match SensorId.parse id with
  | .error err => (err, e)
  | .ok s => f s

namespace Engine

variable (e : Engine F) (env : Env F)

def chronosvAppend (id : CString) (ts : Int64) (vec : Option (Nat → F)) (dim : Nat)
    (payload : Option (Nat → UInt8)) : ErrorCode × Engine F :=
  match vec with
  | none => (.invalidArg, e)
  | some vec =>
    if dim = 0 then (.invalidArg, e)
    else withSensor id e fun s => e.append env s ts vec dim payload

def chronosvAppendBatch (id : CString) (ts : Option (Nat → Int64)) (vecs : Option (Nat → F))
    (count dim : Nat) (payloads : Option (Nat → UInt8)) : ErrorCode × Engine F :=
  if dim = 0 then (.invalidArg, e)
  else withSensor id e fun s =>
    if count = 0 then (.ok, e)
    else if ts.isNone ∨ vecs.isNone then (.invalidArg, e)
    else e.appendBatch env s ts vecs count dim payloads

def chronosvQueryRange (id : CString) (tStart tEnd : Int64) (max : Int) (outs : Bool) :
    ErrorCode × Option (List (Int64 × List F)) × Engine F :=
  match SensorId.parse id with
  | .error err => (err, none, e)
  | .ok s => e.queryRange s tStart tEnd max outs

/-- One call: its error code and the state it leaves. -/
def call : Call F → ErrorCode × Engine F
  | .preallocateSensor id => withSensor id e fun s => e.preallocateSensor env s
  | .append id ts vec dim payload => e.chronosvAppend env id ts vec dim payload
  | .appendBatch id ts vecs count dim payloads =>
    e.chronosvAppendBatch env id ts vecs count dim payloads
  | .queryNearestN id target dim n outs => withSensor id e fun s =>
    let r := e.queryNearestN s target dim n outs
    (r.1, r.2.2)
  | .queryRange id tStart tEnd max outs =>
    let r := e.chronosvQueryRange id tStart tEnd max outs
    (r.1, r.2.2)
  | .detectAnomaly id v dim threshold outs => withSensor id e fun s =>
    let r := e.detectAnomaly s v dim threshold outs
    (r.1, r.2.2)
  | .maintainSlidingWindow windowMs => e.maintainSlidingWindow env windowMs
  | .flush => e.flush env
  | .backgroundPass => (.ok, e.backgroundPass env)
  | .dropSensor id => withSensor id e fun s => e.dropSensor env s
  | .close => e.close

/-- The pass a call runs: the state it starts from and its window. -/
def pass : Call F → Option (Engine F × Int64)
  | .flush => if e.closed then none else some (e, 0)
  | .backgroundPass => if e.closed then none else some (e, e.cfg.windowDurationMs)
  | .maintainSlidingWindow windowMs =>
    if e.closed then none
    else if h : windowMs.toInt < 0 then none
    else some ({ e with cfg := e.cfg.setWindow windowMs (window_checked h) }, windowMs)
  | _ => none

/-- The blocks a call hands to `WriteBlock`, in order. -/
def writes (c : Call F) : List (Block F) :=
  match e.pass c with
  | none => []
  | some (e', w) => (evictSensors env w (env.order e'.sensors.keys) e').2

/-- The entries that the rows of a call's arguments leave in the ring `r` of
sensor `s`. -/
def landing (s : SensorId) (r : SensorRing F) : Call F → List (Entry F)
  | .append id ts (some vec) dim payload =>
    if id = some s.bytes then [r.ingested ts vec dim payload] else []
  | .appendBatch id (some ts) (some vecs) count dim payloads =>
    if id = some s.bytes then
      ingestedAll dim ((List.range count).map
        (batchRow ts vecs dim e.cfg.payloadSizeBytes.toNat payloads)) r
    else []
  | _ => []

/-- The entries a call appends to a sensor: none when it fails, else those that
land in the ring the call finds or creates. -/
def appended (c : Call F) (s : SensorId) : List (Entry F) :=
  match e.getOrCreateRing env s with
  | .error _ => []
  | .ok (_, r) => if (e.call env c).1 = .ok then e.landing s r c else []

/-! ## Runs -/

/-- The calls of `steps` in order, each in its own environment. -/
def run : List (Env F × Call F) → Engine F → Engine F
  | [], e => e
  | (env, c) :: rest, e => run rest (e.call env c).2

/-- Every entry a run appends to a sensor, in order. -/
def history : List (Env F × Call F) → Engine F → SensorId → List (Entry F)
  | [], _, _ => []
  | (env, c) :: rest, e, s => e.appended env c s ++ history rest (e.call env c).2 s

end Engine

end ChronosVector
