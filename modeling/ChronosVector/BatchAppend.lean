import ChronosVector.Exact

/-!
# Batch append

`AppendBatch` looks the ring up once, strides through the caller's arrays and
counts in bulk; a loop of `Append` does all of it row by row.

* `appendEach`: the loop, over the same arrays;
* `appendEach_of_ring`: on a registered ring it is one `ingestAll`;
* `batch_eq_each`: both leave the same engine, with the same code.
-/

namespace ChronosVector

variable {F : Type} [FloatArith F]

namespace Engine

/-- `chronosv_append` on row `i` of the arrays of a batch. -/
def appendRow (e : Engine F) (env : Env F) (id : CString) (ts : Nat → Int64)
    (vecs : Option (Nat → F)) (dim : Nat) (payloads : Option (Nat → UInt8)) (i : Nat) :
    ErrorCode × Engine F :=
  e.chronosvAppend env id (ts i) (vecs.map fun v j => v (i * dim + j)) dim
    (payloads.map fun p j => p (i * e.cfg.payloadSizeBytes.toNat + j))

/-- The rows one by one, each in its own environment, up to the first error. -/
def appendEach (envs : Nat → Env F) (id : CString) (ts : Nat → Int64) (vecs : Option (Nat → F))
    (dim : Nat) (payloads : Option (Nat → UInt8)) : List Nat → Engine F → ErrorCode × Engine F
  | [], e => (.ok, e)
  | i :: rest, e =>
    match e.appendRow (envs i) id ts vecs dim payloads i with
    | (.ok, e') => appendEach envs id ts vecs dim payloads rest e'
    | (err, e') => (err, e')

variable {e e' : Engine F} {env : Env F} {s : SensorId} {r : SensorRing F}

/-! ## Rows and rings -/

/-- A ring without payload memory ignores the payload pointer. -/
theorem ingest_no_payload (h : r.shape.payloadSize = 0) (ts : Int64) (vec : Nat → F) (dim : Nat)
    (p : Nat → UInt8) : r.ingest ts vec dim (some p) = r.ingest ts vec dim none := by
  simp [SensorRing.ingest, SensorRing.append, h]

/-- `Append` on a row of the arrays stores what `AppendBatch` stores for it. -/
theorem ingest_batchRow (size : Nat) (h : r.shape.payloadSize = size) (ts : Nat → Int64) (vecs : Nat → F)
    (dim : Nat) (payloads : Option (Nat → UInt8)) (i : Nat) :
    r.ingest (ts i) (fun j => vecs (i * dim + j)) dim
        (payloads.map fun p j => p (i * size + j)) =
      r.ingest (ts i) (fun j => vecs (i * dim + j)) dim
        (batchRow ts vecs dim size payloads i).payload := by
  cases payloads with
  | none => rfl
  | some p =>
    simp only [batchRow, Option.map_some]
    split
    · rfl
    · exact ingest_no_payload (by omega) _ _ _ _

/-- The engine after `n` rows that left the sensor's ring as `r`. -/
def stored (e : Engine F) (s : SensorId) (r : SensorRing F) (n : Nat) : Engine F :=
  { e.setRing s r with totalAppends := e.totalAppends + n }

omit [FloatArith F] in
theorem lookup_stored {slot : SensorSlot F} (found : e.sensors.lookup s = some slot)
    (r : SensorRing F) (n : Nat) :
    (e.stored s r n).sensors.lookup s = some ⟨some r, slot.nextBlockId⟩ := by
  simp only [stored, setRing_eq found, lookup_setSlot_self]

omit [FloatArith F] in
theorem stored_stored (r r' : SensorRing F) (n m : Nat) :
    (e.stored s r n).stored s r' m = e.stored s r' (n + m) := by
  cases found : e.sensors.lookup s with
  | none => simp [stored, setRing, found, Nat.add_assoc]
  | some slot =>
    have again : (e.stored s r n).setRing s r' =
        (e.stored s r n).setSlot s ⟨some r', slot.nextBlockId⟩ := by
      rw [setRing_eq (lookup_stored found r n)]
    rw [stored, again]
    simp [stored, setRing_eq found, setSlot, Nat.add_assoc]

omit [FloatArith F] in
theorem stored_cfg (r : SensorRing F) (n : Nat) : (e.stored s r n).cfg = e.cfg := by
  rw [stored, setRing_frame]

omit [FloatArith F] in
theorem stored_closed (r : SensorRing F) (n : Nat) : (e.stored s r n).closed = e.closed := by
  rw [stored, setRing_frame]

theorem append_of_ring {dim : Nat} (opened : e.closed = false) (hd : dim = e.cfg.dim.toNat)
    (got : e.getOrCreateRing env s = .ok (e', r)) (ts : Int64) (vec : Nat → F)
    (payload : Option (Nat → UInt8)) :
    e.append env s ts vec dim payload = (.ok, e'.stored s (r.ingest ts vec dim payload) 1) := by
  simp [append, opened, hd, got, stored]

theorem appendBatch_of_ring {dim count : Nat} (opened : e.closed = false)
    (hd : dim = e.cfg.dim.toNat) (got : e.getOrCreateRing env s = .ok (e', r)) (ts : Nat → Int64)
    (vecs : Nat → F) (payloads : Option (Nat → UInt8)) :
    e.appendBatch env s (some ts) (some vecs) (count + 1) dim payloads =
      (.ok, e'.stored s (ingestAll dim ((List.range (count + 1)).map
        (batchRow ts vecs dim e.cfg.payloadSizeBytes.toNat payloads)) r) (count + 1)) := by
  simp [appendBatch, opened, hd, got, stored]

/-! ## The loop -/

/-- One row on a ring that was got or created. -/
theorem appendRow_of_ring {dim size : Nat} (opened : e.closed = false) (hd : dim = e.cfg.dim.toNat)
    (hs : e.cfg.payloadSizeBytes.toNat = size) (shape : r.shape.payloadSize = size)
    (got : e.getOrCreateRing env s = .ok (e', r)) (ts : Nat → Int64) (vecs : Nat → F)
    (payloads : Option (Nat → UInt8)) (i : Nat) :
    e.appendRow env (some s.bytes) ts (some vecs) dim payloads i =
      (.ok, e'.stored s (ingestAll dim [batchRow ts vecs dim size payloads i] r) 1) := by
  have positive : dim ≠ 0 := by
    have := e.cfg.dim_pos
    omega
  simp only [appendRow, chronosvAppend, Option.map_some, if_neg positive, withSensor,
    SensorId.parse_bytes, append_of_ring opened hd got, ingestAll, hs,
    ingest_batchRow size shape ts vecs dim payloads i]
  rfl

/-- **The loop on a registered ring** is the loop of `AppendBatch`. -/
theorem appendEach_of_ring {slot : SensorSlot F} {dim size : Nat} (opened : e.closed = false)
    (hd : dim = e.cfg.dim.toNat) (hs : e.cfg.payloadSizeBytes.toNat = size)
    (found : e.sensors.lookup s = some slot) (envs : Nat → Env F) (ts : Nat → Int64)
    (vecs : Nat → F) (payloads : Option (Nat → UInt8)) (rows : List Nat) (n : Nat)
    (shape : r.shape.payloadSize = size) :
    appendEach envs (some s.bytes) ts (some vecs) dim payloads rows (e.stored s r n) =
      (.ok, e.stored s (ingestAll dim (rows.map (batchRow ts vecs dim size payloads)) r)
        (n + rows.length)) := by
  induction rows generalizing r n with
  | nil => rfl
  | cons i rest ih =>
    have got : (e.stored s r n).getOrCreateRing (envs i) s = .ok (e.stored s r n, r) := by
      simp only [getOrCreateRing, lookup_stored found]
    have opened' : (e.stored s r n).closed = false := by rw [stored_closed, opened]
    have hd' : dim = (e.stored s r n).cfg.dim.toNat := by rw [stored_cfg, hd]
    have hs' : (e.stored s r n).cfg.payloadSizeBytes.toNat = size := by rw [stored_cfg, hs]
    have row := appendRow_of_ring opened' hd' hs' shape got ts vecs payloads i
    have shape' : (ingestAll dim [batchRow ts vecs dim size payloads i] r).shape.payloadSize =
        size := by rw [ingestAll_shape, shape]
    simp only [appendEach, row, stored_stored]
    rw [ih (n + 1) shape', List.length_cons, Nat.add_assoc, Nat.add_comm 1]
    rfl

/-! ## Both paths -/

variable {envs : Nat → Env F} {id : CString} {ts : Nat → Int64} {vecs : Option (Nat → F)}
  {count dim : Nat} {payloads : Option (Nat → UInt8)}

/-- An error of the first row is the outcome of the loop. -/
theorem appendEach_error {i : Nat} {rest : List Nat} (err : ErrorCode) (failed : err ≠ .ok)
    (row : e.appendRow (envs i) id ts vecs dim payloads i = (err, e)) :
    appendEach envs id ts vecs dim payloads (i :: rest) e = (err, e) := by
  simp only [appendEach, row]

/-- Both paths get a ring, or both report the same error. -/
theorem registered_eq_each (reachable : Reachable e) (vecs : Nat → F) (opened : e.closed = false)
    (hd : dim = e.cfg.dim.toNat) :
    e.appendBatch (envs 0) s (some ts) (some vecs) (count + 1) dim payloads =
      appendEach envs (some s.bytes) ts (some vecs) dim payloads
        (0 :: (List.range count).map Nat.succ) e := by
  have positive : dim ≠ 0 := by
    have := e.cfg.dim_pos
    omega
  cases got : e.getOrCreateRing (envs 0) s with
  | error err =>
    rw [appendEach_error err (getOrCreateRing_error got)]
    · simp [appendBatch, opened, hd, got]
    · simp [appendRow, chronosvAppend, positive, withSensor, append, opened, ← hd, got]
  | ok p =>
    obtain ⟨e', r⟩ := p
    have att := getOrCreateRing_attached (reachable_ok reachable) got
    have opened' : e'.closed = false := by
      have frame := congrArg Engine.closed (getOrCreateRing_frame got)
      exact frame.trans opened
    have shape : r.shape.payloadSize = e.cfg.payloadSizeBytes.toNat := by
      rw [(att.ok s r (ring_eq att.slot)).1, att.cfg]
      rfl
    have hd' : dim = e'.cfg.dim.toNat := by rw [att.cfg, hd]
    have hs' : e'.cfg.payloadSizeBytes.toNat = e.cfg.payloadSizeBytes.toNat := by rw [att.cfg]
    have row := appendRow_of_ring opened hd rfl shape got ts vecs payloads 0
    have shape' := (congrArg RingShape.payloadSize (ingestAll_shape (r := r) dim
      [batchRow ts vecs dim e.cfg.payloadSizeBytes.toNat payloads 0])).trans shape
    simp only [appendEach, row]
    rw [appendEach_of_ring opened' hd' hs' att.slot envs ts vecs payloads _ 1 shape']
    rw [appendBatch_of_ring opened hd got, List.length_map, List.length_range, Nat.add_comm 1,
      List.range_succ_eq_map]
    rfl

/-- Rows there are: the batch and the loop agree, state and code. -/
theorem batch_eq_each_of_pos (reachable : Reachable e) (id : CString) (vecs : Option (Nat → F))
    (dim : Nat) :
    e.chronosvAppendBatch (envs 0) id (some ts) vecs (count + 1) dim payloads =
      appendEach envs id ts vecs dim payloads (List.range (count + 1)) e := by
  rw [List.range_succ_eq_map]
  by_cases zero : dim = 0
  · rw [appendEach_error .invalidArg (by decide)]
    · simp [chronosvAppendBatch, zero]
    · cases vecs <;> simp [appendRow, chronosvAppend, zero]
  cases parsed : SensorId.parse id with
  | error err =>
    obtain rfl := SensorId.parse_invalid parsed
    rw [appendEach_error .invalidArg (by decide)]
    · simp [chronosvAppendBatch, zero, withSensor, parsed]
    · cases vecs <;> simp [appendRow, chronosvAppend, zero, withSensor, parsed]
  | ok s =>
    obtain rfl := SensorId.parse_ok parsed
    cases vecs with
    | none =>
      rw [appendEach_error .invalidArg (by decide)]
      · simp [chronosvAppendBatch, zero, withSensor]
      · simp [appendRow, chronosvAppend]
    | some vecs =>
      have inner : e.chronosvAppendBatch (envs 0) (some s.bytes) (some ts) (some vecs) (count + 1)
          dim payloads = e.appendBatch (envs 0) s (some ts) (some vecs) (count + 1) dim payloads := by
        simp [chronosvAppendBatch, zero, withSensor]
      rw [inner]
      cases closed : e.closed with
      | true =>
        rw [appendEach_error .closed (by decide)]
        · simp [appendBatch, closed]
        · simp [appendRow, chronosvAppend, zero, withSensor, append, closed]
      | false =>
        by_cases hd : dim = e.cfg.dim.toNat
        · exact registered_eq_each reachable vecs closed hd
        · rw [appendEach_error .dimMismatch (by decide)]
          · simp [appendBatch, closed, hd]
          · simp [appendRow, chronosvAppend, zero, withSensor, append, closed, hd]

/-- **A batch is its rows.** From every reachable state, `chronosv_append_batch`
leaves the engine that `chronosv_append` on the rows one by one leaves, with the
same code. No rows give no code, unless the call itself is a valid one. -/
theorem batch_eq_each (reachable : Reachable e) (envs : Nat → Env F) (id : CString)
    (ts : Nat → Int64) (vecs : Option (Nat → F)) (count dim : Nat)
    (payloads : Option (Nat → UInt8)) :
    (e.chronosvAppendBatch (envs 0) id (some ts) vecs count dim payloads).2 =
        (appendEach envs id ts vecs dim payloads (List.range count) e).2 ∧
      (0 < count ∨ (dim ≠ 0 ∧ ∃ s : SensorId, id = some s.bytes) →
        (e.chronosvAppendBatch (envs 0) id (some ts) vecs count dim payloads).1 =
          (appendEach envs id ts vecs dim payloads (List.range count) e).1) := by
  cases count with
  | succ count =>
    rw [batch_eq_each_of_pos reachable]
    exact ⟨rfl, fun _ => rfl⟩
  | zero =>
    constructor
    · simp only [chronosvAppendBatch, if_true, List.range_zero, appendEach]
      split
      · rfl
      · unfold withSensor
        split <;> rfl
    · intro valid
      obtain ⟨positive, s, rfl⟩ := valid.resolve_left (Nat.lt_irrefl 0)
      simp [chronosvAppendBatch, positive, withSensor, appendEach]

/-- A batch of 130 rows, which laps the ring of 64 twice. -/
theorem lapping_batch_eq_each :
    smallEngine.chronosvAppendBatch (.calm ℚ 0) (some sensorA.bytes) (some fun i => Int64.ofNat i)
        (some fun i => i) 130 1 none =
      appendEach (fun _ => .calm ℚ 0) (some sensorA.bytes) (fun i => Int64.ofNat i)
        (some fun i => i) 1 none (List.range 130) smallEngine := by
  have both := batch_eq_each (.created (smallEngine_created 0)) (fun _ => .calm ℚ 0)
    (some sensorA.bytes) (fun i => Int64.ofNat i) (some fun i => i) 130 1 none
  exact Prod.ext (both.2 (.inl (by decide))) both.1

/-! ## What a batch leaves in the window -/

theorem ingestedAll_length (dim : Nat) (rows : List (BatchRow F)) (r : SensorRing F) :
    (ingestedAll dim rows r).length = rows.length := by
  induction rows generalizing r with
  | nil => rfl
  | cons b rest ih => rw [ingestedAll, List.length_cons, ih, List.length_cons]

/-- A batch fills the window up to its capacity. -/
theorem appendBatch_fills {env : Env F} {e' : Engine F} (ok : e.Ok) (opened : e.closed = false)
    (get : e.getOrCreateRing env s = .ok (e', r)) (ts : Nat → Int64) (vecs : Nat → F)
    (payloads : Option (Nat → UInt8)) {m : Nat} (some_ : m ≠ 0) :
    let e'' := (e.appendBatch env s (some ts) (some vecs) m e.cfg.dim.toNat payloads).2
    (e''.tier s).hot.items.length =
        min e.cfg.shape.capacity ((e.tier s).hot.items.length + m) ∧
      e''.closed = false ∧ e''.cfg = e.cfg := by
  have att := getOrCreateRing_attached ok get
  obtain ⟨shape, rok⟩ := att.ok s r (by simp [ring_eq att.slot])
  rw [att.cfg] at shape
  let rows := (List.range m).map
    (batchRow ts vecs e.cfg.dim.toNat e.cfg.payloadSizeBytes.toNat payloads)
  have queue := ingestAll_queue rok e.cfg.dim.toNat rows
  rw [shape] at queue
  have tier := (att.store ((ingestAll_shape _ rows).trans shape) (ingestAll_ok rok _ rows) queue).1
  have result : (e.appendBatch env s (some ts) (some vecs) m e.cfg.dim.toNat payloads).2 =
      { e'.setRing s (ingestAll e.cfg.dim.toNat rows r) with
        totalAppends := e'.totalAppends + m } := by
    simp only [appendBatch, opened, get, some_, Bool.false_eq_true, if_false, ne_eq,
      not_true_eq_false]
    rfl
  have room : (e.tier s).hot.items.length ≤ e.cfg.shape.capacity := by
    rw [← att.queue, ← shape]
    exact SensorRing.window_length_le rok
  intro e''
  have after : e'' = _ := result
  refine ⟨?_, ?_, ?_⟩
  · rw [after]
    show ((e'.setRing s (ingestAll e.cfg.dim.toNat rows r)).tier s).hot.items.length = _
    rw [tier, Tier.pushAll_hot, BoundedQueue.pushAll_length _ room e.cfg.shape.capacity_pos,
      ingestedAll_length, List.length_map, List.length_range]
  · rw [after, setRing_eq att.slot, getOrCreateRing_frame get]
    exact opened
  · rw [after, setRing_eq att.slot]
    exact att.cfg

end Engine

end ChronosVector
