import ChronosVector.Factories
import ChronosVector.StatsRace

/-!
# Refused calls and closed handles

Every entry point checks its arguments and the closed flag in an order of its
own, some after a sensor was looked up or registered.

* `SparedBy`: a refused call leaves the engine as it was; one lemma an operation;
* `Request`: the calls together with `ListSensors` and `GetStats`, which read
  the engine without asking whether it is closed;
* `closed_answers`: which requests a closed handle answers with `closed`.
-/

namespace ChronosVector

variable {F : Type} [FloatArith F]

/-- An error other than `oom`, which an allocation may report at any point. -/
def ErrorCode.Refuses (c : ErrorCode) : Prop := c.value < 0 ∧ c ≠ .oom

instance (c : ErrorCode) : Decidable c.Refuses := inferInstanceAs (Decidable (_ ∧ _))

namespace Engine

variable {e e' : Engine F} {env : Env F} {s : SensorId}

/-! ## Refused calls -/

/-- The state after a call, unless the call is refused. -/
def SparedBy (e : Engine F) (r : ErrorCode × Engine F) : Prop := r.1.Refuses → r.2 = e

omit [FloatArith F] in
theorem spares_self (err : ErrorCode) : e.SparedBy (err, e) := fun _ => rfl

omit [FloatArith F] in
/-- A call that succeeds or warns has nothing to leave alone. -/
theorem spares_of_accepted {err : ErrorCode} (h : ¬ err.Refuses) : e.SparedBy (err, e') :=
  fun refused => absurd refused h

omit [FloatArith F] in
theorem withSensor_spares {id : CString} {f : SensorId → ErrorCode × Engine F}
    (h : ∀ s, e.SparedBy (f s)) : e.SparedBy (withSensor id e f) := by
  unfold withSensor
  split
  · exact spares_self _
  · exact h _

omit [FloatArith F] in
theorem preallocateSensor_spares : e.SparedBy (e.preallocateSensor env s) := by
  unfold preallocateSensor
  split
  · exact spares_self _
  split
  · exact spares_self _
  · exact spares_of_accepted (by decide)

theorem append_spares (ts : Int64) (vec : Nat → F) (dim : Nat) (payload : Option (Nat → UInt8)) :
    e.SparedBy (e.append env s ts vec dim payload) := by
  obtain ⟨same, -⟩ | ⟨e', r, n, -, post⟩ := append_cases e env s ts vec dim payload
  · exact fun _ => same
  · rw [post]
    exact spares_of_accepted (by decide)

theorem appendBatch_spares (ts : Option (Nat → Int64)) (vecs : Option (Nat → F)) (count dim : Nat)
    (payloads : Option (Nat → UInt8)) : e.SparedBy (e.appendBatch env s ts vecs count dim payloads) := by
  unfold appendBatch
  split
  · exact spares_self _
  split
  · exact spares_self _
  split
  · exact spares_self _
  split
  · split
    · exact spares_self _
    · exact spares_of_accepted (by decide)
  · exact spares_self _

theorem queryNearestN_spares (target : Option (Nat → F)) (dim : Nat) (n : Int) (outs : Bool) :
    e.SparedBy ((e.queryNearestN s target dim n outs).1, (e.queryNearestN s target dim n outs).2.2) := by
  unfold queryNearestN
  split
  · exact spares_self _
  split
  · exact spares_self _
  split
  · exact spares_self _
  split
  · exact spares_self _
  split
  · exact spares_self _
  · exact spares_self _
  · -- past the checks the code is a success or the partial warning
    dsimp only
    split
    · exact spares_self _
    · apply spares_of_accepted
      dsimp only
      split <;> decide

theorem queryRange_spares (tStart tEnd : Int64) (max : Int) (outs : Bool) :
    e.SparedBy ((e.queryRange s tStart tEnd max outs).1, (e.queryRange s tStart tEnd max outs).2.2) := by
  unfold queryRange
  split
  · exact spares_self _
  split
  · exact spares_self _
  split
  · exact spares_self _
  split
  · exact spares_self _
  · exact spares_self _
  · apply spares_of_accepted
    dsimp only
    split <;> decide

theorem detectAnomaly_spares (v : Option (Nat → F)) (dim : Nat) (threshold : F) (outs : Bool) :
    e.SparedBy ((e.detectAnomaly s v dim threshold outs).1,
      (e.detectAnomaly s v dim threshold outs).2.2) := by
  unfold detectAnomaly
  split
  · exact spares_self _
  split
  · exact spares_self _
  split
  · exact spares_self _
  split
  · exact spares_self _
  split
  · exact spares_self _
  · exact spares_self _
  · have accepted : ¬ ErrorCode.ok.Refuses := by decide
    dsimp only
    split
    · exact spares_of_accepted accepted
    · exact spares_of_accepted accepted

theorem maintainSlidingWindow_spares (windowMs : Int64) :
    e.SparedBy (e.maintainSlidingWindow env windowMs) := by
  unfold maintainSlidingWindow
  split
  · exact spares_self _
  split
  · exact spares_self _
  · exact spares_of_accepted (by decide)

omit [FloatArith F] in
theorem dropSensor_spares : e.SparedBy (e.dropSensor env s) := by
  unfold dropSensor
  split
  · exact spares_self _
  split
  · exact spares_self _
  · exact spares_of_accepted (by decide)

/-- **A refused call changes nothing**, whichever of its checks refused it. A
flush is the exception: its error comes after its pass. -/
theorem refused_unchanged (e : Engine F) (env : Env F) (c : Call F) (flushes : c ≠ .flush)
    (refused : (e.call env c).1.Refuses) : (e.call env c).2 = e := by
  have spared : e.SparedBy (e.call env c) := by
    cases c with
    | preallocateSensor id => exact withSensor_spares fun _ => preallocateSensor_spares
    | append id ts vec dim payload =>
      simp only [call, chronosvAppend]
      split
      · exact spares_self _
      split
      · exact spares_self _
      · exact withSensor_spares fun _ => append_spares ts _ dim payload
    | appendBatch id ts vecs count dim payloads =>
      simp only [call, chronosvAppendBatch]
      split
      · exact spares_self _
      · apply withSensor_spares
        intro s
        split
        · exact spares_self _
        split
        · exact spares_self _
        · exact appendBatch_spares ts vecs count dim payloads
    | queryNearestN id target dim n outs =>
      exact withSensor_spares fun _ => queryNearestN_spares target dim n outs
    | queryRange id tStart tEnd max outs =>
      simp only [call, chronosvQueryRange]
      split
      · exact spares_self _
      · exact queryRange_spares tStart tEnd max outs
    | detectAnomaly id v dim threshold outs =>
      exact withSensor_spares fun _ => detectAnomaly_spares v dim threshold outs
    | maintainSlidingWindow w => exact maintainSlidingWindow_spares w
    | flush => exact absurd rfl flushes
    | backgroundPass => exact spares_of_accepted (by decide)
    | dropSensor id => exact withSensor_spares fun _ => dropSensor_spares
    | close => exact spares_of_accepted (by decide)
  exact spared refused

theorem mismatch_unchanged :
    (smallAppended.call (.calm ℚ 0) (.append (some sensorA.bytes) 2 (some fun _ => 1) 2 none)).2 =
      smallAppended :=
  refused_unchanged _ _ _ (by simp) (by decide +kernel)

end Engine

/-! ## All requests -/

/-- `hot_bytes` of a ring. -/
def RingShape.hotBytes (sh : RingShape) : Nat :=
  let b := sh.capacity * (8 + sh.dim * sh.dtype.size + 4)
  let b := if sh.dtype = .int8 then b + sh.capacity * 4 else b
  if 0 < sh.payloadSize then b + sh.capacity * sh.payloadSize else b

/-- `chronosv_stats_t`, without the fields that no code sets. -/
structure Stats where
  uuid : Uuid
  abiVersion : UInt32
  sensorCount : UInt32
  sensorCap : UInt32
  totalAppends : Nat
  totalQueries : Nat
  totalAnomalyChecks : Nat
  totalEvictions : Nat
  totalDroppedSensors : Nat
  totalOverwriteEvents : Nat
  totalOverwrittenEntries : Nat
  hotBytes : Nat
  coldBytesEstimate : Nat
  flushErrorsTotal : Nat

/-- The entry points of a handle. `copies` is how many copied ids the allocator
serves, `coldBytes` the backend's estimate of its size. -/
inductive Request (F : Type)
  | call (c : Call F)
  | listSensors (outIds : Bool) (max : Nat) (outCount : Bool) (copies : Nat)
  | getStats (out : Bool) (coldBytes : Nat)

namespace Engine

variable (e : Engine F) (env : Env F)

/-- `ListSensors`, whose out-parameters are the array and the count. -/
def chronosvListSensors (outIds : Bool) (max : Nat) (outCount : Bool) (copies : Nat) :
    ErrorCode × Option (List SensorId) :=
  if outCount = false then (.invalidArg, none)
  else if 0 < max ∧ outIds = false then (.invalidArg, none)
  else
    let ids := e.listSensors env max
    if copies < ids.length then (.oom, some []) else (.ok, some ids)

/-- `GetStats`, with no other call going on. -/
def chronosvGetStats (out : Bool) (coldBytes : Nat) : ErrorCode × Option Stats :=
  if out = false then (.invalidArg, none)
  else
    (.ok, some
      { uuid := e.uuid
        abiVersion := chronosvAbiVersion
        sensorCount := UInt32.ofNat e.sensors.keys.length
        sensorCap := e.cfg.maxSensors
        totalAppends := e.totalAppends
        totalQueries := e.totalQueries
        totalAnomalyChecks := e.totalAnomalyChecks
        totalEvictions := e.totalEvictions
        totalDroppedSensors := e.totalDroppedSensors
        totalOverwriteEvents := e.lifetime.1
        totalOverwrittenEntries := e.lifetime.2
        hotBytes := e.liveSum fun slot =>
          match slot.ring with
          | none => 0
          | some r => r.shape.hotBytes
        coldBytesEstimate := if e.backend.persists then coldBytes else 0
        flushErrorsTotal := e.flushErrorsTotal })

/-- The code of a request and the state after it. -/
def request : Request F → ErrorCode × Engine F
  | .call c => e.call env c
  | .listSensors outIds max outCount copies =>
    ((e.chronosvListSensors env outIds max outCount copies).1, e)
  | .getStats out coldBytes => ((e.chronosvGetStats out coldBytes).1, e)

/-- Requests one after the other. -/
def requests : List (Env F × Request F) → Engine F → Engine F
  | [], e => e
  | (env, q) :: rest, e => requests rest (e.request env q).2

end Engine

/-! ## Closed handles -/

/-- The arguments are ones that an open engine of this configuration accepts. -/
def Request.Valid (cfg : ValidConfig) : Request F → Prop
  | .call c =>
    match c with
    | .preallocateSensor id => ∃ s : SensorId, id = some s.bytes
    | .append id _ vec dim _ => (∃ s : SensorId, id = some s.bytes) ∧ vec.isSome ∧ dim = cfg.dim.toNat
    | .appendBatch id ts vecs count dim _ =>
      (∃ s : SensorId, id = some s.bytes) ∧ dim = cfg.dim.toNat ∧
        (count = 0 ∨ ts.isSome ∧ vecs.isSome)
    | .queryNearestN id target dim n outs =>
      (∃ s : SensorId, id = some s.bytes) ∧ target.isSome ∧ dim = cfg.dim.toNat ∧ 0 < n ∧ outs
    | .queryRange id tStart tEnd max outs =>
      (∃ s : SensorId, id = some s.bytes) ∧ tStart ≤ tEnd ∧ 0 < max ∧ outs
    | .detectAnomaly id v dim _ outs =>
      (∃ s : SensorId, id = some s.bytes) ∧ v.isSome ∧ dim = cfg.dim.toNat ∧ outs
    | .maintainSlidingWindow windowMs => 0 ≤ windowMs.toInt
    | .flush => True
    | .dropSensor id => ∃ s : SensorId, id = some s.bytes
    -- the background thread is no entry point, and a repeated close is its own case
    | .backgroundPass | .close => False
  | .listSensors outIds max outCount _ => outCount ∧ (max = 0 ∨ outIds)
  | .getStats out _ => out

/-- The requests that return before any check of the closed flag. -/
def Request.Unguarded : Request F → Prop
  | .call (.appendBatch _ _ _ count _ _) => count = 0
  | .call _ => False
  | .listSensors _ _ _ _ => True
  | .getStats _ _ => True

namespace Engine

variable {e : Engine F}

omit [FloatArith F] in
theorem withSensor_same {id : CString} {f : SensorId → ErrorCode × Engine F}
    (h : ∀ s, (f s).2 = e) : (withSensor id e f).2 = e := by
  unfold withSensor
  split
  · rfl
  · exact h _

/-- Nothing changes a closed engine, whatever the arguments. -/
theorem call_closed (closed : e.closed = true) (env : Env F) (c : Call F) :
    (e.call env c).2 = e := by
  cases c with
  | preallocateSensor id =>
    exact withSensor_same fun s => by simp only [preallocateSensor, closed, if_true]
  | append id ts vec dim payload =>
    simp only [call, chronosvAppend]
    split
    · rfl
    split
    · rfl
    · exact withSensor_same fun s => by simp only [append, closed, if_true]
  | appendBatch id ts vecs count dim payloads =>
    simp only [call, chronosvAppendBatch]
    split
    · rfl
    · apply withSensor_same
      intro s
      split
      · rfl
      split
      · rfl
      · simp only [appendBatch, closed, if_true]
  | queryNearestN id target dim n outs =>
    exact withSensor_same fun s => by simp only [queryNearestN, closed, if_true]
  | queryRange id tStart tEnd max outs =>
    simp only [call, chronosvQueryRange]
    split
    · rfl
    · simp only [queryRange, closed, if_true]
  | detectAnomaly id v dim threshold outs =>
    exact withSensor_same fun s => by simp only [detectAnomaly, closed, if_true]
  | maintainSlidingWindow w => simp only [call, maintainSlidingWindow, closed, if_true]
  | flush => simp only [call, flush, closed, if_true]
  | backgroundPass => simp only [call, backgroundPass, closed, if_true]
  | dropSensor id => exact withSensor_same fun s => by simp only [dropSensor, closed, if_true]
  | close => simp only [call, close, ← closed]

theorem request_closed (closed : e.closed = true) (env : Env F) (q : Request F) :
    (e.request env q).2 = e := by
  cases q with
  | call c => exact call_closed closed env c
  | listSensors | getStats => rfl

theorem requests_closed (closed : e.closed = true) (later : List (Env F × Request F)) :
    requests later e = e := by
  induction later with
  | nil => rfl
  | cons x rest ih => rw [requests, request_closed closed, ih]

/-- The code of a valid request to a closed engine. -/
theorem valid_closed (closed : e.closed = true) (env : Env F) {q : Request F}
    (valid : q.Valid e.cfg) : (e.request env q).1 = .closed ↔ ¬ q.Unguarded := by
  have dimPos : e.cfg.dim.toNat ≠ 0 := Nat.pos_iff_ne_zero.mp e.cfg.dim_pos
  cases q with
  | listSensors outIds max outCount copies =>
    obtain ⟨rfl, room⟩ := valid
    have served : ¬ (0 < max ∧ outIds = false) := by
      intro ⟨pos, null⟩
      obtain rfl | rfl := room
      · exact Nat.lt_irrefl 0 pos
      · cases null
    simp only [request, chronosvListSensors, reduceCtorEq, if_false, served, Request.Unguarded,
      not_true, iff_false]
    split <;> simp
  | getStats out coldBytes =>
    have out : out = true := valid
    simp [request, chronosvGetStats, out, Request.Unguarded]
  | call c =>
    cases c with
    | preallocateSensor id =>
      obtain ⟨s, rfl⟩ := valid
      simp [request, call, withSensor, preallocateSensor, closed, Request.Unguarded]
    | append id ts vec dim payload =>
      obtain ⟨⟨s, rfl⟩, given, rfl⟩ := valid
      obtain ⟨vec, rfl⟩ := Option.isSome_iff_exists.mp given
      simp [request, call, chronosvAppend, dimPos, withSensor, append, closed, Request.Unguarded]
    | appendBatch id ts vecs count dim payloads =>
      obtain ⟨⟨s, rfl⟩, rfl, arrays⟩ := valid
      by_cases empty : count = 0
      · simp [request, call, chronosvAppendBatch, dimPos, withSensor, empty, Request.Unguarded]
      · obtain ⟨given, given'⟩ := arrays.resolve_left empty
        obtain ⟨ts, rfl⟩ := Option.isSome_iff_exists.mp given
        obtain ⟨vecs, rfl⟩ := Option.isSome_iff_exists.mp given'
        simp [request, call, chronosvAppendBatch, dimPos, withSensor, empty, appendBatch, closed,
          Request.Unguarded]
    | queryNearestN id target dim n outs =>
      obtain ⟨⟨s, rfl⟩, -⟩ := valid
      simp [request, call, withSensor, queryNearestN, closed, Request.Unguarded]
    | queryRange id tStart tEnd max outs =>
      obtain ⟨⟨s, rfl⟩, -⟩ := valid
      simp [request, call, chronosvQueryRange, queryRange, closed, Request.Unguarded]
    | detectAnomaly id v dim threshold outs =>
      obtain ⟨⟨s, rfl⟩, -⟩ := valid
      simp [request, call, withSensor, detectAnomaly, closed, Request.Unguarded]
    | maintainSlidingWindow w =>
      simp [request, call, maintainSlidingWindow, closed, Request.Unguarded]
    | flush => simp [request, call, flush, closed, Request.Unguarded]
    | dropSensor id =>
      obtain ⟨s, rfl⟩ := valid
      simp [request, call, withSensor, dropSensor, closed, Request.Unguarded]
    | backgroundPass | close => exact valid.elim

/-- **Closed means closed, but for three requests.** After a close and whatever
follows it, a valid request is answered with `closed` and changes nothing
exactly when it is not one of the unguarded ones. Another close succeeds. -/
theorem closed_answers (e : Engine F) (env₀ env : Env F) (later : List (Env F × Request F))
    {q : Request F} (valid : q.Valid e.cfg) {e' : Engine F}
    (after : e' = requests later (e.request env₀ (.call .close)).2) :
    (e'.request env q = (.closed, e') ↔ ¬ q.Unguarded) ∧
      e'.request env (.call .close) = (.ok, e') := by
  have same : e' = { e with closed := true } := by
    rw [after, requests_closed rfl]
    rfl
  have closed : e'.closed = true := by rw [same]
  have unchanged := fun q => request_closed closed env q
  constructor
  · rw [← valid_closed closed env (by rw [same]; exact valid), Prod.ext_iff]
    exact and_iff_left (unchanged q)
  · exact Prod.ext rfl (unchanged (.call .close))

/-- The small engine, closed. -/
def smallClosed : Engine ℚ := (smallEngine.request (.calm ℚ 0) (.call .close)).2

theorem flush_after_close :
    (smallClosed.request (.calm ℚ 0) (.call .flush) = (.closed, smallClosed) ↔
        ¬ (Request.call (.flush : Call ℚ)).Unguarded) ∧
      smallClosed.request (.calm ℚ 0) (.call .close) = (.ok, smallClosed) :=
  closed_answers smallEngine (.calm ℚ 0) (.calm ℚ 0) [] (q := .call .flush) trivial rfl

/-- Three valid requests that a closed handle serves. -/
theorem served_after_close :
    ((Request.getStats true 0 : Request ℚ).Valid smallEngine.cfg ∧
      (smallClosed.request (.calm ℚ 0) (.getStats true 0)).1 = .ok) ∧
    ((Request.listSensors true 1 true 1 : Request ℚ).Valid smallEngine.cfg ∧
      (smallClosed.request (.calm ℚ 0) (.listSensors true 1 true 1)).1 = .ok) ∧
    ((Request.call (.appendBatch (some sensorA.bytes) none none 0 1 none) : Request ℚ).Valid
        smallEngine.cfg ∧
      (smallClosed.request (.calm ℚ 0)
        (.call (.appendBatch (some sensorA.bytes) none none 0 1 none))).1 = .ok) := by
  refine ⟨⟨rfl, by decide +kernel⟩, ⟨⟨rfl, .inr rfl⟩, by decide +kernel⟩, ?_⟩
  exact ⟨⟨⟨sensorA, rfl⟩, by decide, .inl rfl⟩, by decide +kernel⟩

end Engine

end ChronosVector
