import ChronosVector.FailedWrites

/-!
# What the sink is told of evictions

The callbacks of an eviction pass, in the order they are made. `on_overwrite` has
a module of its own.

* `Engine.evictSensorEvents`, `Engine.sinkEvents`: the callbacks of a sensor and
  of a call;
* `evictSensor_tells`: what is told of one sensor, and what the counters make of
  it;
* `sink_accounts`: after any run, the sink can tell how many blocks were evicted,
  how many writes failed and how many entries of a sensor are gone.
-/

namespace ChronosVector

variable {F : Type}

/-- A callback of an eviction pass. -/
inductive SinkEvent
  | eviction (s : SensorId) (evictedCount blockBytes : Nat)
  | flushError (s : SensorId) (err : ErrorCode)
  deriving DecidableEq

namespace SinkEvent

def isEviction : SinkEvent → Bool
  | .eviction .. => true
  | .flushError .. => false

def isFlushError : SinkEvent → Bool
  | .eviction .. => false
  | .flushError .. => true

/-- The entries of `s` that the event reports as evicted. -/
def evicted (s : SensorId) : SinkEvent → Nat
  | .eviction t count _ => if t = s then count else 0
  | .flushError .. => 0

/-- Those that it reports as evicted into a block of no bytes. -/
def lost (s : SensorId) : SinkEvent → Nat
  | .eviction t count bytes => if t = s ∧ bytes = 0 then count else 0
  | .flushError .. => 0

end SinkEvent

/-- The `block_bytes` reported for a block of `count` entries. -/
def RingShape.blockBytes (sh : RingShape) (count : Nat) : Nat :=
  40 + count * (8 + sh.dim * sh.dtype.size + (if 0 < sh.payloadSize then sh.payloadSize else 0)) + 4

variable [FloatArith F]

namespace Engine

variable (e : Engine F) (env : Env F)

/-- The callbacks of `EvictSensor`. -/
def evictSensorEvents (s : SensorId) (slot : SensorSlot F) (windowMs : Int64) : List SinkEvent :=
  match slot.ring with
  | none => []
  | some r =>
    let b := r.snapshot.1
    if b = r.snapshot.2 then []
    else if r.newTail windowMs = b then []
    else
      let evicted := r.newTail windowMs - b
      let sc := e.evictScratch.reserve r.shape evicted (env.scratchMemory s)
      if env.scratchMemory s < 4 then []
      else
        let blk := (sc.copyRows r b evicted).block r s slot.nextBlockId evicted
        let rc := (e.backend.writeBlock (env.storage.writeBlock s) blk).1
        if rc = .ok then [.eviction s evicted (r.shape.blockBytes evicted)]
        else [.flushError s rc, .eviction s evicted 0]

/-- The callbacks of a pass. -/
def evictSensorsEvents (windowMs : Int64) : List SensorId → Engine F → List SinkEvent
  | [], _ => []
  | s :: rest, e =>
    match e.sensors.lookup s with
    | none => evictSensorsEvents windowMs rest e
    | some slot =>
      e.evictSensorEvents env s slot windowMs ++
        evictSensorsEvents windowMs rest (e.evictSensor env s slot windowMs).1

/-- The callbacks of a call. -/
def sinkEvents (c : Call F) : List SinkEvent :=
  match e.pass c with
  | none => []
  | some (e', w) => evictSensorsEvents env w (env.order e'.sensors.keys) e'

/-- The callbacks of a run. -/
def sinkRun : List (Env F × Call F) → Engine F → List SinkEvent
  | [], _ => []
  | (env, c) :: rest, e => e.sinkEvents env c ++ sinkRun rest (e.call env c).2

end Engine

/-! ## One sensor -/

/-- What is told of a sensor of which `n` entries are evicted, and what the two
counters go to. -/
inductive Engine.Tells (e : Engine F) (env : Env F) (s : SensorId) (n : Nat) (e' : Engine F) :
    List SinkEvent → Prop
  | nothing (none : n = 0) (evictions : e'.totalEvictions = e.totalEvictions)
      (flushErrors : e'.flushErrorsTotal = e.flushErrorsTotal) : Tells e env s n e' []
  | wrote (bytes : Nat) (stored : 0 < bytes)
      (ok : e.backend.persists = true → env.storage.writeBlock s = .ok)
      (evictions : e'.totalEvictions = e.totalEvictions + 1)
      (flushErrors : e'.flushErrorsTotal = e.flushErrorsTotal) :
      Tells e env s n e' [.eviction s n bytes]
  | failed (persists : e.backend.persists = true) (error : env.storage.writeBlock s ≠ .ok)
      (evictions : e'.totalEvictions = e.totalEvictions + 1)
      (flushErrors : e'.flushErrorsTotal = e.flushErrorsTotal + 1) :
      Tells e env s n e' [.flushError s (env.storage.writeBlock s), .eviction s n 0]

/-- What the events tell of sensor `s` when a pass takes `n` of its entries. -/
structure Told (persists : Bool) (status : ErrorCode) (s : SensorId) (n : Nat)
    (events : List SinkEvent) : Prop where
  evicted : (events.map (SinkEvent.evicted s)).sum = n
  lost : (events.map (SinkEvent.lost s)).sum = if persists ∧ status ≠ .ok then n else 0

/-- Nothing is told of `s`. -/
structure SinkEvent.Silent (s : SensorId) (events : List SinkEvent) : Prop where
  evicted : (events.map (SinkEvent.evicted s)).sum = 0
  lost : (events.map (SinkEvent.lost s)).sum = 0

section
variable {s : SensorId} {persists : Bool} {status : ErrorCode} {n : Nat}
  {events later : List SinkEvent}

theorem SinkEvent.Silent.append (h : Silent s events) (h' : Silent s later) :
    Silent s (events ++ later) where
  evicted := by rw [List.map_append, List.sum_append, h.evicted, h'.evicted]
  lost := by rw [List.map_append, List.sum_append, h.lost, h'.lost]

theorem Told.append (h : Told persists status s n events) (h' : SinkEvent.Silent s later) :
    Told persists status s n (events ++ later) where
  evicted := by rw [List.map_append, List.sum_append, h'.evicted, Nat.add_zero, h.evicted]
  lost := by rw [List.map_append, List.sum_append, h'.lost, Nat.add_zero, h.lost]

theorem Told.after (h : Told persists status s n later) (h' : SinkEvent.Silent s events) :
    Told persists status s n (events ++ later) where
  evicted := by rw [List.map_append, List.sum_append, h'.evicted, Nat.zero_add, h.evicted]
  lost := by rw [List.map_append, List.sum_append, h'.lost, Nat.zero_add, h.lost]

end

namespace Engine

variable {e e' : Engine F} {env : Env F} {s : SensorId} {w : Int64} {n : Nat}
  {events later : List SinkEvent}

omit [FloatArith F] in
theorem Tells.told (h : e.Tells env s n e' events) :
    Told e.backend.persists (env.storage.writeBlock s) s n events := by
  cases h with
  | nothing none => exact ⟨none.symm, by simp [none]⟩
  | wrote bytes stored ok =>
    have some : bytes ≠ 0 := by omega
    refine ⟨by simp [SinkEvent.evicted], ?_⟩
    rw [if_neg fun failed => failed.2 (ok failed.1)]
    simp [SinkEvent.lost, some]
  | failed persists error =>
    refine ⟨by simp [SinkEvent.evicted], ?_⟩
    rw [if_pos ⟨persists, error⟩]
    simp [SinkEvent.lost]

omit [FloatArith F] in
theorem Tells.others (h : e.Tells env s n e' events) {t : SensorId} (other : s ≠ t) :
    SinkEvent.Silent t events := by
  cases h <;> exact ⟨by simp [SinkEvent.evicted, other], by simp [SinkEvent.lost, other]⟩

omit [FloatArith F] in
theorem Tells.eviction (h : e.Tells env s n e' events) (some : n ≠ 0) :
    ∃ bytes, .eviction s n bytes ∈ events := by
  cases h with
  | nothing none => exact absurd none some
  | wrote bytes => exact ⟨bytes, List.mem_singleton.mpr rfl⟩
  | failed => exact ⟨0, List.mem_cons_of_mem _ (List.mem_singleton.mpr rfl)⟩

omit [FloatArith F] in
/-- Each block is counted once, and each failed write. -/
theorem Tells.counters (h : e.Tells env s n e' events) :
    e'.totalEvictions = e.totalEvictions + events.countP SinkEvent.isEviction ∧
      e'.flushErrorsTotal = e.flushErrorsTotal + events.countP SinkEvent.isFlushError := by
  cases h with
  | nothing _ evictions flushErrors => exact ⟨evictions, flushErrors⟩
  | wrote _ _ _ evictions flushErrors => exact ⟨evictions, flushErrors⟩
  | failed _ _ evictions flushErrors => exact ⟨evictions, flushErrors⟩

theorem evictSensorEvents_nothing {slot : SensorSlot F} (h : slot.due w = 0)
    (ok : ∀ r, slot.ring = some r → r.Ok) : e.evictSensorEvents env s slot w = [] := by
  obtain ⟨ring, next⟩ := slot
  cases ring with
  | none => rfl
  | some r =>
    simp only [SensorSlot.due] at h
    have tail := SensorRing.newTail_eq (ok r rfl) w
    have same : r.newTail w = r.snapshot.1 := by omega
    simp only [evictSensorEvents, same, if_true, ite_self]

theorem writeBlock_code {blk : Block F} (complete : blk.Complete) (status : ErrorCode)
    (bk : Backend F) : (bk.writeBlock status blk).1 = if bk.persists then status else .ok := by
  cases bk with
  | null => rfl
  | rocksdb db =>
    by_cases ok : status = .ok
    · simp [Backend.writeBlock, complete, ok, Backend.persists]
    · simp [Backend.writeBlock, complete, ok, Backend.persists]

section
variable {r : SensorRing F} {next : Nat}

theorem evictSensorEvents_due (ok : r.Ok) (h : SensorSlot.due ⟨some r, next⟩ w = n) (pos : 0 < n)
    (memory : ¬ env.scratchMemory s < 4) :
    e.evictSensorEvents env s ⟨some r, next⟩ w =
      let rc := if e.backend.persists then env.storage.writeBlock s else .ok
      if rc = .ok then [.eviction s n (r.shape.blockBytes n)]
      else [.flushError s rc, .eviction s n 0] := by
  simp only [SensorSlot.due] at h
  have tail := SensorRing.newTail_eq ok w
  have inside := evictCount_le w r.window
  have width := SensorRing.window_length (r := r)
  have moved : r.newTail w = r.snapshot.1 + n := by omega
  have nonempty : ¬ r.snapshot.1 = r.snapshot.2 := by omega
  have advanced : ¬ r.snapshot.1 + n = r.snapshot.1 := by omega
  simp only [evictSensorEvents, moved, nonempty, advanced, memory, if_false,
    Nat.add_sub_cancel_left,
    writeBlock_code (EvictScratch.block_complete s next n) (env.storage.writeBlock s)]

theorem persistEvicted_tells (sc : EvictScratch F) (ok : r.Ok)
    (h : SensorSlot.due ⟨some r, next⟩ w = n) (pos : 0 < n)
    (memory : ¬ env.scratchMemory s < 4) :
    e.Tells env s n (e.persistEvicted env s next r (r.snapshot.1 + n) sc).1
      (e.evictSensorEvents env s ⟨some r, next⟩ w) := by
  have code := writeBlock_code (EvictScratch.block_complete s next n : (sc.block r s next n).Complete)
    (env.storage.writeBlock s) e.backend
  have failures : (e.persistEvicted env s next r (r.snapshot.1 + n) sc).1.flushErrorsTotal =
      if (if e.backend.persists then env.storage.writeBlock s else .ok) = .ok
        then e.flushErrorsTotal else e.flushErrorsTotal + 1 := by
    simp only [persistEvicted, Nat.add_sub_cancel_left, code]
  have bytes : 0 < r.shape.blockBytes n := by
    unfold RingShape.blockBytes
    omega
  rw [evictSensorEvents_due ok h pos memory]
  by_cases persists : e.backend.persists = true
  · simp only [persists, if_true] at failures ⊢
    by_cases stored : env.storage.writeBlock s = .ok
    · rw [if_pos stored] at failures ⊢
      exact .wrote _ bytes (fun _ => stored) rfl failures
    · rw [if_neg stored] at failures ⊢
      exact .failed persists stored rfl failures
  · simp only [persists] at failures ⊢
    exact .wrote _ bytes (fun persists' => absurd persists' persists) rfl failures

end

/-- **One sensor of a pass.** -/
theorem evictSensor_tells (env : Env F) (w : Int64) {slot : SensorSlot F} (ok : e.Ok)
    (found : e.sensors.lookup s = some slot) :
    e.Tells env s ((e.tier s).evictedCount env w s) (e.evictSensor env s slot w).1
      (e.evictSensorEvents env s slot w) := by
  have rings : ∀ r, slot.ring = some r → r.Ok := fun r ring =>
    (ok s r ((ring_eq found).trans ring)).2
  have due : slot.due w = evictCount w (e.tier s).hot.items := due_eq ok found
  obtain none | pos := Nat.eq_zero_or_pos (slot.due w)
  · rw [evictSensor_nothing none rings, evictSensorEvents_nothing none rings, Tier.evictedCount,
      ← due, none, ite_self]
    exact .nothing rfl rfl rfl
  obtain ⟨ring, next⟩ := slot
  cases ring with
  | none => cases pos
  | some r =>
    rw [evictSensor_due (rings r rfl) rfl pos]
    by_cases memory : env.scratchMemory s < 4
    · have skipped : e.evictSensorEvents env s ⟨some r, next⟩ w = [] := by
        simp only [evictSensorEvents, memory, if_true, ite_self]
      rw [if_pos memory, skipped, Tier.evictedCount, if_pos memory]
      exact .nothing rfl rfl rfl
    · rw [if_neg memory, Tier.evictedCount, if_neg memory, ← due]
      exact persistEvicted_tells _ (rings r rfl) rfl pos memory

/-! ## A pass -/

/-- **What a pass tells**: each sensor of `ids` once, with the entries it took of
it, and of the others nothing. -/
theorem evictSensors_told (env : Env F) (w : Int64) {ids : List SensorId} (nodup : ids.Nodup)
    (ok : e.Ok) :
    let e' := (evictSensors env w ids e).1
    let events := evictSensorsEvents env w ids e
    e'.totalEvictions = e.totalEvictions + events.countP SinkEvent.isEviction ∧
    e'.flushErrorsTotal = e.flushErrorsTotal + events.countP SinkEvent.isFlushError ∧
    (∀ s, s ∉ ids → SinkEvent.Silent s events) ∧
    ∀ s ∈ ids, Told e.backend.persists (env.storage.writeBlock s) s
      ((e.tier s).evictedCount env w s) events := by
  induction ids generalizing e with
  | nil => exact ⟨rfl, rfl, fun _ _ => ⟨rfl, rfl⟩, nofun⟩
  | cons s₀ rest ih =>
    obtain ⟨fresh, nodup'⟩ := List.nodup_cons.mp nodup
    cases found : e.sensors.lookup s₀ with
    | none =>
      obtain ⟨evictions, flushErrors, silent, told⟩ := ih nodup' ok
      simp only [evictSensors, evictSensorsEvents, found]
      refine ⟨evictions, flushErrors, fun s out => silent s (List.not_mem_of_not_mem_cons out), ?_⟩
      intro s mem
      obtain rfl | mem := List.mem_cons.mp mem
      · -- a sensor that the map no longer has
        have none : (e.tier s).evictedCount env w s = 0 := by
          rw [Tier.evictedCount, hot_of_lookup_none found, BoundedQueue.empty_items, evictCount_nil,
            ite_self]
        obtain ⟨evicted, lost⟩ := silent s fresh
        rw [none]
        exact ⟨evicted, by rw [lost, ite_self]⟩
      · exact told s mem
    | some slot =>
      have first := evictSensor_tells env w ok found
      obtain ⟨-, others, ok', frame⟩ := evictSensor_evicts env w ok found
      obtain ⟨evictions, flushErrors, silent, told⟩ := ih nodup' ok'
      obtain ⟨evictions₀, flushErrors₀⟩ := first.counters
      simp only [evictSensors, evictSensorsEvents, found]
      refine ⟨?_, ?_, ?_, ?_⟩
      · rw [evictions, evictions₀, List.countP_append, Nat.add_assoc]
      · rw [flushErrors, flushErrors₀, List.countP_append, Nat.add_assoc]
      · intro s out
        obtain ⟨other, out⟩ := not_or.mp (List.mem_cons.not.mp out)
        exact (first.others (Ne.symm other)).append (silent s out)
      · intro s mem
        obtain rfl | mem := List.mem_cons.mp mem
        · exact first.told.append (silent s fresh)
        · have other : s₀ ≠ s := fun same => fresh (same ▸ mem)
          have later := told s mem
          rw [others s (Ne.symm other), frame.persists] at later
          exact later.after (first.others other)

/-! ## A call -/

/-- How many entries of `s` a call evicts. -/
def evictedBy (e : Engine F) (env : Env F) (c : Call F) (s : SensorId) : Nat :=
  match e.pass c with
  | none => 0
  | some (_, w) => (e.tier s).evictedCount env w s

/-- The two counters are as before. -/
structure CountersKept (e e' : Engine F) : Prop where
  evictions : e'.totalEvictions = e.totalEvictions
  flushErrors : e'.flushErrorsTotal = e.flushErrorsTotal

omit [FloatArith F] in
theorem getOrCreateRing_keeps {r : SensorRing F} (h : e.getOrCreateRing env s = .ok (e', r)) :
    CountersKept e e' := by
  rw [getOrCreateRing_frame h]
  exact ⟨rfl, rfl⟩

theorem Ingests.keeps {c : Call F} (h : Ingests e env c) : CountersKept e (e.call env c).2 := by
  cases h with
  | idle same =>
    rw [same]
    exact ⟨rfl, rfl⟩
  | stored s e' r r' xs n get post =>
    obtain ⟨evictions, flushErrors⟩ := getOrCreateRing_keeps get
    rw [post, setRing_frame]
    exact ⟨evictions, flushErrors⟩

theorem query_keeps {c : Call F} (query : c.IsQuery) (env : Env F) :
    CountersKept e (e.call env c).2 := by
  obtain same | same | same := e.query_counts query env <;>
  · rw [same]
    exact ⟨rfl, rfl⟩

omit [FloatArith F] in
theorem pass_keeps {c : Call F} (h : e.pass c = some (e', w)) : CountersKept e e' := by
  cases c with
  | flush | backgroundPass =>
    simp only [pass] at h
    split at h
    · cases h
    · cases h
      exact ⟨rfl, rfl⟩
  | maintainSlidingWindow w' =>
    simp only [pass] at h
    split at h
    · cases h
    · split at h
      · cases h
      · cases h
        exact ⟨rfl, rfl⟩
  | _ => cases h

/-- Only a pass moves the counters. -/
theorem call_keeps {c : Call F} (noPass : e.pass c = none) (env : Env F) :
    CountersKept e (e.call env c).2 := by
  cases c with
  | append id ts vec dim payload => exact (append_ingests e env id ts vec dim payload).keeps
  | appendBatch id ts vecs count dim payloads =>
    exact (appendBatch_ingests e env id ts vecs count dim payloads).keeps
  | flush | maintainSlidingWindow | backgroundPass =>
    rw [call_of_no_pass (by trivial) env noPass]
    exact ⟨rfl, rfl⟩
  | queryNearestN | queryRange | detectAnomaly => exact query_keeps (by trivial) env
  | close => exact ⟨rfl, rfl⟩
  | preallocateSensor id =>
    simp only [call, withSensor]
    split
    · exact ⟨rfl, rfl⟩
    · simp only [preallocateSensor]
      split
      · exact ⟨rfl, rfl⟩
      · split
        · exact ⟨rfl, rfl⟩
        · rename_i get
          exact getOrCreateRing_keeps get
  | dropSensor id =>
    simp only [call, withSensor]
    split
    · exact ⟨rfl, rfl⟩
    · obtain same | ⟨-, bk, n, m, k, same, -⟩ := dropSensor_cases _ env <;>
      · rw [same]
        exact ⟨rfl, rfl⟩

/-- **What a call tells.** -/
theorem call_told (ok : e.Ok) (env : Env F) (c : Call F) :
    (e.call env c).2.totalEvictions =
      e.totalEvictions + (e.sinkEvents env c).countP SinkEvent.isEviction ∧
    (e.call env c).2.flushErrorsTotal =
      e.flushErrorsTotal + (e.sinkEvents env c).countP SinkEvent.isFlushError ∧
    ∀ s, Told e.backend.persists (env.storage.writeBlock s) s (e.evictedBy env c s)
      (e.sinkEvents env c) := by
  cases pass : e.pass c with
  | none =>
    obtain ⟨evictions, flushErrors⟩ := call_keeps pass env
    simp only [sinkEvents, evictedBy, pass]
    exact ⟨evictions, flushErrors, fun s => ⟨rfl, by rw [ite_self]; rfl⟩⟩
  | some start =>
    obtain ⟨e', w⟩ := start
    obtain ⟨sensors, backend, -, -, -⟩ := pass_start pass
    have counters := pass_keeps pass
    have tier : ∀ s, e'.tier s = e.tier s := fun s => tier_congr (by rw [sensors]) (by rw [backend])
    have nodup : (env.order e'.sensors.keys).Nodup :=
      (env.order_perm _).nodup_iff.mpr e'.sensors.keys_nodup
    obtain ⟨evictions, flushErrors, silent, told⟩ :=
      evictSensors_told env w nodup (ok_of_pass pass ok)
    rw [(call_of_pass env pass).1]
    simp only [sinkEvents, evictedBy, pass]
    rw [counters.evictions] at evictions
    rw [counters.flushErrors] at flushErrors
    refine ⟨evictions, flushErrors, fun s => ?_⟩
    by_cases mem : s ∈ env.order e'.sensors.keys
    · rw [← tier s, ← backend]
      exact told s mem
    · -- a sensor that the map does not have
      have gone : e'.sensors.lookup s = none :=
        AList.lookup_eq_none.mpr fun key => mem ((env.order_perm _).mem_iff.mpr key)
      have none : (e.tier s).evictedCount env w s = 0 := by
        rw [← tier s, Tier.evictedCount, hot_of_lookup_none gone, BoundedQueue.empty_items,
          evictCount_nil, ite_self]
      obtain ⟨evicted, lost⟩ := silent s mem
      rw [none]
      exact ⟨evicted, by rw [lost, ite_self]⟩

/-! ## A run -/

theorem run_told (ok : e.Ok) (calls : List (Env F × Call F)) :
    (run calls e).totalEvictions =
      e.totalEvictions + (sinkRun calls e).countP SinkEvent.isEviction ∧
    (run calls e).flushErrorsTotal =
      e.flushErrorsTotal + (sinkRun calls e).countP SinkEvent.isFlushError := by
  induction calls generalizing e with
  | nil => exact ⟨rfl, rfl⟩
  | cons x rest ih =>
    obtain ⟨evictions, flushErrors, -⟩ := call_told ok x.1 x.2
    obtain ⟨evictions', flushErrors'⟩ := ih (call_frame ok x.1 x.2).ok
    simp only [run, sinkRun, List.countP_append]
    exact ⟨by rw [evictions', evictions, Nat.add_assoc],
      by rw [flushErrors', flushErrors, Nat.add_assoc]⟩

/-- What a call appends is in the window, overwritten or evicted. -/
theorem call_window (ok : e.Ok) (env : Env F) {c : Call F} (kept : c.drops s = false) :
    (e.tier s).hot.items.length + (e.tier s).hot.dropped + (e.appended env c s).length =
      ((e.call env c).2.tier s).hot.items.length + ((e.call env c).2.tier s).hot.dropped +
        e.evictedBy env c s := by
  have step := call_step ok env c s
  generalize (e.call env c).2.tier s = t' at step
  cases step with
  | append noPass =>
    have pushed := BoundedQueue.pushAll_count (q := (e.tier s).hot) e.cfg.shape.capacity_pos
      (e.appended env c s)
    rw [← Tier.pushAll_hot] at pushed
    simp only [evictedBy, noPass]
    omega
  | evict e' w own _ pass silent evicts =>
    have le := (e.tier s).evictedCount_le env w s
    simp only [evictedBy, pass, silent, List.length_nil]
    cases evicts with
    | idle zero => omega
    | wrote k blk count =>
      simp only [Tier.evict_hot, BoundedQueue.pop_length, BoundedQueue.pop_dropped]
      omega
  | drop _ drops =>
    rw [kept] at drops
    cases drops

theorem run_window (ok : e.Ok) {calls : List (Env F × Call F)}
    (kept : ∀ x ∈ calls, x.2.drops s = false) :
    (e.tier s).hot.items.length + (e.tier s).hot.dropped + (history calls e s).length =
      ((run calls e).tier s).hot.items.length + ((run calls e).tier s).hot.dropped +
        ((sinkRun calls e).map (SinkEvent.evicted s)).sum := by
  induction calls generalizing e with
  | nil => rfl
  | cons x rest ih =>
    obtain ⟨first, kept⟩ := List.forall_mem_cons.mp kept
    have now := call_window ok x.1 first
    have later := ih (call_frame ok x.1 x.2).ok kept
    obtain ⟨-, -, told⟩ := call_told ok x.1 x.2
    simp only [run, sinkRun, history, List.map_append, List.sum_append, List.length_append,
      (told s).evicted]
    omega

theorem run_lost (ok : e.Ok) (persists : e.backend.persists = true)
    (calls : List (Env F × Call F)) (s : SensorId) :
    ((sinkRun calls e).map (SinkEvent.lost s)).sum = lostAll calls e s := by
  induction calls generalizing e with
  | nil => rfl
  | cons x rest ih =>
    have frame := call_frame ok x.1 x.2
    obtain ⟨-, -, told⟩ := call_told ok x.1 x.2
    simp only [sinkRun, lostAll, List.map_append, List.sum_append, (told s).lost,
      ih frame.ok (frame.persists.trans persists)]
    congr 1
    simp only [lost, evictedBy, persists]
    cases e.pass x.2 <;> simp

theorem create_counters {env₀ : Env F} {cfgIn : Config} {path : Option (ColdTier F)}
    {e : Engine F} (created : create env₀ cfgIn path = .ok e) :
    e.totalEvictions = 0 ∧ e.flushErrorsTotal = 0 := by
  unfold create at created
  repeat' split at created
  all_goals cases created
  exact ⟨rfl, rfl⟩

/-- **The sink accounts for every entry**, from an empty path on. The evictions
and the failed writes it is told of are those that the counters show. Of a sensor
that is not dropped, what was appended is in the window, overwritten or told to be
evicted, and what was evicted is in a block unless it was told to have gone into
one of no bytes. -/
theorem sink_accounts {env₀ : Env F} {cfgIn : Config} {e : Engine F}
    (created : create env₀ cfgIn (some .empty) = .ok e)
    (small : e.cfg.shape.capacity < 2 ^ 31) (calls : List (Env F × Call F)) :
    let events := sinkRun calls e
    let e' := run calls e
    e'.totalEvictions = events.countP SinkEvent.isEviction ∧
    e'.flushErrorsTotal = events.countP SinkEvent.isFlushError ∧
    ∀ s, (∀ x ∈ calls, x.2.drops s = false) →
      (history calls e s).length = (e'.tier s).hotRows.length + e'.overwrittenEntries s +
        (events.map (SinkEvent.evicted s)).sum ∧
      (events.map (SinkEvent.evicted s)).sum =
        (e'.tier s).coldRows.length + (events.map (SinkEvent.lost s)).sum := by
  intro events e'
  have spec := create_spec created
  obtain ⟨evictions, flushErrors⟩ := run_told spec.ok calls
  obtain ⟨noEvictions, noErrors⟩ := create_counters created
  rw [noEvictions, Nat.zero_add] at evictions
  rw [noErrors, Nat.zero_add] at flushErrors
  refine ⟨evictions, flushErrors, fun s kept => ?_⟩
  have start : (e.tier s).Counted e.cfg.shape.capacity 0 0 := by
    rw [spec.tier s]
    exact Tier.counted_empty
  have window := run_window spec.ok kept
  have counted := (run_counted spec.ok spec.persists small kept start).count
  have lost := run_lost spec.ok spec.persists calls s
  have empty : (e.tier s).hot.items.length = 0 ∧ (e.tier s).hot.dropped = 0 := by
    rw [spec.tier s]
    exact ⟨rfl, rfl⟩
  simp only [events, e', overwrittenEntries_eq, Tier.hotRows, List.length_map]
  omega

/-- The write of the first row fails, that of the second does not. -/
def flushedTwice : List (Env ℚ × Call ℚ) :=
  [(.calm ℚ 0, .append (some sensorA.bytes) 1 (some fun _ => 1) 1 none), (writeFails, .flush),
    (.calm ℚ 0, .append (some sensorA.bytes) 2 (some fun _ => 1) 1 none), (.calm ℚ 0, .flush)]

theorem flushedTwice_accounts :
    let events := sinkRun flushedTwice smallEngine
    let e' := run flushedTwice smallEngine
    e'.totalEvictions = events.countP SinkEvent.isEviction ∧
    e'.flushErrorsTotal = events.countP SinkEvent.isFlushError ∧
    ∀ s, (∀ x ∈ flushedTwice, x.2.drops s = false) →
      (history flushedTwice smallEngine s).length =
        (e'.tier s).hotRows.length + e'.overwrittenEntries s +
          (events.map (SinkEvent.evicted s)).sum ∧
      (events.map (SinkEvent.evicted s)).sum =
        (e'.tier s).coldRows.length + (events.map (SinkEvent.lost s)).sum :=
  sink_accounts (smallEngine_created 0) (by decide) flushedTwice

example : sinkRun flushedTwice smallEngine =
    [.flushError sensorA .io, .eviction sensorA 1 0, .eviction sensorA 1 56] := by decide +kernel

end Engine

end ChronosVector
