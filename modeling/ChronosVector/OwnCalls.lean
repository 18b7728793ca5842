import ChronosVector.EvictionSchedule
import ChronosVector.Isolation
import ChronosVector.Lib.Unwinding

/-!
# What a sensor is told

All sensors share the map, the eviction pass, its scratch and the backend. A
sensor still sees only the calls that name it and those that name none.

* `Call.concerns`: the calls that a sensor sees;
* `Engine.reply`: what the caller gets;
* `Engine.Alike`: two engines that one sensor cannot tell apart;
* `own_calls_decide`: in any two runs with the same calls for a sensor, whatever
  others are told, it answers the same, has the same ring and the same blocks, up
  to their end timestamps.
-/

namespace ChronosVector

variable {F : Type}

/-! ## Calls and answers -/

/-- The call names `s`, or no sensor. `ListSensors` and `GetStats`, which report on
the whole engine, are no calls here. -/
def Call.concerns (s : SensorId) : Call F → Bool
  | .preallocateSensor id | .append id _ _ _ _ | .appendBatch id _ _ _ _ _
  | .queryNearestN id _ _ _ _ | .queryRange id _ _ _ _ | .detectAnomaly id _ _ _ _
  | .dropSensor id => id = some s.bytes
  | .maintainSlidingWindow _ | .flush | .backgroundPass | .close => true

/-- What a caller gets: the code and the out-parameters. -/
inductive Reply (F : Type)
  | code (err : ErrorCode)
  | nearest (err : ErrorCode) (rows : Option (List (Int64 × F)))
  | range (err : ErrorCode) (rows : Option (List (Int64 × List F)))
  | anomaly (err : ErrorCode) (flag : Option Bool)

/-- The environments answer alike where `s` is concerned. -/
structure Env.AgreesOn (s : SensorId) (env env' : Env F) : Prop where
  writeBlock : env'.storage.writeBlock s = env.storage.writeBlock s
  deleteSensor : env'.storage.deleteSensor s = env.storage.deleteSensor s
  flush : env'.storage.flush = env.storage.flush
  ringMemory : env'.ringMemory s = env.ringMemory s
  scratchMemory : env'.scratchMemory s = env.scratchMemory s

theorem Env.AgreesOn.refl (s : SensorId) (env : Env F) : env.AgreesOn s env :=
  ⟨rfl, rfl, rfl, rfl, rfl⟩

/-- The same call, where `s` is concerned. -/
def Asks (s : SensorId) (x y : Env F × Call F) : Prop := y.2 = x.2 ∧ x.1.AgreesOn s y.1

/-- A block but for its end timestamp. -/
def StoredBlock.untimed (b : StoredBlock F) : StoredBlock F := { b with tEndMs := 0 }

/-- The directories look alike to `s`. -/
structure Backend.Alike (s : SensorId) (bk bk' : Backend F) : Prop where
  persists : bk'.persists = bk.persists
  blocks : ∀ n, ((bk'.cold.blocks s).get n).map StoredBlock.untimed =
    ((bk.cold.blocks s).get n).map StoredBlock.untimed

/-- The engines look alike to `s`. -/
structure Engine.Alike (s : SensorId) (e e' : Engine F) : Prop where
  cfg : e'.cfg = e.cfg
  closed : e'.closed = e.closed
  slot : e'.sensors.lookup s = e.sensors.lookup s
  backend : e.backend.Alike s e'.backend

section
variable [FloatArith F]

/-- What a call returns. -/
def Engine.reply (e : Engine F) (env : Env F) : Call F → Reply F
  | .queryNearestN id target dim n outs =>
    match SensorId.parse id with
    | .error err => .nearest err none
    | .ok s =>
      let r := e.queryNearestN s target dim n outs
      .nearest r.1 r.2.1
  | .queryRange id tStart tEnd max outs =>
    let r := e.chronosvQueryRange id tStart tEnd max outs
    .range r.1 r.2.1
  | .detectAnomaly id v dim threshold outs =>
    match SensorId.parse id with
    | .error err => .anomaly err none
    | .ok s =>
      let r := e.detectAnomaly s v dim threshold outs
      .anomaly r.1 r.2.1
  | c => .code (e.call env c).1

/-- The answers to the calls of a run that concern `s`. -/
def Engine.told (s : SensorId) : List (Env F × Call F) → Engine F → List (Reply F) :=
  ownReplies called (fun e x => e.reply x.1 x.2) fun x => x.2.concerns s

end

/-! ## Directories that look alike -/

namespace Backend

variable {bk bk' bk'' : Backend F} {s t : SensorId}

theorem Alike.refl (s : SensorId) (bk : Backend F) : bk.Alike s bk := ⟨rfl, fun _ => rfl⟩

theorem Alike.symm (h : bk.Alike s bk') : bk'.Alike s bk :=
  ⟨h.persists.symm, fun n => (h.blocks n).symm⟩

theorem Alike.trans (h : bk.Alike s bk') (h' : bk'.Alike s bk'') : bk.Alike s bk'' :=
  ⟨h'.persists.trans h.persists, fun n => (h'.blocks n).trans (h.blocks n)⟩

theorem Alike.deleteSensor (h : bk.Alike s bk') (status : ErrorCode) :
    (bk.deleteSensor status s).2.Alike s (bk'.deleteSensor status s).2 := by
  obtain ⟨rfl, rfl⟩ | ⟨db, db', rfl, rfl⟩ := both_of_persists h.persists
  · exact .refl s _
  · simp only [Backend.deleteSensor]
    split
    · refine ⟨rfl, fun n => ?_⟩
      simp only [Backend.cold, ColdTier.blocks_erase_self]
    · exact h

theorem alike_deleteSensor (other : s ≠ t) (status : ErrorCode) :
    bk.Alike s (bk.deleteSensor status t).2 := by
  obtain ⟨frame, -, -, persists⟩ := Engine.deleteSensor_blocks status bk t
  exact ⟨persists, fun n => by rw [frame s other]⟩

variable [FloatArith F]

/-- Blocks that differ in their end timestamps. -/
theorem Alike.writeBlock (h : bk.Alike s bk') (status : ErrorCode) (blk blk' : Block F)
    (own : blk.sensorId = s) (own' : blk'.sensorId = s) (id : blk'.blockId = blk.blockId)
    (complete : blk.Complete) (complete' : blk'.Complete)
    (stored : blk'.stored.untimed = blk.stored.untimed) :
    (bk'.writeBlock status blk').1 = (bk.writeBlock status blk).1 ∧
      (bk.writeBlock status blk).2.Alike s (bk'.writeBlock status blk').2 := by
  subst own
  obtain ⟨rfl, rfl⟩ | ⟨db, db', rfl, rfl⟩ := both_of_persists h.persists
  · exact ⟨rfl, .refl _ _⟩
  · simp only [Backend.writeBlock, complete, complete', not_true, if_false]
    split
    · refine ⟨rfl, rfl, fun n => ?_⟩
      simp only [Backend.cold, own', id, ColdTier.blocks_put_self]
      by_cases same : n = blk.blockId
      · subst same
        rw [SortedMap.get_put_self, SortedMap.get_put_self, Option.map_some, Option.map_some,
          stored]
      · rw [SortedMap.get_put_ne _ same, SortedMap.get_put_ne _ same]
        exact h.blocks n
    · exact ⟨rfl, h⟩

theorem alike_writeBlock {blk : Block F} (other : s ≠ blk.sensorId) (status : ErrorCode) :
    bk.Alike s (bk.writeBlock status blk).2 := by
  refine ⟨?_, fun n => by rw [writeBlock_blocks_ne other]⟩
  cases bk with
  | null => rfl
  | rocksdb db =>
    simp only [Backend.writeBlock]
    split
    · rfl
    · split <;> rfl

end Backend

/-! ## Engines that look alike -/

namespace Engine

variable {e e' e'' : Engine F} {env env' : Env F} {s t : SensorId} {w : Int64}

theorem Alike.refl (s : SensorId) (e : Engine F) : e.Alike s e := ⟨rfl, rfl, rfl, .refl s _⟩

theorem Alike.symm (h : e.Alike s e') : e'.Alike s e :=
  ⟨h.cfg.symm, h.closed.symm, h.slot.symm, h.backend.symm⟩

theorem Alike.trans (h : e.Alike s e') (h' : e'.Alike s e'') : e.Alike s e'' :=
  ⟨h'.cfg.trans h.cfg, h'.closed.trans h.closed, h'.slot.trans h.slot,
    h.backend.trans h'.backend⟩

/-- Counters, scratch and other slots do not show. -/
theorem Alike.of_same (sensors : e'.sensors.lookup s = e.sensors.lookup s)
    (backend : e'.backend = e.backend) (cfg : e'.cfg = e.cfg) (closed : e'.closed = e.closed) :
    e.Alike s e' := ⟨cfg, closed, sensors, backend ▸ .refl s _⟩

theorem Alike.setSlot (h : e.Alike s e') (slot : SensorSlot F) :
    (e.setSlot s slot).Alike s (e'.setSlot s slot) :=
  ⟨h.cfg, h.closed, (lookup_setSlot_self slot).trans (lookup_setSlot_self slot).symm, h.backend⟩

theorem alike_setSlot (other : s ≠ t) (slot : SensorSlot F) : e.Alike s (e.setSlot t slot) :=
  .of_same (lookup_setSlot_ne other slot) rfl rfl rfl

/-- Registering a ring goes the same way. -/
theorem Alike.getOrCreateRing (h : e.Alike s e') (agrees : env.AgreesOn s env')
    (unlimited : e.cfg.maxSensors = 0) :
    (∃ err, e.getOrCreateRing env s = .error err ∧ e'.getOrCreateRing env' s = .error err) ∨
    ∃ e₁ e₁' r, e.getOrCreateRing env s = .ok (e₁, r) ∧ e'.getOrCreateRing env' s = .ok (e₁', r) ∧
      e₁.Alike s e₁' := by
  have room : ∀ n, ¬ (0 < e.cfg.maxSensors.toNat ∧ e.cfg.maxSensors.toNat ≤ n) := by
    rintro n ⟨pos, -⟩
    rw [unlimited] at pos
    cases pos
  simp only [Engine.getOrCreateRing, h.slot, h.cfg, room, if_false, agrees.ringMemory]
  split
  · exact .inr ⟨_, _, _, rfl, rfl, h⟩
  · cases env.ringMemory s with
    | none => exact .inl ⟨_, rfl, rfl⟩
    | some mem => exact .inr ⟨_, _, _, rfl, rfl, h.setSlot _⟩
  · cases env.ringMemory s with
    | none => exact .inl ⟨_, rfl, rfl⟩
    | some mem => exact .inr ⟨_, _, _, rfl, rfl, h.setSlot _⟩

theorem Alike.setRing (h : e.Alike s e') (r : SensorRing F) :
    (e.setRing s r).Alike s (e'.setRing s r) := by
  cases found : e.sensors.lookup s with
  | none =>
    have found' := h.slot.trans found
    simp only [Engine.setRing, found, found']
    exact h
  | some slot =>
    rw [setRing_eq found, setRing_eq (h.slot.trans found)]
    exact h.setSlot _

/-- A ring registered for another sensor. -/
theorem alike_getOrCreateRing (other : s ≠ t) {r : SensorRing F}
    (get : e.getOrCreateRing env t = .ok (e', r)) : e.Alike s e' := by
  unfold Engine.getOrCreateRing at get
  split at get
  · cases get
    exact .refl s e
  · split at get <;> cases get
    exact alike_setSlot other _
  · split at get
    · cases get
    · split at get <;> cases get
      exact alike_setSlot other _

theorem alike_setRing (other : s ≠ t) (r : SensorRing F) : e.Alike s (e.setRing t r) := by
  cases found : e.sensors.lookup t with
  | none =>
    simp only [Engine.setRing, found]
    exact .refl s e
  | some slot =>
    rw [setRing_eq found]
    exact alike_setSlot other _

theorem alike_drop (other : s ≠ t) (env : Env F) : e.Alike s (e.dropSensor env t).2 := by
  obtain same | ⟨-, bk, n, m, k, result, rfl⟩ := dropSensor_cases (e := e) t env
  · rw [same]
    exact .refl s e
  · rw [result]
    exact ⟨rfl, rfl, AList.lookup_erase_ne other, Backend.alike_deleteSensor other _⟩

/-- A checked call that names another sensor. -/
theorem alike_withSensor {id : CString} (names : decide (id = some s.bytes) = false)
    {f : SensorId → ErrorCode × Engine F} (call : ∀ t, s ≠ t → e.Alike s (f t).2) :
    e.Alike s (withSensor id e f).2 := by
  unfold withSensor
  split
  · exact .refl s e
  · rename_i t parsed
    apply call t
    rintro rfl
    exact of_decide_eq_false names (SensorId.parse_ok parsed)

theorem alike_preallocate (other : s ≠ t) (env : Env F) :
    e.Alike s (e.preallocateSensor env t).2 := by
  simp only [preallocateSensor]
  split
  · exact .refl s e
  cases get : e.getOrCreateRing env t with
  | error err => exact .refl s e
  | ok p => exact alike_getOrCreateRing other get

theorem Alike.preallocate (h : e.Alike s e') (agrees : env.AgreesOn s env')
    (unlimited : e.cfg.maxSensors = 0) :
    (e.preallocateSensor env s).1 = (e'.preallocateSensor env' s).1 ∧
      (e.preallocateSensor env s).2.Alike s (e'.preallocateSensor env' s).2 := by
  simp only [preallocateSensor, h.closed]
  split
  · exact ⟨rfl, h⟩
  obtain ⟨err, get, get'⟩ | ⟨e₁, e₁', r, get, get', alike⟩ := h.getOrCreateRing agrees unlimited
  · rw [get, get']
    exact ⟨rfl, h⟩
  · rw [get, get']
    exact ⟨rfl, alike⟩

theorem Alike.drop (h : e.Alike s e') (agrees : env.AgreesOn s env') :
    (e.dropSensor env s).1 = (e'.dropSensor env' s).1 ∧
      (e.dropSensor env s).2.Alike s (e'.dropSensor env' s).2 := by
  simp only [dropSensor, h.closed, h.slot, agrees.deleteSensor]
  split
  · exact ⟨rfl, h⟩
  split
  · exact ⟨rfl, h⟩
  · refine ⟨rfl, h.cfg, rfl, ?_, h.backend.deleteSensor _⟩
    rw [AList.lookup_erase, AList.lookup_erase]

theorem pass_maxSensors {c : Call F} (h : e.pass c = some (e', w)) :
    e'.cfg.maxSensors = e.cfg.maxSensors := by
  cases c with
  | flush | backgroundPass =>
    simp only [Engine.pass] at h
    split at h
    · cases h
    · cases h
      rfl
  | maintainSlidingWindow w' =>
    simp only [Engine.pass] at h
    split at h
    · cases h
    · split at h
      · cases h
      · cases h
        rfl
  | _ => cases h

end Engine

/-! ### Passes -/

variable [FloatArith F]

/-- What the scratch held before shows at the end timestamp only. -/
theorem EvictScratch.block_untimed (sc sc' : EvictScratch F) {r : SensorRing F} {b n : Nat}
    (pos : 0 < n) (holds : ∀ i < n, sc.Holds r (b + i) i)
    (holds' : ∀ i < n, sc'.Holds r (b + i) i) (s : SensorId) (id : Nat) :
    (sc'.block r s id n).stored.untimed = (sc.block r s id n).stored.untimed := by
  obtain ⟨rows, start⟩ := EvictScratch.block_rows sc sc' pos holds holds' s id
  simp only [Block.stored] at rows
  simp only [block, Block.stored, StoredBlock.untimed, StoredBlock.mk.injEq, true_and]
  exact ⟨start, rows⟩

namespace Engine

variable {e e' e'' : Engine F} {env env' : Env F} {s t : SensorId} {w : Int64}

/-- Copies of one window, through different scratch. -/
theorem Alike.persistEvicted (h : e.Alike s e') (agrees : env.AgreesOn s env') (r : SensorRing F)
    (next : Nat) {sc sc' : EvictScratch F} {n : Nat} (pos : 0 < n)
    (holds : ∀ i < n, sc.Holds r (r.snapshot.1 + i) i)
    (holds' : ∀ i < n, sc'.Holds r (r.snapshot.1 + i) i) :
    (e.persistEvicted env s next r (r.snapshot.1 + n) sc).1.Alike s
      (e'.persistEvicted env' s next r (r.snapshot.1 + n) sc').1 := by
  have copied := EvictScratch.block_untimed sc sc' pos holds holds' s next
  obtain ⟨code, backend⟩ := h.backend.writeBlock (env.storage.writeBlock s) (sc.block r s next n)
    (sc'.block r s next n) rfl rfl rfl (EvictScratch.block_complete s next n)
    (EvictScratch.block_complete s next n) copied
  simp only [Engine.persistEvicted, Nat.add_sub_cancel_left, agrees.writeBlock, code]
  exact ⟨h.cfg, h.closed, (h.setSlot _).slot, backend⟩

/-- The eviction of the sensor itself. -/
theorem Alike.evictSensor (h : e.Alike s e') (agrees : env.AgreesOn s env') {slot : SensorSlot F}
    (rings : ∀ r, slot.ring = some r → r.Ok) (w : Int64) :
    (e.evictSensor env s slot w).1.Alike s (e'.evictSensor env' s slot w).1 := by
  obtain none | pos := Nat.eq_zero_or_pos (slot.due w)
  · rw [evictSensor_nothing none rings, evictSensor_nothing none rings]
    exact h
  obtain ⟨ring, next⟩ := slot
  cases ring with
  | none => cases pos
  | some r =>
    rw [evictSensor_due (rings r rfl) rfl pos, evictSensor_due (rings r rfl) rfl pos,
      agrees.scratchMemory]
    split
    · exact ⟨h.cfg, h.closed, h.slot, h.backend⟩
    · exact h.persistEvicted agrees r next pos (fun i hi => EvictScratch.copyRows_holds hi)
        fun i hi => EvictScratch.copyRows_holds hi

/-- The eviction of another sensor. -/
theorem alike_evictSensor (other : s ≠ t) (env : Env F) (slot : SensorSlot F) (w : Int64) :
    e.Alike s (e.evictSensor env t slot w).1 := by
  simp only [Engine.evictSensor]
  split
  · exact .refl s e
  split
  · exact .refl s e
  split
  · exact .refl s e
  split
  · exact .of_same rfl rfl rfl rfl
  · simp only [persistEvicted]
    exact ⟨rfl, rfl, lookup_setSlot_ne other _, Backend.alike_writeBlock (by exact other) _⟩

/-- The turn of a sensor in a pass. -/
def turn (e : Engine F) (env : Env F) (w : Int64) (s : SensorId) : Engine F :=
  match e.sensors.lookup s with
  | none => e
  | some slot => (e.evictSensor env s slot w).1

theorem evictSensors_cons (env : Env F) (w : Int64) (s : SensorId) (rest : List SensorId) :
    (evictSensors env w (s :: rest) e).1 = (evictSensors env w rest (e.turn env w s)).1 := by
  cases found : e.sensors.lookup s <;> simp only [evictSensors, turn, found]

theorem Alike.turn (h : e.Alike s e') (agrees : env.AgreesOn s env') (ok : e.Ok) (w : Int64) :
    (e.turn env w s).Alike s (e'.turn env' w s) := by
  simp only [Engine.turn, h.slot]
  cases found : e.sensors.lookup s with
  | none => exact h
  | some slot => exact h.evictSensor agrees (fun r hr => (ok s r ((ring_eq found).trans hr)).2) w

theorem alike_turn (other : s ≠ t) (env : Env F) (w : Int64) : e.Alike s (e.turn env w t) := by
  unfold Engine.turn
  split
  · exact .refl s e
  · exact alike_evictSensor other env _ w

theorem turn_ok (ok : e.Ok) (env : Env F) (w : Int64) (s : SensorId) : (e.turn env w s).Ok := by
  unfold Engine.turn
  split
  · exact ok
  · rename_i found
    exact (evictSensor_evicts env w ok found).2.2.1

/-- The turns of others. -/
theorem alike_evictSensors (env : Env F) (w : Int64) {ids : List SensorId} (absent : s ∉ ids) :
    e.Alike s (evictSensors env w ids e).1 := by
  induction ids generalizing e with
  | nil => exact .refl s e
  | cons t rest ih =>
    obtain ⟨other, absent⟩ := not_or.mp (mt List.mem_cons.mpr absent)
    rw [evictSensors_cons]
    exact (alike_turn other env w).trans (ih absent)

/-- Of a pass over all sensors, a sensor sees its own turn. -/
theorem alike_pass (env : Env F) (w : Int64) {ids : List SensorId} (nodup : ids.Nodup)
    (listed : s ∈ ids) (ok : e.Ok) :
    (e.turn env w s).Alike s (evictSensors env w ids e).1 := by
  induction ids generalizing e with
  | nil => cases listed
  | cons t rest ih =>
    obtain ⟨fresh, nodup⟩ := List.nodup_cons.mp nodup
    rw [evictSensors_cons]
    by_cases own : s = t
    · subst own
      exact alike_evictSensors env w fresh
    · exact ((alike_turn own env w).turn (.refl s env) ok w).trans
        (ih nodup ((List.mem_cons.mp listed).resolve_left own) (turn_ok ok env w t))

/-- A whole pass, in whichever order. -/
theorem alike_evictOnce (env : Env F) (w : Int64) (ok : e.Ok) (s : SensorId) :
    (e.turn env w s).Alike s (evictSensors env w (env.order e.sensors.keys) e).1 := by
  have perm := env.order_perm e.sensors.keys
  by_cases listed : s ∈ env.order e.sensors.keys
  · exact alike_pass env w (perm.nodup_iff.mpr e.sensors.keys_nodup) listed ok
  · have none : e.sensors.lookup s = none :=
      AList.lookup_eq_none.mpr fun mem => listed (perm.mem_iff.mpr mem)
    simp only [turn, none]
    exact alike_evictSensors env w listed

theorem Alike.evictSensors (h : e.Alike s e') (agrees : env.AgreesOn s env') (ok : e.Ok)
    (ok' : e'.Ok) (w : Int64) :
    (Engine.evictSensors env w (env.order e.sensors.keys) e).1.Alike s
      (Engine.evictSensors env' w (env'.order e'.sensors.keys) e').1 :=
  (alike_evictOnce env w ok s).symm.trans
    ((h.turn agrees ok w).trans (alike_evictOnce env' w ok' s))

/-! ### Calls of others -/

theorem alike_append (other : s ≠ t) (env : Env F) (ts : Int64) (vec : Nat → F) (dim : Nat)
    (payload : Option (Nat → UInt8)) : e.Alike s (e.append env t ts vec dim payload).2 := by
  simp only [append]
  split
  · exact .refl s e
  split
  · exact .refl s e
  cases get : e.getOrCreateRing env t with
  | error err => exact .refl s e
  | ok p =>
    exact ((alike_getOrCreateRing other get).trans (alike_setRing other _)).trans
      (.of_same rfl rfl rfl rfl)

theorem alike_appendBatch (other : s ≠ t) (env : Env F) (ts : Option (Nat → Int64))
    (vecs : Option (Nat → F)) (count dim : Nat) (payloads : Option (Nat → UInt8)) :
    e.Alike s (e.appendBatch env t ts vecs count dim payloads).2 := by
  simp only [appendBatch]
  split
  · exact .refl s e
  split
  · exact .refl s e
  split
  · exact .refl s e
  split
  · cases get : e.getOrCreateRing env t with
    | error err => exact .refl s e
    | ok p =>
      exact ((alike_getOrCreateRing other get).trans (alike_setRing other _)).trans
        (.of_same rfl rfl rfl rfl)
  · exact .refl s e

theorem alike_query {c : Call F} (quiet : c.IsQuery) (env : Env F) :
    e.Alike s (e.call env c).2 := by
  obtain same | same | same := query_counts (e := e) quiet env
  · rw [same]
    exact .refl s e
  · rw [same]
    exact .of_same rfl rfl rfl rfl
  · rw [same]
    exact .of_same rfl rfl rfl rfl

/-- **A call of another sensor** does not show. -/
theorem foreign_call {c : Call F} (foreign : c.concerns s = false) (env : Env F) :
    e.Alike s (e.call env c).2 := by
  cases c with
  | preallocateSensor id =>
    exact alike_withSensor foreign fun t other => alike_preallocate other env
  | append id ts vec dim payload =>
    simp only [Engine.call, chronosvAppend]
    split
    · exact .refl s e
    split
    · exact .refl s e
    · exact alike_withSensor foreign fun t other => alike_append other env ..
  | appendBatch id ts vecs count dim payloads =>
    simp only [Engine.call, chronosvAppendBatch]
    split
    · exact .refl s e
    refine alike_withSensor foreign fun t other => ?_
    split
    · exact .refl s e
    split
    · exact .refl s e
    · exact alike_appendBatch other env ..
  | queryNearestN | queryRange | detectAnomaly => exact alike_query (by trivial) env
  | dropSensor id => exact alike_withSensor foreign fun t other => alike_drop other env
  | maintainSlidingWindow | flush | backgroundPass | close => cases foreign

/-! ### Own calls -/

theorem Alike.append (h : e.Alike s e') (agrees : env.AgreesOn s env')
    (unlimited : e.cfg.maxSensors = 0) (ts : Int64) (vec : Nat → F) (dim : Nat)
    (payload : Option (Nat → UInt8)) :
    (e.append env s ts vec dim payload).1 = (e'.append env' s ts vec dim payload).1 ∧
      (e.append env s ts vec dim payload).2.Alike s (e'.append env' s ts vec dim payload).2 := by
  simp only [Engine.append, h.closed, h.cfg]
  split
  · exact ⟨rfl, h⟩
  split
  · exact ⟨rfl, h⟩
  obtain ⟨err, get, get'⟩ | ⟨e₁, e₁', r, get, get', alike⟩ := h.getOrCreateRing agrees unlimited
  · rw [get, get']
    exact ⟨rfl, h⟩
  · rw [get, get']
    have stored := alike.setRing (r.ingest ts vec dim payload)
    exact ⟨rfl, stored.cfg, stored.closed, stored.slot, stored.backend⟩

theorem Alike.appendBatch (h : e.Alike s e') (agrees : env.AgreesOn s env')
    (unlimited : e.cfg.maxSensors = 0) (ts : Option (Nat → Int64)) (vecs : Option (Nat → F))
    (count dim : Nat) (payloads : Option (Nat → UInt8)) :
    (e.appendBatch env s ts vecs count dim payloads).1 =
        (e'.appendBatch env' s ts vecs count dim payloads).1 ∧
      (e.appendBatch env s ts vecs count dim payloads).2.Alike s
        (e'.appendBatch env' s ts vecs count dim payloads).2 := by
  simp only [Engine.appendBatch, h.closed, h.cfg]
  split
  · exact ⟨rfl, h⟩
  split
  · exact ⟨rfl, h⟩
  split
  · exact ⟨rfl, h⟩
  split
  · rename_i ts vecs
    obtain ⟨err, get, get'⟩ | ⟨e₁, e₁', r, get, get', alike⟩ := h.getOrCreateRing agrees unlimited
    · rw [get, get']
      exact ⟨rfl, h⟩
    · rw [get, get']
      have stored := alike.setRing (ingestAll dim ((List.range count).map
        (batchRow ts vecs dim e.cfg.payloadSizeBytes.toNat payloads)) r)
      exact ⟨rfl, stored.cfg, stored.closed, stored.slot, stored.backend⟩
  · exact ⟨rfl, h⟩

theorem Alike.evictOnce (h : e.Alike s e') (agrees : env.AgreesOn s env') (ok : e.Ok)
    (ok' : e'.Ok) (w : Int64) : (e.evictOnce env w).1.Alike s (e'.evictOnce env' w).1 := by
  simp only [Engine.evictOnce, h.cfg]
  exact h.evictSensors agrees ok ok' _

/-- A query of the sensor gets the same answer. -/
theorem Alike.query (h : e.Alike s e') {c : Call F} (quiet : c.IsQuery)
    (own : c.concerns s = true) : e.reply env c = e'.reply env' c := by
  cases c with
  | queryNearestN id target dim n outs =>
    obtain rfl := of_decide_eq_true own
    simp only [reply, SensorId.parse_bytes, queryNearestN, h.closed, h.cfg, h.slot]
    split
    · rfl
    split
    · rfl
    split
    · rfl
    split
    · rfl
    split
    · rfl
    · rfl
    · split <;> rfl
  | queryRange id tStart tEnd max outs =>
    obtain rfl := of_decide_eq_true own
    simp only [reply, chronosvQueryRange, SensorId.parse_bytes, queryRange, h.closed, h.slot]
    split
    · rfl
    split
    · rfl
    split
    · rfl
    split <;> rfl
  | detectAnomaly id v dim threshold outs =>
    obtain rfl := of_decide_eq_true own
    simp only [reply, SensorId.parse_bytes, detectAnomaly, h.closed, h.cfg, h.slot]
    split
    · rfl
    split
    · rfl
    split
    · rfl
    split
    · rfl
    split
    · rfl
    · rfl
    · split <;> rfl
  | _ => cases quiet

theorem Alike.maintain (h : e.Alike s e') (agrees : env.AgreesOn s env') (ok : e.Ok)
    (ok' : e'.Ok) (w : Int64) :
    (e.maintainSlidingWindow env w).1 = (e'.maintainSlidingWindow env' w).1 ∧
      (e.maintainSlidingWindow env w).2.Alike s (e'.maintainSlidingWindow env' w).2 := by
  simp only [maintainSlidingWindow, h.closed]
  split
  · exact ⟨rfl, h⟩
  split
  · exact ⟨rfl, h⟩
  · rename_i checked
    have set : Engine.Alike s { e with cfg := e.cfg.setWindow w (window_checked checked) }
        { e' with cfg := e'.cfg.setWindow w (window_checked checked), closed := e.closed } :=
      ⟨by simp only [h.cfg], rfl, h.slot, h.backend⟩
    exact ⟨rfl, set.evictOnce agrees (fun t r hr => ok t r hr) (fun t r hr => ok' t r hr) (-1)⟩

theorem Alike.flush (h : e.Alike s e') (agrees : env.AgreesOn s env') (ok : e.Ok)
    (ok' : e'.Ok) :
    (e.flush env).1 = (e'.flush env').1 ∧ (e.flush env).2.Alike s (e'.flush env').2 := by
  simp only [Engine.flush, h.closed, agrees.flush]
  split
  · exact ⟨rfl, h⟩
  · have passed := h.evictOnce agrees ok ok' 0
    refine ⟨?_, passed⟩
    obtain ⟨bk, bk'⟩ | ⟨db, db', bk, bk'⟩ :=
      Backend.both_of_persists passed.backend.persists
    · rw [bk, bk']
    · rw [bk, bk']
      rfl

theorem Alike.backgroundPass (h : e.Alike s e') (agrees : env.AgreesOn s env') (ok : e.Ok)
    (ok' : e'.Ok) : (e.backgroundPass env).Alike s (e'.backgroundPass env') := by
  simp only [Engine.backgroundPass, h.closed]
  split
  · exact h
  · exact h.evictOnce agrees ok ok' (-1)

/-- **A call of the sensor** gets the same answer and does the same to it. -/
theorem own_call (ok : e.Ok) (ok' : e'.Ok) (unlimited : e.cfg.maxSensors = 0) (h : e.Alike s e')
    (agrees : env.AgreesOn s env') {c : Call F} (own : c.concerns s = true) :
    e.reply env c = e'.reply env' c ∧ (e.call env c).2.Alike s (e'.call env' c).2 := by
  cases c with
  | preallocateSensor id =>
    obtain rfl := of_decide_eq_true own
    simp only [reply, Engine.call, withSensor, SensorId.parse_bytes]
    obtain ⟨code, alike⟩ := h.preallocate agrees unlimited
    exact ⟨congrArg _ code, alike⟩
  | append id ts vec dim payload =>
    obtain rfl := of_decide_eq_true own
    simp only [reply, Engine.call, chronosvAppend, withSensor, SensorId.parse_bytes]
    split
    · exact ⟨rfl, h⟩
    split
    · exact ⟨rfl, h⟩
    · obtain ⟨code, alike⟩ := h.append agrees unlimited ..
      exact ⟨congrArg _ code, alike⟩
  | appendBatch id ts vecs count dim payloads =>
    obtain rfl := of_decide_eq_true own
    simp only [reply, Engine.call, chronosvAppendBatch, withSensor, SensorId.parse_bytes]
    split
    · exact ⟨rfl, h⟩
    split
    · exact ⟨rfl, h⟩
    split
    · exact ⟨rfl, h⟩
    · obtain ⟨code, alike⟩ := h.appendBatch agrees unlimited ..
      exact ⟨congrArg _ code, alike⟩
  | queryNearestN | queryRange | detectAnomaly =>
    exact ⟨h.query (by trivial) own, ((alike_query (by trivial) env).symm.trans h).trans
      (alike_query (by trivial) env')⟩
  | maintainSlidingWindow w =>
    obtain ⟨code, alike⟩ := h.maintain agrees ok ok' w
    exact ⟨congrArg _ code, alike⟩
  | flush =>
    obtain ⟨code, alike⟩ := h.flush agrees ok ok'
    exact ⟨congrArg _ code, alike⟩
  | backgroundPass => exact ⟨rfl, h.backgroundPass agrees ok ok'⟩
  | dropSensor id =>
    obtain rfl := of_decide_eq_true own
    simp only [reply, Engine.call, withSensor, SensorId.parse_bytes]
    obtain ⟨code, alike⟩ := h.drop agrees
    exact ⟨congrArg _ code, alike⟩
  | close => exact ⟨rfl, h.cfg, rfl, h.slot, h.backend⟩

/-! ### Runs -/

/-- No call changes the cap. -/
theorem call_maxSensors (ok : e.Ok) (env : Env F) (c : Call F) :
    (e.call env c).2.cfg.maxSensors = e.cfg.maxSensors := by
  have passing (passes : c.IsPass) : (e.call env c).2.cfg.maxSensors = e.cfg.maxSensors := by
    cases pass : e.pass c with
    | none => rw [call_of_no_pass passes env pass]
    | some p =>
      have nodup : (env.order p.1.sensors.keys).Nodup :=
        (env.order_perm _).nodup_iff.mpr p.1.sensors.keys_nodup
      rw [(call_of_pass env pass).1,
        (evictSensors_evicts env p.2 nodup (ok_of_pass pass ok)).frame.cfg, pass_maxSensors pass]
  cases c with
  | preallocateSensor id =>
    simp only [Engine.call, withSensor]
    split
    · rfl
    simp only [preallocateSensor]
    split
    · rfl
    split
    · rfl
    · rename_i get
      rw [(getOrCreateRing_attached ok get).cfg]
  | append id ts vec dim payload =>
    rw [((append_ingests e env id ts vec dim payload).result ok).2.2.1]
  | appendBatch id ts vecs count dim payloads =>
    rw [((appendBatch_ingests e env id ts vecs count dim payloads).result ok).2.2.1]
  | queryNearestN | queryRange | detectAnomaly | close => rw [(quiet_idle (by trivial) env).cfg]
  | dropSensor id =>
    simp only [Engine.call, withSensor]
    split
    · rfl
    · rename_i t _
      obtain same | ⟨-, _, _, _, _, result, -⟩ := dropSensor_cases (e := e) t env
      · rw [same]
      · rw [result]
  | flush | backgroundPass | maintainSlidingWindow => exact passing (by trivial)

/-- Engines without a cap, and what one sensor can tell of them. -/
theorem unwinding (s : SensorId) :
    Unwinding called (fun e x => e.reply x.1 x.2) (fun x : Env F × Call F => x.2.concerns s)
      (fun e => e.Ok ∧ e.cfg.maxSensors = 0) (Alike s) (Asks s) where
  keeps := by
    rintro e ⟨env, c⟩ ⟨ok, unlimited⟩
    exact ⟨(call_frame ok env c).ok, (call_maxSensors ok env c).trans unlimited⟩
  symm := Alike.symm
  trans := Alike.trans
  asks_refl x := ⟨rfl, .refl s x.1⟩
  foreign := by
    rintro e ⟨env, c⟩ - foreign
    exact foreign_call foreign env
  own := by
    rintro e e' ⟨env, c⟩ ⟨env', c'⟩ ⟨ok, unlimited⟩ ⟨ok', -⟩ h own ⟨rfl, agrees⟩
    exact own_call ok ok' unlimited h agrees own

/-- **A sensor sees its own calls.** Take two runs, on engines that look alike to a
sensor, with the same calls among those that name the sensor or none, and whatever
calls of other sensors in between. All its answers are the same, and at the end the
engines still look alike to it. -/
theorem own_calls_decide (ok : e.Ok) (ok' : e'.Ok) (unlimited : e.cfg.maxSensors = 0)
    (h : e.Alike s e') {steps steps' : List (Env F × Call F)}
    (same : List.Forall₂ (Asks s) (steps.filter fun x => x.2.concerns s)
      (steps'.filter fun x => x.2.concerns s)) :
    told s steps e = told s steps' e' ∧ (run steps e).Alike s (run steps' e') := by
  rw [run_eq_foldl, run_eq_foldl]
  exact (unwinding s).runs ⟨ok, unlimited⟩ ⟨ok', (congrArg Config.maxSensors
    (congrArg ValidConfig.toConfig h.cfg)).trans unlimited⟩ h same

end Engine

/-- Two sensors in turn, with a query and a pass. -/
def twoSensors : List (Env ℚ × Call ℚ) :=
  [.append (some sensorA.bytes) 1 (some fun _ => 1) 1 none,
    .append (some sensorB.bytes) 3 (some fun _ => 2) 1 none,
    .queryRange (some sensorB.bytes) 0 9 4 true, .dropSensor (some sensorA.bytes), .flush].map
    fun c => (.ordered 0, c)

theorem twoSensors_told :
    Engine.told sensorB twoSensors smallEngine =
        Engine.told sensorB (twoSensors.filter fun x => x.2.concerns sensorB) smallEngine ∧
      (Engine.run twoSensors smallEngine).Alike sensorB
        (Engine.run (twoSensors.filter fun x => x.2.concerns sensorB) smallEngine) := by
  have ok := Engine.reachable_ok (.created (smallEngine_created 0))
  apply Engine.own_calls_decide ok ok rfl (.refl sensorB smallEngine)
  rw [List.filter_filter]
  simp only [Bool.and_self]
  exact List.forall₂_same.mpr fun x _ => ⟨rfl, .refl sensorB x.1⟩

end ChronosVector
