import ChronosVector.FailedWrites
import ChronosVector.Conservation
import ChronosVector.Lib.WriteAheadLog

/-!
# The log of a cold path

RocksDB logs every `Put` and `DeleteRange` in order.

* `Engine.logged`: what a call logs;
* `call_logged`: that is what it does to the path;
* `call_moves`: the blocks it adds for a sensor come after the others.
-/

namespace ChronosVector

variable {F : Type}

/-! ## The log -/

/-- A write that RocksDB has accepted. -/
inductive StoreWrite (F : Type)
  | metadata (data : List UInt8)
  | block (s : SensorId) (id : Nat) (b : StoredBlock F)
  | delete (s : SensorId)

def ColdTier.apply (db : ColdTier F) : StoreWrite F → ColdTier F
  | .metadata data => { db with metadata := some data }
  | .block s id b => db.put s id b
  | .delete s => db.erase s

section
variable [FloatArith F]

/-- The `Put` of a block. -/
def Block.logged (env : Env F) (blk : Block F) : Option (StoreWrite F) :=
  if env.storage.writeBlock blk.sensorId = .ok then
    some (.block blk.sensorId blk.blockId blk.stored)
  else none

namespace Engine

variable (e : Engine F) (env : Env F)

/-- What `Create` logs. -/
def createLogged : List (StoreWrite F) :=
  if env.storage.writeMetadata = .ok then
    [.metadata (serializeEngineMetadata (e.cfg.metadata e.uuid))]
  else []

/-- What a call logs: the blocks of its pass, or the `DeleteRange` of a drop. -/
def logged : Call F → List (StoreWrite F)
  | .dropSensor id =>
    match SensorId.parse id with
    | .error _ => []
    | .ok s =>
      if e.closed = false ∧ (e.sensors.lookup s).isSome ∧ env.storage.deleteSensor s = .ok then
        [.delete s]
      else []
  | c => (e.writes env c).filterMap (Block.logged env)

end Engine

/-! ## What a call logs is what it does to the path -/

namespace Engine

variable {e e' : Engine F} {env : Env F} {s : SensorId} {w : Int64} {db : ColdTier F}

theorem writeBlock_logged {blk : Block F} (complete : blk.Complete) :
    ((Backend.rocksdb db).writeBlock (env.storage.writeBlock blk.sensorId) blk).2 =
      .rocksdb ((blk.logged env).toList.foldl ColdTier.apply db) := by
  simp only [Backend.writeBlock, complete, not_true, if_false, Block.logged]
  split
  · rfl
  · rfl

theorem evictSensor_backend {slot : SensorSlot F} :
    (e.evictSensor env s slot w).1.backend =
      (e.evictSensor env s slot w).2.toList.foldl
        (fun bk blk => (bk.writeBlock (env.storage.writeBlock blk.sensorId) blk).2) e.backend := by
  simp only [evictSensor]
  split
  · rfl
  split
  · rfl
  split
  · rfl
  split
  · rfl
  · rfl

/-- What one sensor of a pass logs is what it does to the path. -/
theorem evictSensor_logged {slot : SensorSlot F} (backend : e.backend = .rocksdb db) :
    (e.evictSensor env s slot w).1.backend =
      .rocksdb (((e.evictSensor env s slot w).2.toList.filterMap (Block.logged env)).foldl
        ColdTier.apply db) := by
  have complete : ∀ blk ∈ (e.evictSensor env s slot w).2.toList, blk.Complete :=
    fun _ written => evictSensor_complete written
  rw [evictSensor_backend, backend]
  generalize (e.evictSensor env s slot w).2 = written at complete
  cases written with
  | none => rfl
  | some blk =>
    simp only [Option.toList_some, List.foldl_cons, List.foldl_nil, List.filterMap_cons,
      List.filterMap_nil, writeBlock_logged (complete blk (by simp))]
    cases blk.logged env with
    | none => rfl
    | some x => rfl

theorem evictSensors_logged {ids : List SensorId} (backend : e.backend = .rocksdb db) :
    (evictSensors env w ids e).1.backend =
      .rocksdb (((evictSensors env w ids e).2.filterMap (Block.logged env)).foldl
        ColdTier.apply db) := by
  induction ids generalizing e db with
  | nil => exact backend
  | cons s rest ih =>
    simp only [evictSensors]
    split
    · exact ih backend
    · simp only [List.filterMap_append, List.foldl_append]
      exact ih (evictSensor_logged backend)

theorem logged_of_no_pass {c : Call F} (noPass : e.pass c = none)
    (noDrop : ∀ id, c ≠ .dropSensor id) : e.logged env c = [] := by
  cases c with
  | dropSensor id => exact absurd rfl (noDrop id)
  | _ => simp only [logged, writes, noPass, List.filterMap_nil]

theorem logged_of_pass {c : Call F} (pass : e.pass c = some (e', w)) :
    e.logged env c = (e.writes env c).filterMap (Block.logged env) := by
  cases c with
  | dropSensor id => cases pass
  | _ => rfl

theorem drop_logged (backend : e.backend = .rocksdb db) (id : CString) :
    (e.call env (.dropSensor id)).2.backend =
      .rocksdb ((e.logged env (.dropSensor id)).foldl ColdTier.apply db) := by
  simp only [call, withSensor, logged]
  cases parsed : SensorId.parse id with
  | error err => exact backend
  | ok s =>
    by_cases closed : e.closed = true
    · simp [dropSensor, closed, backend]
    · cases found : e.sensors.lookup s with
      | none => simp [dropSensor, closed, found, backend]
      | some slot =>
        simp only [dropSensor, closed, found, Bool.false_eq_true, if_false, backend,
          Backend.deleteSensor, Option.isSome_some, true_and]
        by_cases deleted : env.storage.deleteSensor s = .ok
        · simp [deleted, ColdTier.apply]
        · simp [deleted]

theorem Ingests.logged {c : Call F} (h : Ingests e env c) (ok : e.Ok)
    (backend : e.backend = .rocksdb db) (none : e.logged env c = []) :
    (e.call env c).2.backend = .rocksdb ((e.logged env c).foldl ColdTier.apply db) := by
  obtain ⟨-, -, -, -, same⟩ := h.result ok
  rw [none, same, backend]
  rfl

theorem quiet_logged {c : Call F} (quiet : c.IsQuiet) (backend : e.backend = .rocksdb db) :
    (e.call env c).2.backend = .rocksdb ((e.logged env c).foldl ColdTier.apply db) := by
  have none : e.logged env c = [] := by
    cases c with
    | queryNearestN | queryRange | detectAnomaly | close => exact logged_of_no_pass rfl (by simp)
    | _ => cases quiet
  rw [none, (quiet_idle quiet env).backend, backend]
  rfl

theorem passing_logged {c : Call F} (passes : c.IsPass) (backend : e.backend = .rocksdb db)
    (noDrop : ∀ id, c ≠ .dropSensor id) :
    (e.call env c).2.backend = .rocksdb ((e.logged env c).foldl ColdTier.apply db) := by
  cases pass : e.pass c with
  | none =>
    rw [logged_of_no_pass pass noDrop, call_of_no_pass passes env pass, backend]
    rfl
  | some p =>
    obtain ⟨-, same, -⟩ := pass_start pass
    obtain ⟨after, writes⟩ := call_of_pass env pass
    rw [logged_of_pass pass, after, writes]
    exact evictSensors_logged (same.trans backend)

/-- **What a call logs is what it does to the path.** -/
theorem call_logged (env : Env F) (ok : e.Ok) (backend : e.backend = .rocksdb db) (c : Call F) :
    (e.call env c).2.backend = .rocksdb ((e.logged env c).foldl ColdTier.apply db) := by
  cases c with
  | preallocateSensor id =>
    rw [logged_of_no_pass (c := .preallocateSensor id) rfl (by simp)]
    simp only [call, withSensor]
    split
    · exact backend
    · simp only [preallocateSensor]
      split
      · exact backend
      · split
        · exact backend
        · rename_i found
          rw [getOrCreateRing_frame found]
          exact backend
  | append id ts vec dim payload =>
    exact (append_ingests e env id ts vec dim payload).logged ok backend
      (logged_of_no_pass rfl (by simp))
  | appendBatch id ts vecs count dim payloads =>
    exact (appendBatch_ingests e env id ts vecs count dim payloads).logged ok backend
      (logged_of_no_pass rfl (by simp))
  | queryNearestN | queryRange | detectAnomaly | close => exact quiet_logged trivial backend
  | dropSensor id => exact drop_logged backend id
  | flush | backgroundPass | maintainSlidingWindow => exact passing_logged trivial backend (by simp)

end Engine

namespace Engine

variable {e : Engine F} {env : Env F} {db : ColdTier F} {cfgIn : Config}

theorem create_logged (h : create env cfgIn (some db) = .ok e) :
    e.backend = .rocksdb ((e.createLogged env).foldl ColdTier.apply db) := by
  unfold create at h
  split at h
  · cases h
  rename_i cfg _
  split at h
  · cases h
  rename_i bk init
  simp only [initBackend] at init
  split at init
  · cases init
    split at h
    · cases h
    rename_i uuid _
    rw [writeMetadata_rocksdb _ _ (serialize_ne_nil (cfg.metadata uuid))] at h
    by_cases status : env.storage.writeMetadata = .ok
    · simp only [status, if_true, ne_eq, not_true, false_and, if_false] at h
      cases h
      simp only [createLogged, status, if_true]
      rfl
    · simp only [status, if_false] at h
      split at h
      · cases h
      · cases h
        simp only [createLogged, status, if_false]
        rfl
  · cases init

end Engine

/-! ## The blocks of a sensor -/

/-- `db'` has the blocks of `s` that `db` has, and later ones. -/
def ColdTier.Extends (s : SensorId) (db db' : ColdTier F) : Prop :=
  (db.blocks s).entries <+: (db'.blocks s).entries

omit [FloatArith F] in
instance (s : SensorId) : Std.Refl (ColdTier.Extends (F := F) s) := ⟨fun _ => List.prefix_rfl⟩

omit [FloatArith F] in
instance (s : SensorId) : IsTrans (ColdTier F) (ColdTier.Extends s) :=
  ⟨fun _ _ _ => List.IsPrefix.trans⟩

section
variable {s t : SensorId} {db : ColdTier F}

omit [FloatArith F] in
theorem extends_of_same {db' : ColdTier F} (same : db'.blocks s = db.blocks s) :
    ColdTier.Extends s db db' := by
  rw [ColdTier.Extends, same]

omit [FloatArith F] in
/-- A block with a new, larger id comes after the others. -/
theorem extends_put {id : Nat} (past : ∀ k ∈ (db.blocks s).keys, k < id) (b : StoredBlock F) :
    ColdTier.Extends s db (db.put s id b) := by
  rw [ColdTier.Extends, ColdTier.blocks_put_self, SortedMap.put_append past]
  exact List.prefix_append _ _

omit [FloatArith F] in
theorem extends_erase (other : s ≠ t) (db : ColdTier F) : ColdTier.Extends s db (db.erase t) :=
  extends_of_same (db.blocks_erase_ne other)

end

/-- The ids in use are below the next one. -/
def Tier.Past (t : Tier F) : Prop := ∀ id ∈ t.blocks.keys, id < t.nextBlockId

section
variable {s s₀ : SensorId} {env : Env F} {e e' : Engine F} {w : Int64} {db : ColdTier F}
  {t t' : Tier F} {persists : Bool} {sh : RingShape} {own : List (Block F)}

theorem Tier.Past.evicts (past : t.Past) (h : t.Evicts env persists sh w s t' own) : t'.Past := by
  cases h with
  | idle => exact past
  | wrote k blk =>
    simp only [WriteOutcome.of]
    split
    · exact fun id hid => Nat.lt_succ_of_lt (past id hid)
    · split
      · exact past_put past _ _
      · exact past

/-- What one sensor of a pass logs comes after the blocks there were. -/
theorem Tier.Evicts.moves (h : (e.tier s₀).Evicts env persists sh w s₀ t' own)
    (backend : e.backend = .rocksdb db) (past : (e.tier s).Past) :
    Wal.Moves ColdTier.apply (ColdTier.Extends s) db (own.filterMap (Block.logged env)) := by
  cases h with
  | idle => trivial
  | wrote k blk count pos sensor id =>
    by_cases status : env.storage.writeBlock blk.sensorId = .ok
    · simp only [List.filterMap_cons, Block.logged, status, if_true, List.filterMap_nil]
      refine ⟨?_, trivial⟩
      have blocks : (e.tier s).blocks = db.blocks s := by
        simp only [Engine.tier, backend]
        rfl
      by_cases same : s = s₀
      · subst same
        rw [ColdTier.apply, sensor, id]
        apply extends_put
        rw [← blocks]
        exact past
      · rw [ColdTier.apply, sensor]
        exact extends_of_same (db.blocks_put_ne same _ _)
    · simp only [List.filterMap_cons, Block.logged, status, if_false, List.filterMap_nil]
      trivial

namespace Engine

theorem evictSensors_moves {ids : List SensorId} (ok : e.Ok) (backend : e.backend = .rocksdb db)
    (past : (e.tier s).Past) :
    Wal.Moves ColdTier.apply (ColdTier.Extends s) db
      ((evictSensors env w ids e).2.filterMap (Block.logged env)) := by
  induction ids generalizing e db with
  | nil => trivial
  | cons s₀ rest ih =>
    simp only [evictSensors]
    split
    · exact ih ok backend past
    · rename_i slot found
      obtain ⟨evicts, others, ok', -⟩ := evictSensor_evicts env w ok found
      rw [List.filterMap_append, Wal.moves_append]
      refine ⟨evicts.moves backend past, ih ok' (evictSensor_logged backend) ?_⟩
      by_cases same : s = s₀
      · subst same
        exact past.evicts evicts
      · rw [others s same]
        exact past

/-- **New blocks come after the old ones.** -/
theorem call_moves (ok : e.Ok) (backend : e.backend = .rocksdb db) (past : (e.tier s).Past)
    {c : Call F} (kept : c.drops s = false) :
    Wal.Moves ColdTier.apply (ColdTier.Extends s) db (e.logged env c) := by
  cases pass : e.pass c with
  | some p =>
    obtain ⟨sensors, same, -, shape, -⟩ := pass_start pass
    rw [logged_of_pass pass, (call_of_pass env pass).2]
    apply evictSensors_moves (ok_of_pass pass ok) (same.trans backend)
    have tier : p.1.tier s = e.tier s := tier_congr (by rw [sensors]) (by rw [same])
    rw [tier]
    exact past
  | none =>
    by_cases drop : ∃ id, c = .dropSensor id
    · obtain ⟨id, rfl⟩ := drop
      cases parsed : SensorId.parse id with
      | error err =>
        simp only [logged, parsed]
        trivial
      | ok t =>
        obtain rfl := SensorId.parse_ok parsed
        have other : s ≠ t := by
          rintro rfl
          simp [Call.drops] at kept
        simp only [logged, parsed]
        split
        · exact ⟨extends_erase other db, trivial⟩
        · trivial
    · push Not at drop
      rw [logged_of_no_pass pass drop]
      trivial

/-- A call that does not drop the sensor keeps its next id past the others. -/
theorem call_past (env : Env F) (ok : e.Ok) (past : (e.tier s).Past) (c : Call F) (kept : c.drops s = false) :
    ((e.call env c).2.tier s).Past := by
  have step := call_step ok env c s
  generalize (e.call env c).2.tier s = t' at step
  cases step with
  | append =>
    intro id hid
    rw [Tier.pushAll_blocks] at hid
    rw [Tier.pushAll_nextBlockId]
    exact past id hid
  | evict e' w own t' pass silent evicts => exact past.evicts evicts
  | drop noPass drops =>
    rw [kept] at drops
    cases drops

end Engine

end

/-! ## The metadata -/

/-- `db'` has the metadata of `db`. -/
def SameMetadata (db db' : ColdTier F) : Prop := db'.metadata = db.metadata

omit [FloatArith F] in
instance : Std.Refl (SameMetadata (F := F)) := ⟨fun _ => rfl⟩

omit [FloatArith F] in
instance : IsTrans (ColdTier F) SameMetadata := ⟨fun _ _ _ h h' => h'.trans h⟩

omit [FloatArith F] in
theorem same_metadata_moves (db : ColdTier F) {xs : List (StoreWrite F)}
    (none : ∀ data, .metadata data ∉ xs) : Wal.Moves ColdTier.apply SameMetadata db xs := by
  induction xs generalizing db with
  | nil => trivial
  | cons x rest ih =>
    refine ⟨?_, ih _ fun data mem => none data (List.mem_cons_of_mem _ mem)⟩
    cases x with
    | metadata data => exact absurd List.mem_cons_self (none data)
    | block | delete => rfl

/-- Calls log no metadata. -/
theorem logged_no_metadata (e : Engine F) (env : Env F) (c : Call F) (data : List UInt8) :
    .metadata data ∉ e.logged env c := by
  intro mem
  have written (blks : List (Block F)) : .metadata data ∉ blks.filterMap (Block.logged env) := by
    intro mem
    obtain ⟨blk, -, logged⟩ := List.mem_filterMap.mp mem
    unfold Block.logged at logged
    split at logged
    · cases logged
    · cases logged
  cases c with
  | dropSensor id =>
    simp only [Engine.logged] at mem
    split at mem
    · cases mem
    · split at mem
      · cases List.mem_singleton.mp mem
      · cases mem
  | _ => exact written _ mem

end

end ChronosVector
