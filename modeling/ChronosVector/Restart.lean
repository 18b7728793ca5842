import ChronosVector.Exact

/-!
# Identity and schema across restarts

* `validate_adopt`: `Open` accepts what `Create` wrote, and reads it back whole;
* `createAt`: `Create` with the directory it leaves behind at every exit;
* `identity_survives`: both ways to start on a path that has metadata.
-/

namespace ChronosVector

/-! ## Validation of its own output -/

namespace Config

variable {c : Config}

theorem default_ne_zero {α : Type} [OfNat α 0] [DecidableEq α] {x default : α}
    (h : default ≠ 0) : (if x = 0 then default else x) ≠ 0 := by
  split
  · exact h
  · assumption

/-- Nothing is zero where zero means a default. -/
structure Defaulted (c : Config) : Prop where
  capacity : c.ringCapacity ≠ 0
  window : c.windowDurationMs ≠ 0
  interval : c.evictionIntervalMs ≠ 0

theorem withDefaults_defaulted (c : Config) : c.withDefaults.Defaulted :=
  ⟨default_ne_zero (by decide), default_ne_zero (by decide), default_ne_zero (by decide)⟩

theorem Defaulted.withDefaults_eq (h : c.Defaulted) : c.withDefaults = c := by
  simp only [withDefaults, h.capacity, h.window, h.interval, if_false]

end Config

/-- What validation lets through, a second one lets through. -/
theorem validate_valid (v : ValidConfig) {c : Config} (defaulted : c.Defaulted)
    (abi : c.abiVersion = chronosvAbiVersion) (dim : c.dim = v.dim)
    (dtype : c.storageDtype = v.storageDtype) (metric : c.distanceMetric = v.distanceMetric)
    (payload : c.payloadSizeBytes = v.payloadSizeBytes) (capacity : c.ringCapacity = v.ringCapacity)
    (window : c.windowDurationMs = v.windowDurationMs)
    (interval : c.evictionIntervalMs = v.evictionIntervalMs) :
    ∃ v', validateAndDefault c = .ok v' ∧ v'.toConfig = c := by
  have accepted : ∃ v', validateAndDefault c = .ok v' := by
    unfold validateAndDefault
    rw [dif_pos]
    · exact ⟨_, rfl⟩
    · rw [defaulted.withDefaults_eq, abi, dim, payload, dtype, metric, capacity, window, interval]
      exact ⟨rfl, v.dim_pos, v.dim_le, v.payload_le, v.dtype_le, v.metric_le, v.capacity_min,
        v.capacity_pow, v.window_nonneg, v.interval_min⟩
  obtain ⟨v', h⟩ := accepted
  exact ⟨v', h, (validate_ok h).trans defaulted.withDefaults_eq⟩

/-- **Reading back.** The metadata of a checked configuration passes the checks
of `Open`, which finds every field as it was. -/
theorem validate_adopt {c : Config} {v : ValidConfig} (h : validateAndDefault c = .ok v)
    (uuid : Uuid) : ∃ v', validateAndDefault (placeholderConfig.adopt (v.metadata uuid)) = .ok v' ∧
      v'.metadata uuid = c.withDefaults.metadata uuid := by
  have same := validate_ok h
  have defaulted : (placeholderConfig.adopt (v.metadata uuid)).Defaulted := by
    have own : v.toConfig.Defaulted := same ▸ c.withDefaults_defaulted
    exact ⟨own.capacity, own.window, own.interval⟩
  obtain ⟨v', accepted, read⟩ := validate_valid v defaulted rfl rfl rfl rfl rfl rfl rfl rfl
  refine ⟨v', accepted, ?_⟩
  rw [read, ← same]
  rfl

variable {F : Type} [FloatArith F]

namespace Engine

variable {env : Env F} {e : Engine F} {c : Config} {db : ColdTier F}

/-! ## Open -/

theorem recoverSensors_succeeds (lists : ∀ s, env.storage.listBlocks s = .ok) (ids : List SensorId)
    (backend : e.backend = .rocksdb db) : ∃ e', recoverSensors env e ids = .ok e' := by
  induction ids generalizing e with
  | nil => exact ⟨e, rfl⟩
  | cons s rest ih =>
    simp only [recoverSensors, backend, Backend.listBlocks, lists s, if_true]
    exact ih backend

/-- `Open` succeeds on a path whose metadata passes its checks, whatever the reads
of blocks answer. -/
theorem openPath_lists (lists : env.storage.Lists) {bytes : List UInt8} {m : Metadata}
    {v : ValidConfig} (stored : db.metadata = some bytes)
    (decodes : deserializeEngineMetadata bytes = .ok m)
    (valid : validateAndDefault (placeholderConfig.adopt m) = .ok v) :
    ∃ e, openPath env (some db) = .ok e ∧ e.cfg = v ∧ e.uuid = m.uuid := by
  have persisted : persistedConfig env (.rocksdb db) = .ok (placeholderConfig.adopt m, m.uuid) := by
    simp only [persistedConfig, Backend.readMetadata, lists.readMetadata, if_true, stored, decodes]
  have opens : ∃ e, openPath env (some db) = .ok e := by
    simp only [openPath, initBackend, lists.init, if_true, persisted, valid,
      Backend.listSensors, lists.listSensors]
    exact recoverSensors_succeeds lists.listBlocks _ rfl
  obtain ⟨e, opened⟩ := opens
  obtain ⟨raw, read, checked⟩ := (openPath_spec opened).cfg
  obtain ⟨rfl, uuid⟩ := Prod.mk.inj (Except.ok.inj (persisted.symm.trans read))
  exact ⟨e, opened, Except.ok.inj (checked.symm.trans valid), uuid.symm⟩

/-- `Open` succeeds on metadata that `Create` wrote. -/
theorem openPath_succeeds (succeeds : env.storage.Succeeds) {v : ValidConfig} {uuid : Uuid}
    (valid : validateAndDefault c = .ok v)
    (metadata : db.metadata = some (serializeEngineMetadata (v.metadata uuid))) :
    ∃ e, openPath env (some db) = .ok e ∧
      e.cfg.metadata e.uuid = c.withDefaults.metadata uuid := by
  obtain ⟨v', accepted, fields⟩ := validate_adopt valid uuid
  obtain ⟨e, opened, cfg, identity⟩ :=
    openPath_lists succeeds.lists metadata (deserialize_serialize _) accepted
  exact ⟨e, opened, by rw [cfg, identity]; exact fields⟩

/-! ## Create -/

/-- `Engine::Create` on a directory, with the directory it leaves at each exit. -/
def createAt (env : Env F) (cfgIn : Config) (db : ColdTier F) :
    Except ErrorCode (Engine F) × ColdTier F :=
  match validateAndDefault cfgIn with
  | .error err => (.error err, db)
  | .ok cfg =>
    match initBackend env (some db) with
    | .error err => (.error err, db)
    | .ok bk =>
      match reconcile env cfg (if isZeroUuid cfg.uuid then env.freshUuid else cfg.uuid) bk with
      | .error err => (.error err, bk.cold)
      | .ok uuid =>
        let (me, bk) := bk.writeMetadata env.storage.writeMetadata
          (serializeEngineMetadata (cfg.metadata uuid))
        if me ≠ .ok ∧ me ≠ .notFound then (.error me, bk.cold) else (.ok (init cfg uuid bk), bk.cold)

theorem createAt_create (env : Env F) (c : Config) (db : ColdTier F) :
    (createAt env c db).1 = create env c (some db) := by
  unfold createAt create
  cases validateAndDefault c with
  | error err => rfl
  | ok cfg =>
    cases initBackend env (some db) with
    | error err => rfl
    | ok bk =>
      dsimp only
      cases reconcile env cfg (if isZeroUuid cfg.uuid then env.freshUuid else cfg.uuid) bk with
      | error err => rfl
      | ok uuid =>
        dsimp only
        split <;> rfl

/-- What `Create` returns and what it leaves behind. -/
def Leaves (db : ColdTier F) : Except ErrorCode (Engine F) × ColdTier F → Prop
  | (.error _, db') => db' = db
  | (.ok e, db') => db' = e.backend.cold

theorem createAt_leaves (env : Env F) (c : Config) (db : ColdTier F) :
    Leaves db (createAt env c db) := by
  unfold createAt initBackend
  cases validateAndDefault c with
  | error err => rfl
  | ok cfg =>
    by_cases init : env.storage.init = .ok
    · simp only [init, if_true]
      cases reconcile env cfg (if isZeroUuid cfg.uuid then env.freshUuid else cfg.uuid)
        (.rocksdb db) with
      | error err => rfl
      | ok uuid =>
        dsimp only
        rw [writeMetadata_rocksdb _ _ (serialize_ne_nil _)]
        by_cases stored : env.storage.writeMetadata = .ok
        · simp only [stored, if_true, ne_eq, not_true, false_and, if_false]
          rfl
        · simp only [stored, if_false]
          split <;> rfl
    · simp only [init, if_false]
      rfl

theorem createAt_created (created : create env c (some db) = .ok e) :
    createAt env c db = (.ok e, e.backend.cold) := by
  have returned := (createAt_create env c db).trans created
  have leaves := createAt_leaves env c db
  generalize createAt env c db = made at returned leaves
  obtain ⟨result, db'⟩ := made
  subst returned
  rw [show db' = e.backend.cold from leaves]

omit [FloatArith F] in
/-- The reconciliation with metadata that decodes. -/
theorem reconcile_stored (succeeds : env.storage.Succeeds) {bytes : List UInt8} {m : Metadata}
    (stored : db.metadata = some bytes) (decodes : deserializeEngineMetadata bytes = .ok m)
    (v : ValidConfig) (uuid : Uuid) : reconcile env v uuid (.rocksdb db) =
      if m.SchemaMatches v.toConfig then .ok m.uuid else .error .invalidArg := by
  simp only [reconcile, Backend.readMetadata, succeeds.readMetadata, if_true, stored, decodes]

/-- `Create` on a path with metadata that decodes. -/
theorem createAt_stored (succeeds : env.storage.Succeeds) {v : ValidConfig} {bytes : List UInt8}
    {m : Metadata} (valid : validateAndDefault c = .ok v) (stored : db.metadata = some bytes)
    (decodes : deserializeEngineMetadata bytes = .ok m) : createAt env c db =
      if m.SchemaMatches v.toConfig then
        let db' := { db with metadata := some (serializeEngineMetadata (v.metadata m.uuid)) }
        (.ok (init v m.uuid (.rocksdb db')), db')
      else (.error .invalidArg, db) := by
  simp only [createAt, valid, initBackend, succeeds.init, if_true,
    reconcile_stored succeeds stored decodes]
  by_cases agree : m.SchemaMatches v.toConfig
  · simp only [agree, if_true, writeMetadata_rocksdb _ _ (serialize_ne_nil _),
      succeeds.writeMetadata, ne_eq, not_true, false_and, if_false]
    rfl
  · simp only [agree, if_false]
    rfl

end Engine

/-! ## What lies between -/

/-- Only `Create` writes metadata. -/
theorem World.metadata_step {w : World F} (ok : w.Ok) (env : Env F) {op : Op F}
    (later : op.isCreate = false) : (w.step env op).disk.metadata = w.disk.metadata := by
  have kind := World.step_kind w env op
  generalize w.step env op = w' at kind
  cases kind with
  | stays => rfl
  | created cfg disk e session isOp =>
    rw [isOp] at later
    cases later
  | opened disk e session isOp spec =>
    rw [World.disk_of_down session, World.disk_of_up (e := e) rfl, spec.backend]
    rfl
  | called e c session =>
    rw [World.disk_of_up session, World.disk_of_up (e := (e.call env c).2) rfl]
    exact (Engine.call_frame (ok e session).1 env c).metadata
  | destroyed e session =>
    rw [World.disk_of_up session]
    rfl

/-- The directory that `createAt` leaves is the one a run goes on with. -/
theorem World.create_disk {w : World F} {db : ColdTier F} (down : w.session = .down db)
    (env : Env F) (c : Config) :
    (w.step env (.create c)).disk = (Engine.createAt env c db).2 := by
  simp only [World.step, down, ← Engine.createAt_create]
  have leaves := Engine.createAt_leaves env c db
  generalize Engine.createAt env c db = made at leaves
  obtain ⟨result, db'⟩ := made
  cases result with
  | error err => exact (World.disk_of_down down).trans leaves.symm
  | ok e => exact (World.disk_of_up (e := e) rfl).trans leaves.symm

theorem World.metadata_run {w : World F} {ops : List (Env F × Op F)} (ok : w.Ok)
    (later : ∀ x ∈ ops, x.2.isCreate = false) :
    (World.run ops w).disk.metadata = w.disk.metadata := by
  induction ops generalizing w with
  | nil => rfl
  | cons x rest ih =>
    obtain ⟨now, later⟩ := List.forall_mem_cons.mp later
    exact (ih (World.step_ok ok x.1 x.2) later).trans (World.metadata_step ok x.1 now)

/-! ## Both ways to start again -/

/-- **Identity and schema survive restarts.** After a `Create` on an empty path,
and any lifetimes that `Open` began, `Open` finds the created engine's identity
and every persisted field as `Create` defaulted it. On metadata that decodes,
`Create` succeeds exactly when the schema agrees and keeps the stored identity;
else it leaves the directory alone. -/
theorem identity_survives {env : Env F} (succeeds : env.storage.Succeeds) (c : Config) :
    (∀ e, Engine.create env c (some .empty) = .ok e →
      ∀ ops : List (Env F × Op F), (∀ x ∈ ops, x.2.isCreate = false) →
      ∀ db, (World.run ((env, .create c) :: ops) World.fresh).session = .down db →
      ∀ env' : Env F, env'.storage.Succeeds → ∃ e', Engine.openPath env' (some db) = .ok e' ∧
        e'.cfg.metadata e'.uuid = c.withDefaults.metadata e.uuid) ∧
    (∀ v, validateAndDefault c = .ok v → ∀ (db : ColdTier F) bytes m, db.metadata = some bytes →
      deserializeEngineMetadata bytes = .ok m →
      ((∃ e, (Engine.createAt env c db).1 = .ok e) ↔ m.SchemaMatches c.withDefaults) ∧
      (∀ e, (Engine.createAt env c db).1 = .ok e → e.uuid = m.uuid ∧
        (Engine.createAt env c db).2.metadata =
          some (serializeEngineMetadata (c.withDefaults.metadata m.uuid))) ∧
      (¬ m.SchemaMatches c.withDefaults →
        (Engine.createAt env c db).1 = .error .invalidArg ∧
        (Engine.createAt env c db).2.metadata = some bytes)) := by
  constructor
  · intro e created ops later db down env' succeeds'
    have spec := Engine.create_spec created
    have fresh : (World.fresh : World F).Ok := by
      rintro _ ⟨⟩
    have ok := World.step_ok fresh env (.create c)
    have written : (World.fresh.step env (.create c)).disk.metadata =
        some (serializeEngineMetadata (e.cfg.metadata e.uuid)) := by
      rw [World.create_disk rfl, Engine.createAt_created created]
      exact spec.metadata succeeds.writeMetadata
    have kept := (World.metadata_run ok later).trans written
    rw [← World.run, World.disk_of_down down] at kept
    exact Engine.openPath_succeeds succeeds' spec.cfg kept
  · intro v valid db bytes m stored decodes
    rw [← validate_ok valid, Engine.createAt_stored succeeds valid stored decodes]
    by_cases agree : m.SchemaMatches v.toConfig
    · rw [if_pos agree]
      refine ⟨⟨fun _ => agree, fun _ => ⟨_, rfl⟩⟩, ?_, fun differ => absurd agree differ⟩
      rintro e ⟨⟩
      exact ⟨rfl, rfl⟩
    · rw [if_neg agree]
      refine ⟨⟨?_, fun agrees => absurd agrees agree⟩, ?_, fun _ => ⟨rfl, stored⟩⟩
      · rintro ⟨e, ⟨⟩⟩
      · rintro e ⟨⟩

/-- Metadata of `smallConfig` but for the dimension. -/
def widerMetadata : Metadata := { smallValid.metadata smallConfig.uuid with dim := 2 }

theorem identity_survives_small :
    (∃ e', Engine.openPath (.calm ℚ 9) (some (World.run
        ((.calm ℚ 0, .create smallConfig) :: calmly 0 [appendSmall 1 1, .destroy])
        World.fresh).disk) = .ok e' ∧
      e'.cfg.metadata e'.uuid = smallConfig.withDefaults.metadata smallEngine.uuid) ∧
    (Engine.createAt (.calm ℚ 0) smallConfig
        { (ColdTier.empty : ColdTier ℚ) with
          metadata := some (serializeEngineMetadata widerMetadata) }).1 = .error .invalidArg := by
  have both := identity_survives (Env.calm_succeeds ℚ 0) smallConfig
  constructor
  · exact both.1 smallEngine (smallEngine_created 0) (calmly 0 [appendSmall 1 1, .destroy])
      (by decide) _ rfl (.calm ℚ 9) (Env.calm_succeeds ℚ 9)
  · exact ((both.2 smallValid rfl _ _ _ rfl (deserialize_serialize widerMetadata)).2.2
      (by decide)).1

end ChronosVector
