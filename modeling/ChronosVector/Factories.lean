import Mathlib.Data.List.Flatten
import ChronosVector.Steps
import ChronosVector.Recovery
import ChronosVector.EngineMetadata

/-!
# The factories

`Engine::Create` and `Engine::Open`.

* `create_spec`: a created engine has no sensors and the path's blocks;
* `openPath_spec`: an opened engine has the persisted sensors, each with its
  block-id counter past every persisted block.
-/

namespace ChronosVector

variable {F : Type} [FloatArith F]

def isZeroUuid (u : Uuid) : Bool := u = Vector.replicate 16 0

/-- The configuration `Open` starts from; the rest is zero. -/
def placeholderConfig : Config where
  abiVersion := chronosvAbiVersion
  dim := 128
  uuid := Vector.replicate 16 0
  ringCapacity := 0
  windowDurationMs := 0
  evictionIntervalMs := 0
  payloadSizeBytes := 0
  storageDtype := 0
  distanceMetric := 0
  maxSensors := 0
  recoverHotWindow := 0

/-- The configuration with the fields of the blob. -/
def Config.adopt (cfg : Config) (m : Metadata) : Config :=
  { cfg with
    abiVersion := chronosvAbiVersion
    dim := m.dim
    storageDtype := m.storageDtype
    distanceMetric := m.distanceMetric
    payloadSizeBytes := m.payloadSizeBytes
    ringCapacity := m.ringCapacity
    windowDurationMs := m.windowDurationMs
    evictionIntervalMs := m.evictionIntervalMs
    recoverHotWindow := m.recoverHotWindow }

/-- `schema_matches`. -/
def Metadata.SchemaMatches (m : Metadata) (cfg : Config) : Prop :=
  m.dim = cfg.dim ∧ m.storageDtype = cfg.storageDtype ∧ m.distanceMetric = cfg.distanceMetric ∧
  m.payloadSizeBytes = cfg.payloadSizeBytes ∧ m.ringCapacity = cfg.ringCapacity

instance (m : Metadata) (cfg : Config) : Decidable (m.SchemaMatches cfg) := by
  unfold Metadata.SchemaMatches
  infer_instance

namespace Engine

variable (env : Env F)

/-- `InitBackend`; `none` is a null or empty cold path. -/
def initBackend : Option (ColdTier F) → Except ErrorCode (Backend F)
  | none => .ok .null
  | some db => if env.storage.init = .ok then .ok (.rocksdb db) else .error .io

/-- The reconciliation of `Create` with metadata found at the path: the identity
to use. -/
def reconcile (cfg : ValidConfig) (uuid : Uuid) (bk : Backend F) : Except ErrorCode Uuid :=
  match bk.readMetadata env.storage.readMetadata with
  | .error .notFound => .ok uuid
  | .error err => .error err
  | .ok bytes =>
    match deserializeEngineMetadata bytes with
    | .error err => .error err
    | .ok persisted =>
      if persisted.SchemaMatches cfg.toConfig then .ok persisted.uuid else .error .invalidArg

/-- `Engine::Create`. -/
def create (cfgIn : Config) (path : Option (ColdTier F)) : Except ErrorCode (Engine F) :=
  match validateAndDefault cfgIn with
  | .error err => .error err
  | .ok cfg =>
    match initBackend env path with
    | .error err => .error err
    | .ok bk =>
      match reconcile env cfg (if isZeroUuid cfg.uuid then env.freshUuid else cfg.uuid) bk with
      | .error err => .error err
      | .ok uuid =>
        let (me, bk) := bk.writeMetadata env.storage.writeMetadata
          (serializeEngineMetadata (cfg.metadata uuid))
        if me ≠ .ok ∧ me ≠ .notFound then .error me else .ok (init cfg uuid bk)

/-- The configuration and identity `Open` reads at the path, before defaulting. -/
def persistedConfig (bk : Backend F) : Except ErrorCode (Config × Uuid) :=
  match bk.readMetadata env.storage.readMetadata with
  | .error .notFound => .ok (placeholderConfig, env.freshUuid)
  | .error err => .error err
  | .ok bytes =>
    match deserializeEngineMetadata bytes with
    | .error err => .error err
    | .ok m => .ok (placeholderConfig.adopt m, m.uuid)

/-- `ids_buf.empty() ? 0 : ids_buf.back() + 1`. -/
def seedBlockId (ids : List Nat) : Nat :=
  match ids.getLast? with
  | none => 0
  | some last => last + 1

/-- The loop of `Open` over the persisted sensors. -/
def recoverSensors (e : Engine F) : List SensorId → Except ErrorCode (Engine F)
  | [] => .ok e
  | s :: rest =>
    match e.backend.listBlocks (env.storage.listBlocks s) s with
    | .error err => .error err
    | .ok ids =>
      let ring :=
        if e.cfg.recoverHotWindow ≠ 0 then
          rehydrateSensorRing e.cfg e.backend env s ids (env.now - e.cfg.windowDurationMs)
        else none
      recoverSensors (e.setSlot s ⟨ring, seedBlockId ids⟩) rest

/-- `Engine::Open`. -/
def openPath (path : Option (ColdTier F)) : Except ErrorCode (Engine F) :=
  match path with
  | none => .error .invalidArg
  | some db =>
    match initBackend env (some db) with
    | .error err => .error err
    | .ok bk =>
      match persistedConfig env bk with
      | .error err => .error err
      | .ok (cfg, uuid) =>
        match validateAndDefault cfg with
        | .error err => .error err
        | .ok cfg =>
          match bk.listSensors env.storage.listSensors with
          | .error err => .error err
          | .ok ids => recoverSensors env (init cfg uuid bk) ids

/-! ## What the factories establish -/

section
variable {env : Env F} {e : Engine F} {cfgIn : Config} {db : ColdTier F} {s : SensorId}

theorem init_ok (cfg : ValidConfig) (uuid : Uuid) (bk : Backend F) : (init cfg uuid bk).Ok := by
  intro s r hr
  simp [ring, init] at hr

theorem init_tier (cfg : ValidConfig) (uuid : Uuid) (bk : Backend F) (s : SensorId) :
    (init cfg uuid bk).tier s = ⟨.empty, 0, bk.cold.blocks s⟩ := by
  simp [tier, ring, init]

/-- What `Create` returns on the directory `db`. -/
structure Created (env : Env F) (cfgIn : Config) (db : ColdTier F) (e : Engine F) : Prop where
  cfg : validateAndDefault cfgIn = .ok e.cfg
  ok : e.Ok
  persists : e.backend.persists = true
  tier : ∀ s, e.tier s = ⟨.empty, 0, db.blocks s⟩
  closed : e.closed = false
  reconciled : ∀ bytes m, env.storage.readMetadata = .ok → db.metadata = some bytes →
    deserializeEngineMetadata bytes = .ok m → m.SchemaMatches e.cfg.toConfig
  metadata : env.storage.writeMetadata = .ok →
    e.backend.cold.metadata = some (serializeEngineMetadata (e.cfg.metadata e.uuid))

omit [FloatArith F] in
theorem writeMetadata_rocksdb (status : ErrorCode) (data : List UInt8) (hd : data ≠ [])
    (db : ColdTier F) :
    (Backend.rocksdb db).writeMetadata status data =
      if status = .ok then (.ok, .rocksdb { db with metadata := some data })
      else (status, .rocksdb db) := by
  simp only [Backend.writeMetadata, hd, if_false]

theorem create_spec (h : create env cfgIn (some db) = .ok e) : Created env cfgIn db e := by
  unfold create at h
  split at h
  · cases h
  rename_i cfg hcfg
  split at h
  · cases h
  rename_i bk hbk
  simp only [initBackend] at hbk
  split at hbk
  · cases hbk
    split at h
    · cases h
    rename_i uuid hrec
    have hne := serialize_ne_nil (cfg.metadata uuid)
    have hmatch : ∀ bytes m, env.storage.readMetadata = .ok → db.metadata = some bytes →
        deserializeEngineMetadata bytes = .ok m → m.SchemaMatches cfg.toConfig := by
      intro bytes m hst hdb hm
      simp only [reconcile, Backend.readMetadata, hst, if_true, hdb, hm] at hrec
      split at hrec
      · assumption
      · cases hrec
    rw [writeMetadata_rocksdb _ _ hne] at h
    by_cases hst : env.storage.writeMetadata = .ok
    · simp only [hst, if_true, ne_eq, not_true, false_and, if_false] at h
      cases h
      exact ⟨hcfg, init_ok _ _ _, rfl, fun s => init_tier _ _ _ s, rfl, hmatch, fun _ => rfl⟩
    · simp only [hst, if_false] at h
      split at h
      · cases h
      · cases h
        exact ⟨hcfg, init_ok _ _ _, rfl, fun s => init_tier _ _ _ s, rfl, hmatch,
          fun h => absurd h hst⟩
  · cases hbk

omit [FloatArith F] in
/-- Every persisted id is below the seed. -/
theorem lt_seedBlockId (m : SortedMap Nat (StoredBlock F)) {id : Nat} (h : id ∈ m.keys) :
    id < seedBlockId m.keys := by
  unfold seedBlockId
  split
  · rename_i hlast
    rw [List.getLast?_eq_none_iff.mp hlast] at h
    cases h
  · rename_i last hlast
    exact Nat.lt_succ_of_le (SortedMap.le_of_getLast? hlast h)

theorem seedBlockId_range (n : Nat) : seedBlockId (List.range n) = n := by
  cases n with
  | zero => rfl
  | succ n => simp [seedBlockId, List.range_succ]

/-- The slot recovery registers for a sensor with block ids `l`. -/
def recoveredSlot (env : Env F) (cfg : ValidConfig) (bk : Backend F) (s : SensorId)
    (l : List Nat) : SensorSlot F :=
  ⟨if cfg.recoverHotWindow ≠ 0 then
      rehydrateSensorRing cfg bk env s l (env.now - cfg.windowDurationMs) else none,
    seedBlockId l⟩

theorem recoveredSlot_ring {cfg : ValidConfig} {bk : Backend F} {l : List Nat} {r : SensorRing F}
    (h : (recoveredSlot env cfg bk s l).ring = some r) : r.shape = cfg.shape ∧ r.Ok := by
  simp only [recoveredSlot] at h
  split at h
  · exact rehydrate_ring h
  · cases h

/-- What the loop over the persisted sensors registers. -/
theorem recoverSensors_spec {e₀ : Engine F} {ids : List SensorId} (nodup : ids.Nodup)
    (h : recoverSensors env e₀ ids = .ok e) (ok : e₀.Ok) :
    e.Ok ∧ e.cfg = e₀.cfg ∧ e.uuid = e₀.uuid ∧ e.backend = e₀.backend ∧ e.closed = e₀.closed ∧
    (∀ s, s ∉ ids → e.sensors.lookup s = e₀.sensors.lookup s) ∧
    (∀ s ∈ ids, ∃ l, e₀.backend.listBlocks (env.storage.listBlocks s) s = .ok l ∧
      e.sensors.lookup s = some (recoveredSlot env e₀.cfg e₀.backend s l)) := by
  induction ids generalizing e₀ with
  | nil =>
    cases h
    exact ⟨ok, rfl, rfl, rfl, rfl, fun _ _ => rfl, by simp⟩
  | cons s₀ rest ih =>
    obtain ⟨fresh, nodup'⟩ := List.nodup_cons.mp nodup
    simp only [recoverSensors] at h
    split at h
    · cases h
    rename_i l hl
    obtain ⟨hok, hcfg, huuid, hbk, hclosed, others, listed⟩ := ih nodup' h
      (ok_setSlot ok fun r (hr : (recoveredSlot env e₀.cfg e₀.backend s₀ l).ring = some r) =>
        recoveredSlot_ring hr)
    refine ⟨hok, hcfg, huuid, hbk, hclosed, fun s hs => ?_, fun s hs => ?_⟩
    · obtain ⟨ne, hs⟩ := not_or.mp (mt List.mem_cons.mpr hs)
      exact (others s hs).trans (lookup_setSlot_ne ne _)
    · obtain rfl | hs := List.mem_cons.mp hs
      · exact ⟨l, hl, (others s fresh).trans (lookup_setSlot_self _)⟩
      · exact listed s hs

/-- What `Open` returns on the directory `db`. -/
structure Opened (env : Env F) (db : ColdTier F) (e : Engine F) : Prop where
  ok : e.Ok
  backend : e.backend = .rocksdb db
  closed : e.closed = false
  slot : ∀ s, (db.blocks s).keys ≠ [] → e.sensors.lookup s =
    some (recoveredSlot env e.cfg (.rocksdb db) s (db.blocks s).keys)
  unlisted : ∀ s, (db.blocks s).keys = [] → e.sensors.lookup s = none
  cfg : ∃ raw, persistedConfig env (.rocksdb db) = .ok (raw, e.uuid) ∧
    validateAndDefault raw = .ok e.cfg

theorem openPath_spec (h : openPath env (some db) = .ok e) : Opened env db e := by
  simp only [openPath, initBackend] at h
  split at h
  · cases h
  rename_i bk hbk
  split at hbk
  · cases hbk
    split at h
    · cases h
    rename_i raw uuid hraw
    split at h
    · cases h
    rename_i cfg hcfg
    split at h
    · cases h
    rename_i ids hids
    have hst : env.storage.listSensors = .ok := by
      by_contra hst
      simp [Backend.listSensors, hst] at hids
    rw [hst] at hids
    have nodup : ids.Nodup := by
      simp only [Backend.listSensors, if_true, Except.ok.injEq] at hids
      rw [← hids]
      exact db.sensors.keys_nodup.filter _
    obtain ⟨hok, he, huuid, hb, hclosed, others, listed⟩ :=
      recoverSensors_spec nodup h (init_ok _ _ _)
    have mem := Backend.mem_listSensors hids
    refine ⟨hok, hb, hclosed, fun s hs => ?_, fun s hs => ?_, raw, ?_, ?_⟩
    · obtain ⟨l, hl, hlook⟩ := listed s ((mem s).mpr hs)
      simp only [init, Backend.listBlocks] at hl
      split at hl
      · cases hl
        rw [hlook, he]
        rfl
      · cases hl
    · rw [others s fun hin => (mem s).mp hin hs]
      rfl
    · rw [huuid]
      exact hraw
    · rw [he]
      exact hcfg
  · cases hbk

/-- The tier of a sensor of an opened engine. -/
theorem Opened.tier (h : Opened env db e) (s : SensorId) :
    (e.tier s).nextBlockId = seedBlockId (db.blocks s).keys ∧
    (e.tier s).blocks = db.blocks s ∧
    ((e.tier s).hot = .empty ∨
      ∃ r, (e.tier s).hot = r.queue ∧ rehydrateSensorRing e.cfg (.rocksdb db) env s
        (db.blocks s).keys (env.now - e.cfg.windowDurationMs) = some r) := by
  have hblocks : (e.tier s).blocks = db.blocks s := by
    simp only [Engine.tier, h.backend]
    rfl
  by_cases hk : (db.blocks s).keys = []
  · have hl := h.unlisted s hk
    refine ⟨?_, hblocks, .inl (hot_of_lookup_none hl)⟩
    simp [Engine.tier, hl, hk, seedBlockId]
  · have hl := h.slot s hk
    refine ⟨by simp [Engine.tier, hl, recoveredSlot], hblocks, ?_⟩
    simp only [Engine.tier, ring_eq hl, recoveredSlot]
    split
    · exact .inl rfl
    · rename_i r hr
      split at hr
      · exact .inr ⟨r, rfl, hr⟩
      · cases hr

/-- What recovery puts in the window of a sensor whose blocks have the engine's
shape is persisted, each row once. -/
theorem Opened.hot (h : Opened env db e)
    (shape : ∀ b ∈ (db.blocks s).values, b.HasShape e.cfg.shape) :
    (e.tier s).hot.first = 0 ∧
    (e.tier s).hotRows.Subperm ((db.blocks s).values.flatMap StoredBlock.rows) := by
  obtain ⟨-, -, empty | ⟨r, hot, hrun⟩⟩ := h.tier s
  · simp [Tier.hotRows, empty, BoundedQueue.empty]
  · obtain ⟨blks, sub, loaded⟩ := rehydrate_sound shape hrun
    refine ⟨by rw [hot, loaded.first], ?_⟩
    rw [Tier.hotRows, hot, loaded.rows_eq]
    have eligible : (blks.flatMap (StoredBlock.eligible (env.now - e.cfg.windowDurationMs))).Sublist
        (blks.flatMap StoredBlock.rows) :=
      List.Sublist.flatMap_right _ fun b _ => List.filter_sublist
    exact (eligible.trans (sub.flatMap _)).subperm.trans
      ((List.reverse_perm _).flatMap_right _).subperm

/-! ## Reachable engines -/

/-- What the factories and the calls can lead to, whatever the environment answers. -/
inductive Reachable : Engine F → Prop
  | created {env : Env F} {cfg : Config} {path : Option (ColdTier F)} {e : Engine F}
      (h : create env cfg path = .ok e) : Reachable e
  | opened {env : Env F} {path : Option (ColdTier F)} {e : Engine F}
      (h : openPath env path = .ok e) : Reachable e
  | called {e : Engine F} (h : Reachable e) (env : Env F) (c : Call F) : Reachable (e.call env c).2

theorem Reachable.run {e : Engine F} (h : Reachable e) (steps : List (Env F × Call F)) :
    Reachable (Engine.run steps e) := by
  induction steps generalizing e with
  | nil => exact h
  | cons x rest ih => exact ih (h.called x.1 x.2)

/-- Without a path, `Create` has nothing to reconcile. -/
theorem create_null (h : create env cfgIn none = .ok e) : ∃ cfg uuid, e = init cfg uuid .null := by
  unfold create at h
  split at h
  · cases h
  simp only [initBackend, reconcile, Backend.readMetadata, Backend.writeMetadata, ne_eq,
    not_true, false_and, if_false] at h
  cases h
  exact ⟨_, _, rfl⟩

/-- A created engine has empty windows. -/
theorem create_start {path : Option (ColdTier F)} (h : create env cfgIn path = .ok e) :
    e.Ok ∧ ∀ s, (e.tier s).hot = .empty := by
  cases path with
  | none =>
    obtain ⟨cfg, uuid, rfl⟩ := create_null h
    exact ⟨init_ok _ _ _, fun s => by rw [init_tier]⟩
  | some db =>
    have spec := create_spec h
    exact ⟨spec.ok, fun s => by rw [spec.tier s]⟩

theorem reachable_ok (h : Reachable e) : e.Ok := by
  induction h with
  | created h => exact (create_start h).1
  | @opened _ path _ h =>
    cases path with
    | none => cases h
    | some db => exact (openPath_spec h).ok
  | called _ env c ih => exact (call_frame ih env c).ok

end

end Engine

end ChronosVector
