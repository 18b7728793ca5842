import ChronosVector.BlockIds

/-!
# One schema per path

* `OneSchema`: every persisted block has the schema that the path's metadata
  records;
* `one_schema_iff`: a run keeps it exactly when every pass that persists rows
  finds metadata at the path.

An engine opened on a path that nobody created persists blocks of the
placeholder schema and no metadata; a later `Create` records another schema.
-/

namespace ChronosVector

variable {F : Type}

/-- The metadata at the path. -/
def ColdTier.Records (db : ColdTier F) (m : Metadata) : Prop :=
  ∃ bytes, db.metadata = some bytes ∧ deserializeEngineMetadata bytes = .ok m

/-- The block has the schema of the metadata. -/
def StoredBlock.Matches (b : StoredBlock F) (m : Metadata) : Prop :=
  b.dim = m.dim.toNat ∧ b.payloadSizeBytes = m.payloadSizeBytes.toNat ∧
  b.dtype = dtypeOf m.storageDtype

/-- The rings of an engine have the schema of the metadata. -/
def Metadata.Describes (m : Metadata) (sh : RingShape) : Prop :=
  sh.dim = m.dim.toNat ∧ sh.payloadSize = m.payloadSizeBytes.toNat ∧
  sh.dtype = dtypeOf m.storageDtype

def OneSchema (db : ColdTier F) : Prop :=
  ∀ s, ∀ b ∈ (db.blocks s).values, ∃ m, db.Records m ∧ b.Matches m

section
variable {db db' : ColdTier F} {b : StoredBlock F} {m m' : Metadata} {sh : RingShape}

theorem StoredBlock.HasShape.matches (h : b.HasShape sh) (d : m.Describes sh) : b.Matches m :=
  ⟨h.1.trans d.1, h.2.1.trans d.2.1, h.2.2.trans d.2.2⟩

theorem StoredBlock.Matches.shape (h : b.Matches m) (d : m.Describes sh) : b.HasShape sh :=
  ⟨h.1.trans d.1.symm, h.2.1.trans d.2.1.symm, h.2.2.trans d.2.2.symm⟩

theorem ColdTier.Records.congr (hm : db'.metadata = db.metadata) (h : db.Records m) :
    db'.Records m := by
  rwa [Records, hm]

theorem ColdTier.Records.unique (h : db.Records m) (h' : db.Records m') : m = m' := by
  obtain ⟨bytes, hb, hd⟩ := h
  obtain ⟨bytes', hb', hd'⟩ := h'
  rw [hb] at hb'
  cases hb'
  rw [hd] at hd'
  exact Except.ok.inj hd'

end

section
variable [FloatArith F] {env : Env F} {db : ColdTier F} {cfgIn : Config} {e : Engine F}
  {m : Metadata} {s : SensorId}

/-! ## The factories -/

omit [FloatArith F] in
theorem created_records (spec : Engine.Created env cfgIn db e)
    (wr : env.storage.writeMetadata = .ok) :
    e.backend.cold.Records (e.cfg.metadata e.uuid) :=
  ⟨_, spec.metadata wr, deserialize_serialize _⟩

omit [FloatArith F] in
theorem created_describes (spec : Engine.Created env cfgIn db e)
    (wr : env.storage.writeMetadata = .ok) (h : e.backend.cold.Records m) :
    m.Describes e.cfg.shape := by
  rw [← (created_records spec wr).unique h]
  exact ⟨rfl, rfl, rfl⟩

omit [FloatArith F] in
/-- Reconciliation keeps the schema of the blocks already there. -/
theorem created_oneSchema (spec : Engine.Created env cfgIn db e)
    (rd : env.storage.readMetadata = .ok) (wr : env.storage.writeMetadata = .ok)
    (h : OneSchema db) : OneSchema e.backend.cold := by
  intro s b hb
  have hblocks : e.backend.cold.blocks s = db.blocks s := congrArg Tier.blocks (spec.tier s)
  rw [hblocks] at hb
  obtain ⟨m, ⟨bytes, hbytes, hm⟩, hdim, hpay, hdt⟩ := h s b hb
  obtain ⟨edim, edt, -, epay, -⟩ := spec.reconciled bytes m rd hbytes hm
  refine ⟨_, created_records spec wr, ?_, ?_, ?_⟩
  · rw [hdim, edim]
    rfl
  · rw [hpay, epay]
    rfl
  · rw [hdt, edt]
    rfl

theorem opened_describes (spec : Engine.Opened env db e) (rd : env.storage.readMetadata = .ok)
    (h : db.Records m) : m.Describes e.cfg.shape := by
  obtain ⟨raw, hraw, hvalid⟩ := spec.cfg
  obtain ⟨bytes, hbytes, hm⟩ := h
  simp only [Engine.persistedConfig, Backend.readMetadata, rd, if_true, hbytes, hm] at hraw
  obtain ⟨rfl, -⟩ := Prod.mk.inj (Except.ok.inj hraw)
  have hcfg := validate_ok hvalid
  refine ⟨?_, ?_, ?_⟩ <;>
    simp only [ValidConfig.shape, hcfg, Config.withDefaults, Config.adopt]

/-- Every block of a directory with one schema has the shape of the engine opened
on it. -/
theorem opened_shape (spec : Engine.Opened env db e) (rd : env.storage.readMetadata = .ok)
    (h : OneSchema db) : ∀ b ∈ (db.blocks s).values, b.HasShape e.cfg.shape := by
  intro b hb
  obtain ⟨m, hrec, hmatch⟩ := h s b hb
  exact hmatch.shape (opened_describes spec rd hrec)

/-! ## The calls -/

/-- A block found after a call was there before, or has the engine's shape and
was evicted from the window. -/
theorem Tier.Step.blocks {c : Call F} {t' : Tier F} (h : Tier.Step e env c s t')
    {b : StoredBlock F} (hb : b ∈ t'.blocks.values) :
    b ∈ (e.tier s).blocks.values ∨
    (b.HasShape e.cfg.shape ∧ ∃ e' w, e.pass c = some (e', w) ∧
      0 < (e.tier s).evictedCount env w s) := by
  cases h with
  | append =>
    rw [Tier.pushAll_blocks] at hb
    exact .inl hb
  | evict e' w own _ pass _ evicts =>
    cases evicts with
    | idle => exact .inl hb
    | wrote k blk count pos _ _ cut =>
      simp only [WriteOutcome.of] at hb
      split at hb
      · exact .inl hb
      split at hb
      · obtain rfl | hb := SortedMap.mem_values_put hb
        · exact .inr ⟨⟨cut.dim, cut.payloadSizeBytes, cut.dtype⟩, e', w, pass, count ▸ pos⟩
        · exact .inl hb
      · exact .inl hb
  | drop _ _ _ _ blocks deleted =>
    obtain rfl | rfl := deleted
    · simp [SortedMap.values, SortedMap.empty] at hb
    · exact .inl hb

/-! ## Runs -/

/-- The backend succeeds. -/
def Succeeding (_ : World F) (env : Env F) (_ : Op F) : Prop := env.storage.Succeeds

/-- After the step, the path has one schema. -/
def KeepsSchema (w : World F) (env : Env F) (op : Op F) : Prop := OneSchema (w.step env op).disk

/-- A pass that persists rows finds metadata at the path. -/
def EvictsRecorded (w : World F) (env : Env F) (op : Op F) : Prop :=
  ∀ e c e' win s, w.session = .up e → op = .call c → e.pass c = some (e', win) →
    0 < (e.tier s).evictedCount env win s → e.backend.cold.metadata.isSome

structure SchemaOk (w : World F) : Prop where
  ok : w.Ok
  one : OneSchema w.disk
  readable : ∀ bytes, w.disk.metadata = some bytes → ∃ m, deserializeEngineMetadata bytes = .ok m
  live : ∀ e, w.session = .up e → ∀ m, e.backend.cold.Records m → m.Describes e.cfg.shape

omit [FloatArith F] in
theorem fresh_schemaOk : SchemaOk (World.fresh : World F) where
  ok _ h := by simp [World.fresh] at h
  one s b hb := by
    simp [World.fresh, World.disk, SortedMap.empty, SortedMap.values] at hb
  readable _ h := by simp [World.fresh, World.disk, ColdTier.empty] at h
  live _ h := by simp [World.fresh] at h

/-- **One step.** -/
theorem schemaOk_step {w : World F} {op : Op F} (h : SchemaOk w) (a : Succeeding w env op)
    (recorded : EvictsRecorded w env op) : SchemaOk (w.step env op) := by
  have ok' := World.step_ok h.ok env op
  have kind := World.step_kind w env op
  generalize w.step env op = w' at kind ok'
  cases kind with
  | stays => exact h
  | created cfg disk e session isOp spec =>
    have one := h.one
    rw [World.disk_of_down session] at one
    refine ⟨ok', created_oneSchema spec a.readMetadata a.writeMetadata one, ?_, ?_⟩
    · intro bytes hbytes
      obtain ⟨_, hsome, hm⟩ := created_records spec a.writeMetadata
      exact ⟨_, by rwa [Option.some.inj (hbytes.symm.trans hsome)]⟩
    · rintro _ ⟨⟩ m hm
      exact created_describes spec a.writeMetadata hm
  | opened disk e session isOp spec =>
    have hcold : e.backend.cold = disk := by rw [spec.backend]; rfl
    have one := h.one
    have readable := h.readable
    rw [World.disk_of_down session, ← hcold] at one readable
    refine ⟨ok', one, readable, ?_⟩
    rintro _ ⟨⟩ m hm
    exact opened_describes spec a.readMetadata (hcold ▸ hm)
  | called e c session isOp =>
    subst isOp
    obtain ⟨ok, -⟩ := h.ok e session
    have frame := Engine.call_frame ok env c
    have one := h.one
    have readable := h.readable
    rw [World.disk_of_up session] at one readable
    refine ⟨ok', fun s b hb => ?_, by rwa [← frame.metadata] at readable, ?_⟩
    · obtain hb | ⟨hsh, e', win, hp, pos⟩ := (Engine.call_step ok env c s).blocks hb
      · obtain ⟨m, hrec, hmatch⟩ := one s b hb
        exact ⟨m, hrec.congr frame.metadata, hmatch⟩
      · -- the block was written by this call, which found metadata
        obtain ⟨bytes, hbytes⟩ := Option.isSome_iff_exists.mp
          (recorded e c e' win s session rfl hp pos)
        obtain ⟨m, hm⟩ := readable bytes hbytes
        have hrec : e.backend.cold.Records m := ⟨bytes, hbytes, hm⟩
        exact ⟨m, hrec.congr frame.metadata, hsh.matches (h.live e session m hrec)⟩
    · rintro _ ⟨⟩ m hm
      rw [frame.shape]
      exact h.live e session m (hm.congr frame.metadata.symm)
  | destroyed e session isOp =>
    have one := h.one
    have readable := h.readable
    rw [World.disk_of_up session] at one readable
    exact ⟨ok', one, readable, fun _ h => by cases h⟩

/-- At one step, keeping one schema is persisting rows next to metadata only. -/
theorem keepsSchema_iff_step {w : World F} {op : Op F} (h : SchemaOk w)
    (a : Succeeding w env op) : KeepsSchema w env op ↔ EvictsRecorded w env op := by
  refine ⟨?_, fun recorded => (schemaOk_step h a recorded).one⟩
  rintro keeps e c e' win s session rfl hp pos
  obtain ⟨ok, per⟩ := h.ok e session
  have frame := Engine.call_frame ok env c
  have one : OneSchema (e.call env c).2.backend.cold := by
    simpa only [KeepsSchema, World.step, session, World.disk] using keeps
  obtain ⟨own, ev, -⟩ := Engine.call_pass_evicts hp ok env s
  have hb : ∀ b ∈ ((e.call env c).2.tier s).blocks.values, ∃ m, _ ∧ b.Matches m := one s
  generalize (e.call env c).2.tier s = t' at ev hb
  cases ev with
  | idle zero => omega
  | wrote k blk count _ _ _ cut =>
    obtain ⟨m, hrec, -⟩ := hb blk.stored (by
      simp only [WriteOutcome.of, per, a.writeBlock s, Bool.true_eq_false, if_false, if_true,
        Tier.evict]
      exact SortedMap.mem_put_values _ _ _)
    obtain ⟨bytes, hbytes, -⟩ := hrec.congr frame.metadata.symm
    rw [hbytes]
    rfl

/-- **When a path has one schema.** In a run on an initially empty path, every
persisted block always has the recorded schema exactly when every pass that
persists rows finds metadata at the path. -/
theorem one_schema_iff {ops : List (Env F × Op F)} (a : World.EveryStep Succeeding ops World.fresh) :
    World.EveryStep KeepsSchema ops World.fresh ↔
      World.EveryStep EvictsRecorded ops World.fresh :=
  World.everyStep_iff (fun _ _ _ => keepsSchema_iff_step) (fun _ _ _ => schemaOk_step)
    fresh_schemaOk a

end

theorem calmly_succeeding (now : Int64) (ops : List (Op ℚ)) (w : World ℚ) :
    World.EveryStep Succeeding (calmly now ops) w :=
  calmly_every (fun _ _ _ => Env.calm_succeeds ℚ now) w

/-- An engine opened on an empty path persists a row of 128 floats. -/
def openedFirst : List (Op ℚ) :=
  [.openPath, .call (.append (some sensorA.bytes) 1 (some fun _ => 0) 128 none), .call .flush,
    .destroy]

/-- The path then gets the metadata of one-dimensional vectors. -/
theorem schema_mixes :
    ¬ ∀ ops : List (Env ℚ × Op ℚ), World.EveryStep Succeeding ops World.fresh →
      World.EveryStep KeepsSchema ops World.fresh := by
  intro h
  have keeps := h (calmly 0 openedFirst ++ calmly 0 [.create smallConfig]) (by
    rw [← calmly_append]
    exact calmly_succeeding 0 _ _)
  have one := (World.everyStep_append keeps).1
  have dims : (((World.run (calmly 0 openedFirst) World.fresh).step (.calm ℚ 0)
      (.create smallConfig)).disk.blocks sensorA).values.map StoredBlock.dim = [128] := by
    decide +kernel
  have recorded : ((World.run (calmly 0 openedFirst) World.fresh).step (.calm ℚ 0)
      (.create smallConfig)).disk.metadata =
        some (serializeEngineMetadata (smallValid.metadata smallConfig.uuid)) := by
    decide +kernel
  have hmem := List.mem_singleton_self 128
  rw [← dims] at hmem
  obtain ⟨b, hb, hdim⟩ := List.mem_map.mp hmem
  obtain ⟨m, hrec, hmatch, -⟩ := one sensorA b hb
  rw [hrec.unique ⟨_, recorded, deserialize_serialize _⟩] at hmatch
  exact absurd (hdim.symm.trans hmatch) (by decide)

/-- A created path keeps its schema: the two conditions agree on this run. -/
theorem one_schema_created :
    World.EveryStep KeepsSchema (calmly 0 (flushOnce (.create smallConfig) 1 1)) World.fresh ↔
      World.EveryStep EvictsRecorded (calmly 0 (flushOnce (.create smallConfig) 1 1))
        World.fresh :=
  one_schema_iff (calmly_succeeding 0 _ _)

end ChronosVector
