import ChronosVector.NearestN
import ChronosVector.Schema

/-!
# The stored norms

The norm column is the only one a block does not keep. `Append` computes a norm
from the caller's vector, recovery from what the row stores.

* `Row.norm`: the norm of a stored row;
* `rehydrate_normed`: recovery gives every entry the norm of its row;
* `Uniform`, `uniform_normed`: in a FLOAT32 engine whose paths hold one schema,
  every entry of every window has it.
-/

namespace ChronosVector

variable {F : Type} [FloatArith F]

/-- The norm recovery computes from a stored row. -/
def Row.norm (sh : RingShape) (row : Row F) : F :=
  replayNorm sh.dtype sh.dim (fun j => row.vec.getD j default) (row.scale.getD 0)

/-- The cached norm is that of the row. -/
def Entry.Normed (sh : RingShape) (x : Entry F) : Prop := x.norm = x.toRow.norm sh

theorem l2NormF32_congr {v v' : Nat → F} {dim : Nat} (h : ∀ j < dim, v j = v' j) :
    l2NormF32 v dim = l2NormF32 v' dim := by
  have squares : dot v v dim = dot v' v' dim := by
    apply List.foldl_ext
    intro acc j hj
    rw [h j (List.mem_range.mp hj)]
  rw [l2NormF32, l2NormF32, squares]

theorem replayNorm_congr (dtype : Dtype) {v v' : Nat → Elem F} {dim : Nat} (scale : F)
    (h : ∀ j < dim, v j = v' j) : replayNorm dtype dim v scale = replayNorm dtype dim v' scale := by
  cases dtype with
  | float32 => exact l2NormF32_congr fun j hj => by rw [h j hj]
  | int8 =>
    have products : dotI8 (fun j => (v j).int8) (fun j => (v j).int8) dim =
        dotI8 (fun j => (v' j).int8) (fun j => (v' j).int8) dim := by
      apply List.foldl_ext
      intro acc j hj
      simp only [h j (List.mem_range.mp hj)]
    simp only [replayNorm, products]

/-! ## Recovery -/

section
variable {r : SensorRing F} {sh : RingShape} {row : Row F} {rest : List (Row F)}
  {blk : StoredBlock F} {cutoff : Int64}

/-- Replaying a row of the engine's schema caches the norm of that row. -/
theorem replay_normed (ok : r.Ok) (hb : blk.HasShape r.shape)
    (fits : row.Fits blk.dim blk.payloadSizeBytes blk.dtype)
    (normed : ∀ y ∈ r.queue.items, y.Normed r.shape) :
    ∀ y ∈ (r.replay blk row rest).queue.items, y.Normed r.shape := by
  intro y queued
  rw [SensorRing.replay, SensorRing.queue_append ok] at queued
  obtain old | rfl := BoundedQueue.mem_push queued
  · exact normed y old
  · rw [Entry.Normed, stored_replay hb fits, Row.norm, ← hb.1, ← hb.2.2]
    apply replayNorm_congr
    intro j hj
    have inside : j < row.vec.length := by rwa [fits.1]
    simp only [List.flatMap_cons, List.getD_eq_getElem?_getD, List.getElem?_append_left inside]

theorem replayRows_normed {capacity filled n : Nat} {l : List (Row F)} {r' : SensorRing F}
    (ok : r.Ok) (hb : blk.HasShape r.shape)
    (fits : ∀ row ∈ l, row.Fits blk.dim blk.payloadSizeBytes blk.dtype)
    (normed : ∀ y ∈ r.queue.items, y.Normed r.shape)
    (h : replayRows capacity cutoff blk l r filled = some (r', n)) :
    ∀ y ∈ r'.queue.items, y.Normed r.shape := by
  induction l generalizing r filled with
  | nil =>
    cases h
    exact normed
  | cons row rest ih =>
    obtain ⟨first, later⟩ := List.forall_mem_cons.mp fits
    obtain old | replayed := replayRows_cons h
    · exact ih ok hb later normed old
    · exact ih (r := r.replay blk row rest) (SensorRing.append_ok ok) hb later
        (replay_normed ok hb first normed) replayed

variable {cfg : ValidConfig} {db : ColdTier F} {env : Env F} {s : SensorId} {ids : List Nat}

theorem replayBlocks_normed {filled : Nat} {r' : SensorRing F} (ok : r.Ok)
    (shape : ∀ b ∈ (db.blocks s).values, b.HasShape r.shape)
    (normed : ∀ y ∈ r.queue.items, y.Normed r.shape)
    (h : replayBlocks cfg (.rocksdb db) env s cutoff ids r filled = some r') :
    ∀ y ∈ r'.queue.items, y.Normed r.shape := by
  induction ids generalizing r filled with
  | nil =>
    cases h
    exact normed
  | cons id rest ih =>
    obtain skipped | ⟨full, r₁, n, read, rows, later⟩ := replayBlocks_cons h
    · exact ih ok shape normed skipped
    have mem : full ∈ (db.blocks s).values := SortedMap.mem_values.mpr ⟨id, Backend.readBlock_ok read⟩
    obtain ⟨shape₁, ok₁⟩ := replayRows_ring rows ok
    have normed₁ := replayRows_normed ok (shape full mem) full.fits normed rows
    rw [← shape₁] at shape normed₁ ⊢
    exact ih ok₁ shape normed₁ later

/-- **Recovered norms.** Every entry of a ring that recovery attaches has the norm
of its row. -/
theorem rehydrate_normed (shape : ∀ b ∈ (db.blocks s).values, b.HasShape cfg.shape)
    (h : rehydrateSensorRing cfg (.rocksdb db) env s ids cutoff = some r) :
    ∀ y ∈ r.window, y.Normed cfg.shape := by
  obtain ⟨mem, replayed⟩ := rehydrate_replays h
  exact replayBlocks_normed (r := .new cfg.shape mem) (SensorRing.new_ok _ _) shape (by simp)
    replayed

end

/-! ## FLOAT32 windows -/

/-- A FLOAT32 append caches the norm of the row it stores. -/
theorem ingested_normed {r : SensorRing F} (float : r.shape.dtype = .float32) (ts : Int64)
    (vec : Nat → F) (payload : Option (Nat → UInt8)) :
    (r.ingested ts vec r.shape.dim payload).Normed r.shape := by
  rw [Entry.Normed, Row.norm, float]
  simp only [SensorRing.ingested, float, reduceCtorEq, if_false, SensorRing.stored, replayNorm]
  apply l2NormF32_congr
  intro j hj
  rw [Cells.load_getD _ _ hj, Nat.zero_add]
  rfl

namespace Engine

variable {e : Engine F} {env : Env F} {s : SensorId}

theorem ingestedAll_normed {r : SensorRing F} (float : r.shape.dtype = .float32)
    (rows : List (BatchRow F)) : ∀ y ∈ ingestedAll r.shape.dim rows r, y.Normed r.shape := by
  induction rows generalizing r with
  | nil => simp [ingestedAll]
  | cons a rest ih =>
    rw [ingestedAll, List.forall_mem_cons]
    refine ⟨ingested_normed float _ _ _, ?_⟩
    have shape := r.ingest_shape a.ts a.vec r.shape.dim a.payload
    have later := ih (r := r.ingest a.ts a.vec r.shape.dim a.payload) (by rw [shape, float])
    rwa [shape] at later

theorem append_dim {ts : Int64} {vec : Nat → F} {dim : Nat} {payload : Option (Nat → UInt8)}
    (returned : (e.append env s ts vec dim payload).1 = .ok) : dim = e.cfg.dim.toNat := by
  by_contra other
  simp only [append, ne_eq, other, not_false_eq_true, if_true] at returned
  split at returned <;> cases returned

theorem appendBatch_dim {ts : Option (Nat → Int64)} {vecs : Option (Nat → F)} {count dim : Nat}
    {payloads : Option (Nat → UInt8)}
    (returned : (e.appendBatch env s ts vecs count dim payloads).1 = .ok) :
    dim = e.cfg.dim.toNat := by
  by_contra other
  simp only [appendBatch, ne_eq, other, not_false_eq_true, if_true] at returned
  split at returned <;> cases returned

/-- What a call appends has the engine's dimension, since others are refused. -/
theorem landing_normed {r : SensorRing F} {c : Call F} (shape : r.shape = e.cfg.shape)
    (float : e.cfg.shape.dtype = .float32) (returned : (e.call env c).1 = .ok) :
    ∀ y ∈ e.landing s r c, y.Normed e.cfg.shape := by
  rw [← shape] at float ⊢
  have dim_eq : r.shape.dim = e.cfg.dim.toNat := by rw [shape]; rfl
  by_cases brings : c.Brings s
  · cases brings with
    | append ts vec dim payload =>
      simp only [call, chronosvAppend, withSensor, SensorId.parse_bytes] at returned
      split at returned
      · cases returned
      · simp only [landing, if_true, List.forall_mem_singleton]
        rw [append_dim returned, ← dim_eq]
        exact ingested_normed float ts vec payload
    | appendBatch ts vecs pos dim payloads =>
      simp only [call, chronosvAppendBatch, withSensor, SensorId.parse_bytes, Nat.ne_of_gt pos,
        Option.isNone_some, Bool.false_eq_true, or_self, if_false] at returned
      split at returned
      · cases returned
      · simp only [landing, if_true]
        rw [appendBatch_dim returned, ← dim_eq]
        exact ingestedAll_normed float _
  · simp [landing_none brings]

theorem appended_normed (ok : e.Ok) (float : e.cfg.shape.dtype = .float32) (env : Env F)
    (c : Call F) (s : SensorId) : ∀ y ∈ e.appended env c s, y.Normed e.cfg.shape := by
  unfold appended
  split
  · simp
  · rename_i e' r get
    have att := getOrCreateRing_attached ok get
    obtain ⟨shape, -⟩ := att.ok s r (by simp [ring_eq att.slot])
    rw [att.cfg] at shape
    split
    · rename_i returned
      exact landing_normed shape float returned
    · simp

/-- One call keeps the norms of a FLOAT32 window. -/
theorem step_normed (ok : e.Ok) (float : e.cfg.shape.dtype = .float32) {c : Call F}
    {t' : Tier F} (step : Tier.Step e env c s t')
    (normed : ∀ y ∈ (e.tier s).hot.items, y.Normed e.cfg.shape) :
    ∀ y ∈ t'.hot.items, y.Normed e.cfg.shape := by
  intro y queued
  cases step with
  | append noPass =>
    rw [Tier.pushAll_hot] at queued
    obtain old | new := BoundedQueue.mem_pushAll queued
    · exact normed y old
    · exact appended_normed ok float env c s y new
  | evict e' w own t' pass silent evicts mem =>
    cases evicts with
    | idle zero => exact normed y queued
    | wrote k blk count pos sensor id cut =>
      rw [Tier.evict_hot] at queued
      exact normed y (List.mem_of_mem_drop queued)
  | drop noPass drops closed silent blocks deleted => cases queued

/-- Like `Reachable`, and a path that `Open` takes holds blocks of the schema that
its metadata gives. -/
inductive Uniform : Engine F → Prop
  | created {env : Env F} {cfg : Config} {path : Option (ColdTier F)} {e : Engine F}
      (h : create env cfg path = .ok e) : Uniform e
  | opened {env : Env F} {db : ColdTier F} {e : Engine F} (h : openPath env (some db) = .ok e)
      (shape : ∀ s, ∀ b ∈ (db.blocks s).values, b.HasShape e.cfg.shape) : Uniform e
  | called {e : Engine F} (h : Uniform e) (env : Env F) (c : Call F) : Uniform (e.call env c).2

theorem Uniform.reachable (h : Uniform e) : Reachable e := by
  induction h with
  | created h => exact .created h
  | opened h _ => exact .opened h
  | called _ env c ih => exact ih.called env c

/-- **The norms of a FLOAT32 engine.** -/
theorem uniform_normed (h : Uniform e) (float : e.cfg.shape.dtype = .float32) (s : SensorId) :
    ∀ y ∈ (e.tier s).hot.items, y.Normed e.cfg.shape := by
  induction h with
  | created h =>
    rw [(create_start h).2 s]
    simp
  | opened h shape =>
    obtain ⟨-, -, empty | ⟨r, hot, recovered⟩⟩ := (openPath_spec h).tier s
    · simp [empty]
    · rw [hot]
      exact rehydrate_normed (shape s) recovered
  | called h env c ih =>
    have ok := reachable_ok h.reachable
    have frame := call_frame ok env c
    rw [frame.shape] at float ⊢
    exact step_normed ok float (call_step ok env c s) (ih float)

end Engine

/-! ## Paths of one schema -/

/-- The path has one schema, and an engine on it is uniform. -/
structure UniformPath (w : World F) : Prop where
  schema : SchemaOk w
  live : ∀ e, w.session = .up e → Engine.Uniform e

theorem uniformPath_step {w : World F} {env : Env F} {op : Op F} (h : UniformPath w)
    (a : Succeeding w env op) (recorded : EvictsRecorded w env op) :
    UniformPath (w.step env op) := by
  refine ⟨schemaOk_step h.schema a recorded, ?_⟩
  intro e up
  have live := h.live
  have one := h.schema.one
  cases session : w.session with
  | down disk =>
    rw [World.disk_of_down session] at one
    cases op with
    | create cfg =>
      simp only [World.step, session] at up
      split at up
      · exact live e up
      · rename_i created
        cases up
        exact .created created
    | openPath =>
      simp only [World.step, session] at up
      split at up
      · exact live e up
      · rename_i opened
        cases up
        exact .opened opened fun s => opened_shape (Engine.openPath_spec opened) a.readMetadata one
    | call c => exact live e (by simpa only [World.step, session] using up)
    | destroy => exact live e (by simpa only [World.step, session] using up)
  | up e₀ =>
    cases op with
    | create cfg => exact live e (by simpa only [World.step, session] using up)
    | openPath => exact live e (by simpa only [World.step, session] using up)
    | call c =>
      simp only [World.step, session] at up
      cases up
      exact (live e₀ session).called env c
    | destroy =>
      simp only [World.step, session] at up
      cases up

/-- **Where engines are uniform.** In a run on an initially empty path whose passes
find metadata, every engine is. -/
theorem uniform_run {ops : List (Env F × Op F)}
    (a : World.EveryStep Succeeding ops World.fresh)
    (recorded : World.EveryStep EvictsRecorded ops World.fresh) :
    World.EveryStep (fun w env op => ∀ e, (w.step env op).session = .up e → Engine.Uniform e) ops
      World.fresh :=
  World.everyStep_of UniformPath (fun _ _ _ h ha => (uniformPath_step h ha.1 ha.2).live)
    (fun _ _ _ h ha => uniformPath_step h ha.1 ha.2) ⟨fresh_schemaOk, fun _ h => by cases h⟩
    (a.and recorded)

end ChronosVector
