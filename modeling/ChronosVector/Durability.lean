import ChronosVector.Copies

/-!
# What is durable after a close and after a flush

`Close` writes nothing, and `Flush` reports the backend's own flush only.

* `close_durable`: while every close finds nothing appended since the last whole
  flush, it leaves no row behind;
* `flush_honest_iff`: when a flush that returns `ok` has saved every row.
-/

namespace ChronosVector

variable {F : Type}

/-! ## Close -/

/-- Every row of the window is persisted, and new blocks do not replace old ones. -/
def Tier.Saved (t : Tier F) : Prop :=
  t.hot.items = [] ∨
  ((∀ id ∈ t.blocks.keys, id < t.nextBlockId) ∧ ∀ row ∈ t.hotRows, row ∈ t.coldRows)

section
variable [FloatArith F] {t t' : Tier F} {env : Env F} {s : SensorId} {sh : RingShape} {win : Int64}
  {own : List (Block F)}

omit [FloatArith F] in
theorem Tier.Saved.rows (h : t.Saved) : ∀ row ∈ t.hotRows, row ∈ t.coldRows := by
  obtain h | h := h
  · simp [Tier.hotRows, h]
  · exact h.2

theorem Tier.Saved.evicts (h : t.Saved) (wr : env.storage.writeBlock s = .ok)
    (ev : t.Evicts env true sh win s t' own) : t'.Saved := by
  cases ev with
  | idle => exact h
  | wrote k blk count pos sensor id cut =>
    simp only [WriteOutcome.of, wr, if_true, Bool.true_eq_false, if_false]
    obtain h | ⟨past, saved⟩ := h
    · exact .inl (by simp [Tier.evict_hot, BoundedQueue.pop, h])
    · refine .inr ⟨past_put past _ _, fun row hrow => ?_⟩
      rw [coldRows_put past]
      apply List.mem_append_left _ (saved row ?_)
      simp only [Tier.hotRows, Tier.evict_hot, BoundedQueue.pop, List.map_drop] at hrow ⊢
      exact List.mem_of_mem_drop hrow

/-- A pass with window zero leaves nothing in the window. -/
theorem Tier.Evicts.flushed {persists : Bool} (ev : t.Evicts env persists sh 0 s t' own)
    (memory : 4 ≤ env.scratchMemory s) : t'.hot.items = [] := by
  have hcount : t.evictedCount env 0 s = t.hot.items.length := by
    rw [Tier.evictedCount, if_neg (by omega), evictCount_zero]
  cases ev with
  | idle zero => exact List.length_eq_zero_iff.mp (hcount.symm.trans zero)
  | wrote k _ count =>
    rw [Tier.evict_hot, BoundedQueue.pop, ← count, hcount, List.drop_length]

end

section
variable [FloatArith F] {w : World F} {env : Env F} {op : Op F} {e : Engine F} {s : SensorId}

/-- `WriteBlock` and `Flush` succeed. -/
def WritesSucceed (_ : World F) (env : Env F) (_ : Op F) : Prop :=
  (∀ s, env.storage.writeBlock s = .ok) ∧ env.storage.flush = .ok

/-- A close that returns `ok` leaves every row of every window persisted. -/
def ClosesDurably (w : World F) (env : Env F) (op : Op F) : Prop :=
  ∀ e, w.session = .up e → op = .call .close → (e.call env .close).1 = .ok →
    ∀ s, ∀ row ∈ (e.tier s).hotRows,
      row ∈ ((w.step env op).disk.blocks s).values.flatMap StoredBlock.rows

/-- An open finds blocks of the schema it reads, and a close finds nothing
appended since the last whole flush. -/
structure ClosesFlushed (w : World F) (env : Env F) (op : Op F) : Prop where
  schema : op = .openPath → ∀ raw uuid cfg, Engine.persistedConfig env (.rocksdb w.disk) =
    .ok (raw, uuid) → validateAndDefault raw = .ok cfg →
    ∀ s, ∀ b ∈ (w.disk.blocks s).values, b.HasShape cfg.shape
  flushed : op = .call .close → ∀ s, w.ledger.unflushed s = false

structure DurableOk (w : World F) : Prop where
  ok : w.Ok
  saved : ∀ e, w.session = .up e → ∀ s, w.ledger.unflushed s = false → (e.tier s).Saved

/-- A drop that takes effect empties the window. -/
theorem dropped_hot {c : Call F} (drops : c.drops s = true) (closed : e.closed = false) :
    ((e.call env c).2.tier s).hot = .empty := by
  cases c with
  | dropSensor id =>
    obtain rfl : id = some s.bytes := by simpa [Call.drops] using drops
    simp only [Engine.call, withSensor, SensorId.parse_bytes, Engine.dropSensor, closed,
      Bool.false_eq_true, if_false]
    split
    · rename_i h
      exact Engine.hot_of_lookup_none h
    · simp [Engine.tier, Engine.ring]
  | _ => cases drops

theorem call_saved {c : Call F} {l : Ledger F} (ok : e.Ok) (per : e.backend.persists = true)
    (wr : env.storage.writeBlock s = .ok) (h : l.unflushed s = false → (e.tier s).Saved)
    (after : (l.record env e c).unflushed s = false) : ((e.call env c).2.tier s).Saved := by
  simp only [Ledger.record] at after
  split at after
  · cases after
  rename_i silent
  split at after
  · rename_i dropped
    rw [Bool.and_eq_true, Bool.not_eq_true'] at dropped
    exact .inl (by rw [dropped_hot dropped.1 dropped.2, BoundedQueue.empty_items])
  have step := Engine.call_step ok env c s
  generalize (e.call env c).2.tier s = t' at step
  cases step with
  | append noPass =>
    have none : e.appended env c s = [] := by simpa using silent
    rw [none, Tier.pushAll_nil]
    rw [noPass] at after
    exact h after
  | evict e' win own _ pass _ evicts =>
    rw [per] at evicts
    simp only [pass] at after
    split at after
    · rename_i whole
      obtain ⟨rfl, memory⟩ := whole
      exact .inl (evicts.flushed memory)
    · exact (h after).evicts wr evicts
  | drop => exact .inl rfl

/-- **One step.** -/
theorem durableOk_step (h : DurableOk w) (a : WritesSucceed w env op)
    (flushed : ClosesFlushed w env op) : DurableOk (w.step env op) := by
  have ok' := World.step_ok h.ok env op
  have kind := World.step_kind w env op
  generalize w.step env op = w' at kind ok'
  cases kind with
  | stays => exact h
  | created cfg disk e session isOp spec =>
    refine ⟨ok', ?_⟩
    rintro _ ⟨⟩ s -
    exact .inl (by rw [spec.tier s]; rfl)
  | opened disk e session isOp spec =>
    refine ⟨ok', ?_⟩
    rintro _ ⟨⟩ s -
    obtain ⟨next, blocks, -⟩ := spec.tier s
    obtain ⟨raw, hraw, hvalid⟩ := spec.cfg
    have shape := flushed.schema isOp raw e.uuid e.cfg
    rw [World.disk_of_down session] at shape
    have hot := (spec.hot (shape hraw hvalid s)).2
    refine .inr ⟨fun id hid => ?_, fun row hrow => ?_⟩
    · rw [blocks] at hid
      rw [next]
      exact Engine.lt_seedBlockId _ hid
    · rw [Tier.coldRows, blocks]
      exact hot.subset hrow
  | called e c session isOp =>
    obtain ⟨ok, per⟩ := h.ok e session
    refine ⟨ok', ?_⟩
    rintro _ ⟨⟩ s after
    exact call_saved ok per (a.1 s) (h.saved e session s) after
  | destroyed e session isOp => exact ⟨ok', by simp⟩

theorem closesDurably_of_step (h : DurableOk w) (flushed : ClosesFlushed w env op) :
    ClosesDurably w env op := by
  rintro e session rfl - s row hrow
  simp only [World.step, session, World.disk]
  exact (h.saved e session s (flushed.flushed rfl s)).rows row hrow

/-- **Close is durable** in a run all of whose closes come after a whole flush. -/
theorem close_durable {ops : List (Env F × Op F)}
    (a : World.EveryStep WritesSucceed ops World.fresh)
    (flushed : World.EveryStep ClosesFlushed ops World.fresh) :
    World.EveryStep ClosesDurably ops World.fresh :=
  World.everyStep_of DurableOk (fun _ _ _ h ha => closesDurably_of_step h ha.2)
    (fun _ _ _ h ha => durableOk_step h ha.1 ha.2)
    ⟨fun _ h => by simp [World.fresh] at h, fun _ h => by simp [World.fresh] at h⟩ (a.and flushed)

/-- After a flush whose scratch could be allocated, nothing is unflushed. -/
theorem unflushed_flush {l : Ledger F} (closed : e.closed = false)
    (memory : 4 ≤ env.scratchMemory s) : (l.record env e .flush).unflushed s = false := by
  have silent : e.appended env .flush s = [] := Engine.appended_nil fun _ => rfl
  simp [Ledger.record, silent, Call.drops, Engine.pass, closed, memory]

end

theorem calmly_writesSucceed (now : Int64) (ops : List (Op ℚ)) (w : World ℚ) :
    World.EveryStep WritesSucceed (calmly now ops) w :=
  calmly_every (fun _ _ _ => ⟨fun _ => rfl, rfl⟩) w

/-- A close right after an append leaves the row in memory. -/
theorem close_loses :
    ¬ ∀ ops : List (Env ℚ × Op ℚ), World.EveryStep WritesSucceed ops World.fresh →
      World.EveryStep ClosesDurably ops World.fresh := by
  intro h
  let setup := [.create smallConfig, appendSmall 1 1]
  have durable := h (calmly 0 setup ++ calmly 0 [.call .close]) (by
    rw [← calmly_append]
    exact calmly_writesSucceed 0 _ _)
  have kept := (World.everyStep_append durable).1 smallAppended rfl rfl rfl sensorA
  have hot : (smallAppended.tier sensorA).hotRows = [smallRow 1 1] := by decide +kernel
  have cold : (((World.run (calmly 0 setup) World.fresh).step (.calm ℚ 0)
      (.call .close)).disk.blocks sensorA).values.flatMap StoredBlock.rows = [] := by
    decide +kernel
  rw [hot, cold] at kept
  exact List.not_mem_nil (kept _ (List.mem_singleton_self _))

/-- A close right after a flush leaves nothing. -/
theorem close_durable_flushed :
    World.EveryStep ClosesDurably
      (calmly 0 [.create smallConfig, appendSmall 1 1, .call .flush, .call .close]) World.fresh := by
  refine close_durable (calmly_writesSucceed 0 _ _) ⟨?_, ?_, ?_, ?_, trivial⟩
  · exact ⟨fun h => (by cases h), fun h => (by cases h)⟩
  · exact ⟨fun h => (by cases h), fun h => (by cases h)⟩
  · exact ⟨fun h => (by cases h), fun h => (by cases h)⟩
  · exact ⟨fun h => (by cases h), fun _ s => unflushed_flush rfl (Nat.le_refl 4)⟩

/-! ## Flush -/

section
variable [FloatArith F] {e : Engine F} {env : Env F} {s : SensorId} {t t' : Tier F} {row : Row F}

/-- A flush that returns `ok` has persisted every row it found in a window; else
it returns the error of the storage, or that the engine is closed. -/
structure Engine.FlushHonest (e : Engine F) (env : Env F) : Prop where
  saved : (e.flush env).1 = .ok → ∀ s, ∀ row ∈ (e.tier s).hotRows,
    row ∈ ((e.flush env).2.tier s).coldRows
  error : (e.flush env).1 ≠ .ok →
    (e.flush env).1 = env.storage.flush ∨ (e.closed = true ∧ (e.flush env).1 = .closed)

/-- A flush of `s` persists a block: there is a directory, and neither the
allocator nor the write fails. -/
def Engine.FlushWrites (e : Engine F) (env : Env F) (s : SensorId) : Prop :=
  e.backend.persists = true ∧ 4 ≤ env.scratchMemory s ∧ env.storage.writeBlock s = .ok

/-- The row is in a block that a write of block `id` leaves alone. -/
def Tier.Elsewhere (t : Tier F) (id : Nat) (row : Row F) : Prop :=
  ∃ id' b, id' ≠ id ∧ t.blocks.get id' = some b ∧ row ∈ b.rows

/-- The row is among those a flush of `s` writes, a 32-bit count of them, or
persisted already. -/
def Engine.FlushSaves (e : Engine F) (env : Env F) (s : SensorId) (row : Row F) : Prop :=
  (e.FlushWrites env s ∧
    (row ∈ (e.tier s).hotRows.take ((e.tier s).hotRows.length % 2 ^ 32) ∨
      (e.tier s).Elsewhere (e.tier s).nextBlockId row)) ∨
  (¬ e.FlushWrites env s ∧ row ∈ (e.tier s).coldRows)

omit [FloatArith F] in
theorem Tier.mem_coldRows : row ∈ t.coldRows ↔ ∃ id b, t.blocks.get id = some b ∧ row ∈ b.rows := by
  simp only [Tier.coldRows, List.mem_flatMap, SortedMap.mem_values]
  constructor
  · rintro ⟨b, ⟨id, hget⟩, hrow⟩
    exact ⟨id, b, hget, hrow⟩
  · rintro ⟨id, b, hget, hrow⟩
    exact ⟨b, ⟨id, hget⟩, hrow⟩

omit [FloatArith F] in
theorem Tier.mem_coldRows_persisted (k : Nat) (b : StoredBlock F) :
    row ∈ (t.evict k (.persisted b)).coldRows ↔ row ∈ b.rows ∨ t.Elsewhere t.nextBlockId row := by
  simp only [Tier.mem_coldRows, Tier.evict]
  constructor
  · rintro ⟨id, b', hget, hrow⟩
    by_cases eq : id = t.nextBlockId
    · subst eq
      rw [SortedMap.get_put_self] at hget
      exact .inl (Option.some.inj hget ▸ hrow)
    · rw [SortedMap.get_put_ne _ eq] at hget
      exact .inr ⟨id, b', eq, hget, hrow⟩
  · rintro (hrow | ⟨id, b', ne, hget, hrow⟩)
    · exact ⟨_, b, SortedMap.get_put_self .., hrow⟩
    · exact ⟨id, b', by rwa [SortedMap.get_put_ne _ ne], hrow⟩

/-- One sensor of a flush. -/
theorem flush_saves {own : List (Block F)}
    (ev : (e.tier s).Evicts env e.backend.persists e.cfg.shape 0 s t' own)
    (hot : row ∈ (e.tier s).hotRows) : row ∈ t'.coldRows ↔ e.FlushSaves env s row := by
  have hlen : (e.tier s).hotRows.length = (e.tier s).hot.items.length := List.length_map _
  have pos : 0 < (e.tier s).hotRows.length := List.length_pos_of_mem hot
  have count : (e.tier s).evictedCount env 0 s =
      if env.scratchMemory s < 4 then 0 else (e.tier s).hotRows.length := by
    rw [Tier.evictedCount, evictCount_zero, hlen]
  cases ev with
  | idle zero =>
    -- the window is not empty, so the scratch was not available
    have memory : ¬ e.FlushWrites env s := by
      rintro ⟨-, memory, -⟩
      rw [zero, if_neg (by omega)] at count
      omega
    simp only [Engine.FlushSaves, memory, false_and, not_false_eq_true, true_and, false_or]
  | wrote k blk hk kpos _ _ cut =>
    have memory : 4 ≤ env.scratchMemory s := by
      by_contra h
      rw [hk, if_pos (by omega)] at count
      omega
    rw [hk, if_neg (by omega)] at count
    by_cases writes : e.FlushWrites env s
    · obtain ⟨per, -, wr⟩ := writes
      simp only [WriteOutcome.of, per, wr, Bool.true_eq_false, if_false, if_true,
        Tier.mem_coldRows_persisted, cut.rows, count, List.take_length, Engine.FlushSaves,
        Engine.FlushWrites, memory, and_self, true_and, not_true, false_and, or_false]
    · have same : (((e.tier s).evict k (.of e.backend.persists (env.storage.writeBlock s)
          blk.stored)).coldRows) = (e.tier s).coldRows := by
        simp only [WriteOutcome.of]
        split
        · rfl
        · rename_i per
          split
          · rename_i wr
            exact absurd ⟨by simpa using per, memory, wr⟩ writes
          · rfl
      simp only [same, Engine.FlushSaves, writes, false_and, not_false_eq_true, true_and, false_or]

/-- The code of a flush is the backend's. -/
theorem flush_code (env : Env F) (ok : e.Ok) (closed : e.closed = false) :
    (e.flush env).1 = if e.backend.persists then env.storage.flush else .ok := by
  have per : (e.flush env).2.backend.persists = e.backend.persists :=
    (Engine.call_frame ok env .flush).persists
  have code : (e.flush env).1 = (e.flush env).2.backend.flush env.storage.flush := by
    simp only [Engine.flush, closed, Bool.false_eq_true, if_false]
  rw [code, ← per]
  cases (e.flush env).2.backend <;> rfl

/-- **When a flush is honest.** A flush that returns `ok` has persisted every row
exactly when every row it does not write is persisted already. -/
theorem flush_honest_iff (reachable : Engine.Reachable e) :
    e.FlushHonest env ↔
      e.closed = true ∨ (e.backend.persists = true ∧ env.storage.flush ≠ .ok) ∨
      ∀ s, ∀ row ∈ (e.tier s).hotRows, e.FlushSaves env s row := by
  have ok := Engine.reachable_ok reachable
  by_cases closed : e.closed = true
  · have res : e.flush env = (.closed, e) := by simp only [Engine.flush, closed, if_true]
    refine ⟨fun _ => .inl closed, fun _ => ⟨?_, fun _ => .inr ⟨closed, by rw [res]⟩⟩⟩
    rw [res]
    intro h
    cases h
  rw [Bool.not_eq_true] at closed
  have code := flush_code env ok closed
  have pass : e.pass .flush = some (e, 0) := by simp only [Engine.pass, closed, Bool.false_eq_true, if_false]
  have sensor (s : SensorId) (row : Row F) (hot : row ∈ (e.tier s).hotRows) :
      row ∈ ((e.flush env).2.tier s).coldRows ↔ e.FlushSaves env s row := by
    obtain ⟨own, ev, -⟩ := Engine.call_pass_evicts pass ok env s
    exact flush_saves ev hot
  by_cases failed : e.backend.persists = true ∧ env.storage.flush ≠ .ok
  · rw [if_pos failed.1] at code
    exact ⟨fun _ => .inr (.inl failed), fun _ => ⟨fun h => absurd (code ▸ h) failed.2, fun _ => .inl code⟩⟩
  · have isOk : (e.flush env).1 = .ok := by
      rw [code]
      split
      · rename_i per
        by_contra h
        exact failed ⟨per, h⟩
      · rfl
    constructor
    · exact fun honest => .inr (.inr fun s row hot =>
        (sensor s row hot).mp (honest.saved isOk s row hot))
    · rintro (h | h | saves)
      · rw [closed] at h
        cases h
      · exact absurd h failed
      · exact ⟨fun _ s row hot => (sensor s row hot).mpr (saves s row hot), fun h => absurd isOk h⟩

end

theorem smallAppended_reachable : Engine.Reachable smallAppended :=
  .called (.created (smallEngine_created 0)) _ _

/-- The disk is full for one write. -/
def writeFails : Env ℚ :=
  { Env.calm ℚ 0 with storage := { StorageStatus.allOk with writeBlock := fun _ => .io } }

/-- The failed write does not reach the flush's code, and the row is gone. -/
theorem flush_hides_failure :
    ¬ ∀ (e : Engine ℚ) (env : Env ℚ), Engine.Reachable e → e.FlushHonest env := by
  intro h
  have isOk : (smallAppended.flush writeFails).1 = .ok := by decide +kernel
  have saved := (h _ writeFails smallAppended_reachable).saved isOk sensorA
  have hot : (smallAppended.tier sensorA).hotRows = [smallRow 1 1] := by decide +kernel
  have cold : ((smallAppended.flush writeFails).2.tier sensorA).coldRows = [] := by decide +kernel
  rw [hot, cold] at saved
  exact List.not_mem_nil (saved _ (List.mem_singleton_self _))

/-- In a calm environment the flush writes the row. -/
theorem flush_honest_calm :
    smallAppended.FlushHonest (.calm ℚ 0) ↔
      smallAppended.closed = true ∨
      (smallAppended.backend.persists = true ∧ (Env.calm ℚ 0).storage.flush ≠ .ok) ∨
      ∀ s, ∀ row ∈ (smallAppended.tier s).hotRows, smallAppended.FlushSaves (.calm ℚ 0) s row :=
  flush_honest_iff smallAppended_reachable

end ChronosVector
