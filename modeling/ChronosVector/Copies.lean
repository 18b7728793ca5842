import ChronosVector.Conservation
import ChronosVector.Schema

/-!
# Recovery and copies

A row that recovery put in the window lives in both tiers, and a pass that evicts
it persists it again.

* `Singly`: the persisted rows and the rows appended in this lifetime that are
  still in the window are, together, a part of what was appended;
* `no_copies`: while no pass evicts a recovered row, no row is persisted more
  often than it was appended.
-/

namespace ChronosVector

variable {F : Type}

/-- `n` is the number of rows that recovery put in the window. -/
structure Singly (appended : List (Row F)) (n : Nat) (t : Tier F) : Prop where
  reach : n ≤ t.hot.first + t.hot.items.length
  once : (t.coldRows ++ (t.hot.since n).map Entry.toRow).Sublist appended

section
variable {appended : List (Row F)} {n cap : Nat} {t t' : Tier F}

theorem Singly.cold (h : Singly appended n t) : t.coldRows.Sublist appended :=
  (List.sublist_append_left _ _).trans h.once

theorem Singly.pushAll (h : Singly appended n t) (hc : 0 < cap) (xs : List (Entry F)) :
    Singly (appended ++ xs.map Entry.toRow) n (t.pushAll cap xs) := by
  obtain ⟨sub, reach⟩ := BoundedQueue.since_pushAll h.reach hc xs
  refine ⟨by rwa [Tier.pushAll_hot], ?_⟩
  have hcold : (t.pushAll cap xs).coldRows = t.coldRows := by
    simp only [Tier.coldRows, Tier.pushAll_blocks]
  rw [Tier.pushAll_hot, hcold]
  refine ((sub.map Entry.toRow).append_left _).trans ?_
  rw [List.map_append, ← List.append_assoc]
  exact h.once.append_right _

variable [FloatArith F] {env : Env F} {s : SensorId} {sh : RingShape} {win : Int64}
  {own : List (Block F)}

/-- Evicting rows appended in this lifetime moves them to the cold tier. -/
theorem Singly.evicts (h : Singly appended n t) (past : ∀ id ∈ t.blocks.keys, id < t.nextBlockId)
    (wr : env.storage.writeBlock s = .ok) (ev : t.Evicts env true sh win s t' own)
    (own_rows : 0 < t.evictedCount env win s → n ≤ t.hot.first) : Singly appended n t' := by
  cases ev with
  | idle => exact h
  | wrote k blk count pos sensor id cut =>
    have hn := own_rows (count ▸ pos)
    simp only [WriteOutcome.of, wr, if_true, Bool.true_eq_false, if_false]
    refine ⟨by rw [Tier.evict_hot]; exact BoundedQueue.reach_pop h.reach, ?_⟩
    rw [coldRows_put past, Tier.evict_hot, List.append_assoc]
    refine List.Sublist.trans (List.Sublist.append_left ?_ _) h.once
    rw [← BoundedQueue.take_since_pop (k := k) hn, List.map_append]
    refine List.Sublist.append_right ?_ _
    rw [cut.rows, Tier.hotRows, ← List.map_take]
    exact (List.take_sublist _ _).trans (by rw [List.map_take])

end

section
variable [FloatArith F] {w : World F} {env : Env F} {op : Op F} {e : Engine F} {s : SensorId}

/-- The backend succeeds, nothing is dropped and no lifetime but the first begins
with `Create`. -/
structure Reopening (_ : World F) (env : Env F) (op : Op F) : Prop where
  storage : env.storage.Succeeds
  noDrop : op.isDrop = false
  noCreate : op.isCreate = false

/-- After the step, no row is persisted more often than it was appended, and none
is more often in a window that was just recovered. -/
def NoCopies (w : World F) (env : Env F) (op : Op F) : Prop :=
  (∀ s, ((((w.step env op).disk.blocks s).values.flatMap StoredBlock.rows).Subperm
    ((w.step env op).ledger.appended s))) ∧
  ∀ disk e s, w.session = .down disk → op = .openPath → (w.step env op).session = .up e →
    (e.tier s).hotRows.Subperm ((w.step env op).ledger.appended s)

/-- No pass evicts a row that recovery put in the window. -/
def EvictsAppended (w : World F) (env : Env F) (op : Op F) : Prop :=
  ∀ e c e' win s, w.session = .up e → op = .call c → e.pass c = some (e', win) →
    0 < (e.tier s).evictedCount env win s → w.ledger.recovered s ≤ (e.tier s).hot.first

structure CopiesOk (w : World F) : Prop where
  schema : SchemaOk w
  ids : IdsOk w
  recorded : w.disk.metadata.isSome
  seeded : ∀ e, w.session = .up e → ∀ s, w.ledger.Seeded s
  down : ∀ disk, w.session = .down disk →
    ∀ s, ((disk.blocks s).values.flatMap StoredBlock.rows).Sublist (w.ledger.appended s)
  up : ∀ e, w.session = .up e → ∀ s, Singly (w.ledger.appended s) (w.ledger.recovered s) (e.tier s)

omit [FloatArith F] in
theorem CopiesOk.cold (h : CopiesOk w) (s : SensorId) :
    ((w.disk.blocks s).values.flatMap StoredBlock.rows).Sublist (w.ledger.appended s) := by
  cases hs : w.session with
  | down disk =>
    rw [World.disk_of_down hs]
    exact h.down disk hs s
  | up e =>
    rw [World.disk_of_up hs]
    exact (h.up e hs s).cold

/-- A recovered window holds nothing appended in its own lifetime. -/
theorem opened_singly {disk : ColdTier F} {l : Ledger F} (spec : Engine.Opened env disk e)
    (rd : env.storage.readMetadata = .ok) (one : OneSchema disk)
    (down : ((disk.blocks s).values.flatMap StoredBlock.rows).Sublist (l.appended s)) :
    Singly ((l.start true disk e).appended s) ((l.start true disk e).recovered s) (e.tier s) := by
  obtain ⟨first, -⟩ := spec.hot (opened_shape spec rd one (s := s))
  simp only [Ledger.start]
  refine ⟨Nat.le_add_left _ _, ?_⟩
  rw [BoundedQueue.since, first, Nat.sub_zero, List.drop_length, List.map_nil, List.append_nil,
    Tier.coldRows, (spec.tier s).2.1]
  exact down

theorem call_singly {c : Call F} {l : Ledger F} (ok : e.Ok) (per : e.backend.persists = true)
    (wr : env.storage.writeBlock s = .ok) (nodrop : c.drops s = false)
    (past : ∀ id ∈ (e.tier s).blocks.keys, id < (e.tier s).nextBlockId)
    (h : Singly (l.appended s) (l.recovered s) (e.tier s))
    (own : ∀ e' win, e.pass c = some (e', win) → 0 < (e.tier s).evictedCount env win s →
      l.recovered s ≤ (e.tier s).hot.first) :
    Singly ((l.record env e c).appended s) ((l.record env e c).recovered s)
      ((e.call env c).2.tier s) := by
  have step := Engine.call_step ok env c s
  generalize (e.call env c).2.tier s = t' at step
  simp only [Ledger.record, nodrop, Bool.false_and, Bool.false_eq_true, if_false]
  cases step with
  | append => exact h.pushAll e.cfg.shape.capacity_pos _
  | evict e' win own' _ pass silent evicts =>
    rw [per] at evicts
    rw [silent, List.map_nil, List.append_nil]
    exact h.evicts past wr evicts (own e' win pass)
  | drop _ drops => simp [nodrop] at drops

/-- **One step.** -/
theorem copiesOk_step (h : CopiesOk w) (a : Reopening w env op) (own : EvictsAppended w env op) :
    CopiesOk (w.step env op) := by
  have recordedNow : EvictsRecorded w env op := by
    rintro e c e' win s session - - -
    rw [← World.disk_of_up session]
    exact h.recorded
  have schema := schemaOk_step h.schema a.storage recordedNow
  have ids := idsOk_step h.ids ⟨a.storage, a.noDrop⟩
    fun e _ _ _ s session _ _ _ => h.seeded e session s
  have kind := World.step_kind w env op
  generalize w.step env op = w' at kind schema ids
  cases kind with
  | stays => exact h
  | created cfg disk e session isOp =>
    have := a.noCreate
    simp [isOp, Op.isCreate] at this
  | opened disk e session isOp spec =>
    have hcold : e.backend.cold = disk := by rw [spec.backend]; rfl
    have one := h.schema.one
    have recorded := h.recorded
    rw [World.disk_of_down session] at one recorded
    refine ⟨schema, ids, by rwa [← hcold] at recorded, ?_, by simp, ?_⟩
    · rintro _ ⟨⟩ s
      exact .inl rfl
    · rintro _ ⟨⟩ s
      exact opened_singly spec a.storage.readMetadata one (h.down disk session s)
  | called e c session isOp =>
    subst isOp
    obtain ⟨ok, per⟩ := h.ids.ok e session
    have recorded := h.recorded
    rw [World.disk_of_up session, ← (Engine.call_frame ok env c).metadata] at recorded
    refine ⟨schema, ids, recorded, ?_, by simp, ?_⟩
    · rintro _ ⟨⟩ s
      exact h.seeded e session s
    · rintro _ ⟨⟩ s
      exact call_singly ok per (a.storage.writeBlock s) (Op.not_drops a.noDrop s)
        ((h.ids.up e session s).lt_next (h.seeded e session s)) (h.up e session s)
        fun e' win pass pos => own e c e' win s session rfl pass pos
  | destroyed e session isOp =>
    have recorded := h.recorded
    rw [World.disk_of_up session] at recorded
    refine ⟨schema, ids, recorded, by simp, ?_, by simp⟩
    rintro _ ⟨⟩ s
    exact (h.up e session s).cold

theorem noCopies_of_step (h : CopiesOk w) (a : Reopening w env op)
    (own : EvictsAppended w env op) : NoCopies w env op := by
  have h' := copiesOk_step h a own
  refine ⟨fun s => (h'.cold s).subperm, ?_⟩
  rintro disk e s down rfl up
  have kind := World.step_kind w env .openPath
  generalize w.step env .openPath = w' at kind up
  cases kind with
  | stays =>
    rw [down] at up
    cases up
  | created _ _ _ _ isOp => cases isOp
  | opened disk' e' session _ spec =>
    rw [down] at session
    cases session
    cases up
    have one := h.schema.one
    rw [World.disk_of_down down] at one
    exact (spec.hot (opened_shape spec a.storage.readMetadata one)).2.trans
      (h.down disk down s).subperm
  | called _ _ _ isOp => cases isOp
  | destroyed _ _ isOp => cases isOp

/-- The world after the first `Create`. -/
def World.created (e : Engine F) : World F := ⟨.up e, Ledger.empty.start false .empty e⟩

theorem created_copiesOk {env₀ : Env F} {cfg : Config}
    (created : Engine.create env₀ cfg (some .empty) = .ok e) (st : env₀.storage.Succeeds) :
    CopiesOk (World.created e) := by
  have hstep : (World.fresh.step env₀ (.create cfg) : World F) = World.created e := by
    simp only [World.step, World.fresh, created, World.created]
  have spec := Engine.create_spec created
  have noEvict : EvictsRecorded World.fresh env₀ (.create cfg) := by
    rintro e c e' win s session -
    cases session
  have noEvict' : EvictsSeeded World.fresh env₀ (.create cfg) := by
    rintro e c e' win s session -
    cases session
  refine ⟨hstep ▸ schemaOk_step fresh_schemaOk st noEvict,
    hstep ▸ idsOk_step fresh_idsOk ⟨st, rfl⟩ noEvict', ?_, ?_, by simp [World.created], ?_⟩
  · simp only [World.created, World.disk, spec.metadata st.writeMetadata, Option.isSome_some]
  · rintro _ - s
    exact .inr rfl
  · rintro _ ⟨⟩ s
    simp only [spec.tier s, World.created, Ledger.start, Ledger.empty]
    exact ⟨Nat.zero_le _, by simp [Tier.coldRows, SortedMap.values, SortedMap.empty,
      BoundedQueue.since]⟩

/-- **Recovery does not multiply data** in a run of lifetimes none of whose passes
evicts a row that recovery put in the window. -/
theorem no_copies {env₀ : Env F} {cfg : Config} (st : env₀.storage.Succeeds)
    (created : Engine.create env₀ cfg (some .empty) = .ok e) {ops : List (Env F × Op F)}
    (a : World.EveryStep Reopening ops (World.created e))
    (own : World.EveryStep EvictsAppended ops (World.created e)) :
    World.EveryStep NoCopies ops (World.created e) :=
  World.everyStep_of CopiesOk (fun _ _ _ h ha => noCopies_of_step h ha.1 ha.2)
    (fun _ _ _ h ha => copiesOk_step h ha.1 ha.2) (created_copiesOk created st) (a.and own)

end

theorem calmly_reopening {now : Int64} {ops : List (Op ℚ)}
    (h : ∀ op ∈ ops, op.isDrop = false ∧ op.isCreate = false) (w : World ℚ) :
    World.EveryStep Reopening (calmly now ops) w :=
  calmly_every (fun _ op hop => ⟨Env.calm_succeeds ℚ now, (h op hop).1, (h op hop).2⟩) w

/-- One row, flushed, recovered and flushed again. -/
def flushedTwice : List (Op ℚ) :=
  [appendSmall 1 1, .call .flush, .destroy, .openPath, .call .flush]

/-- It is persisted twice. -/
theorem recovery_copies :
    ¬ ∀ (env₀ : Env ℚ) (cfg : Config) (e : Engine ℚ) (ops : List (Env ℚ × Op ℚ)),
      cfg.recoverHotWindow = 1 → env₀.storage.Succeeds →
      Engine.create env₀ cfg (some .empty) = .ok e →
      World.EveryStep Reopening ops (World.created e) →
      World.EveryStep NoCopies ops (World.created e) := by
  intro h
  have copies := h (.calm ℚ 0) smallConfig smallEngine
    (calmly 0 flushedTwice.dropLast ++ calmly 0 [.call .flush]) rfl (Env.calm_succeeds ℚ 0)
    (smallEngine_created 0) (by
      rw [← calmly_append]
      exact calmly_reopening (by decide) _)
  have once := ((World.everyStep_append copies).1.1 sensorA).length_le
  revert once
  decide +kernel

theorem evictsAppended_of_noPass {w : World ℚ} {env : Env ℚ} {op : Op ℚ}
    (h : ∀ e c, op = .call c → Engine.pass e c = none) : EvictsAppended w env op := by
  intro e c e' win s _ isOp pass
  rw [h e c isOp] at pass
  cases pass

theorem smallEngine_recovered (s : SensorId) :
    (World.created smallEngine).ledger.recovered s = 0 := by
  simp [World.created, Ledger.start, Engine.tier, Engine.ring, smallEngine, Engine.init]

/-- A row that is flushed once and recovered is persisted once. -/
theorem no_copies_recovered :
    World.EveryStep NoCopies
      (calmly 0 [appendSmall 1 1, .call .flush, .destroy, .openPath, .call .close, .destroy])
      (World.created smallEngine) := by
  refine no_copies (Env.calm_succeeds ℚ 0) (smallEngine_created 0) (calmly_reopening (by decide) _)
    ⟨?_, ?_, ?_, ?_, ?_, ?_, trivial⟩
  · exact evictsAppended_of_noPass fun _ _ h => by cases h; rfl
  · -- the first lifetime recovered nothing
    intro e c e' win s _ _ _ _
    exact Nat.le_trans (smallEngine_recovered s).le (Nat.zero_le _)
  · exact evictsAppended_of_noPass fun _ _ h => by cases h
  · exact evictsAppended_of_noPass fun _ _ h => by cases h
  · exact evictsAppended_of_noPass fun _ _ h => by cases h; rfl
  · exact evictsAppended_of_noPass fun _ _ h => by cases h

end ChronosVector
