import ChronosVector.Exact

/-!
# Block ids across lifetimes

The counter of a sensor's slot is seeded from the directory by `Open` only.

* `SensorIds`: the ids of a sensor's blocks are an initial segment, and its
  counter is past them, or at zero if `Create` inherited blocks;
* `keeps_blocks_iff`: a run overwrites no block exactly when no pass evicts from
  a sensor whose blocks a created engine inherited.
-/

namespace ChronosVector

variable {F : Type}

/-- Whether the counter of the sensor was seeded past its blocks: the lifetime
began with `Open`, or there were none. -/
def Ledger.Seeded (l : Ledger F) (s : SensorId) : Prop :=
  l.opened = true ∨ (l.inherited.blocks s).keys = []

/-- The ids of a sensor. -/
structure SensorIds (seeded : Prop) (t : Tier F) : Prop where
  contiguous : t.blocks.keys = List.range t.blocks.keys.length
  past : seeded → t.nextBlockId = t.blocks.keys.length
  stuck : ¬ seeded → t.nextBlockId = 0 ∧ t.blocks.keys ≠ []

section
variable {seeded : Prop} {t t' : Tier F}

theorem SensorIds.fresh_iff (h : SensorIds seeded t) :
    t.blocks.get t.nextBlockId = none ↔ seeded := by
  rw [SortedMap.get_eq_none]
  constructor
  · intro hn
    by_contra hs
    obtain ⟨zero, ne⟩ := h.stuck hs
    have hpos := List.length_pos_iff.mpr ne
    rw [zero, h.contiguous, List.mem_range] at hn
    exact hn hpos
  · intro hs
    rw [h.past hs, h.contiguous, List.mem_range, List.length_range]
    omega

theorem SensorIds.lt_next (h : SensorIds seeded t) (hs : seeded) :
    ∀ id ∈ t.blocks.keys, id < t.nextBlockId := by
  intro id hid
  rw [h.contiguous, List.mem_range] at hid
  rw [h.past hs]
  exact hid

theorem SensorIds.put (h : SensorIds seeded t) (hs : seeded) (hot : BoundedQueue (Entry F))
    (b : StoredBlock F) :
    SensorIds seeded ⟨hot, t.nextBlockId + 1, t.blocks.put t.nextBlockId b⟩ := by
  have hkeys : (t.blocks.put t.nextBlockId b).keys = t.blocks.keys ++ [t.nextBlockId] :=
    SortedMap.keys_put_append (h.lt_next hs)
  refine ⟨?_, fun _ => ?_, fun hn => absurd hs hn⟩
  · simp only [hkeys, List.length_append, List.length_singleton, List.range_succ]
    rw [← h.contiguous, ← h.past hs]
  · simp only [hkeys, List.length_append, List.length_singleton]
    rw [h.past hs]

theorem SensorIds.congr (h : SensorIds seeded t) (hn : t'.nextBlockId = t.nextBlockId)
    (hb : t'.blocks = t.blocks) : SensorIds seeded t' :=
  ⟨by rw [hb]; exact h.contiguous, by rw [hn, hb]; exact h.past, by rw [hn, hb]; exact h.stuck⟩

theorem get_put_of_fresh {m : SortedMap Nat (StoredBlock F)} {id id' : Nat} {b b' : StoredBlock F}
    (fresh : m.get id = none) (h : m.get id' = some b') : (m.put id b).get id' = some b' := by
  rw [SortedMap.get_put_ne, h]
  rintro rfl
  rw [fresh] at h
  cases h

end

section
variable [FloatArith F] {w : World F} {env : Env F} {op : Op F} {e e' : Engine F} {s : SensorId}

/-- The backend succeeds and nothing is dropped. -/
def Undisturbed (_ : World F) (env : Env F) (op : Op F) : Prop :=
  env.storage.Succeeds ∧ op.isDrop = false

/-- The step writes no block over another and changes none. -/
structure KeepsBlocks (w : World F) (env : Env F) (op : Op F) : Prop where
  fresh : ∀ blk ∈ w.writes env op, (w.disk.blocks blk.sensorId).get blk.blockId = none
  kept : ∀ s id b, (w.disk.blocks s).get id = some b →
    ((w.step env op).disk.blocks s).get id = some b

/-- No pass evicts from a sensor whose counter is not past its blocks. -/
def EvictsSeeded (w : World F) (env : Env F) (op : Op F) : Prop :=
  ∀ e c e' win s, w.session = .up e → op = .call c → e.pass c = some (e', win) →
    0 < (e.tier s).evictedCount env win s → w.ledger.Seeded s

structure IdsOk (w : World F) : Prop where
  ok : w.Ok
  down : ∀ disk, w.session = .down disk →
    ∀ s, (disk.blocks s).keys = List.range (disk.blocks s).keys.length
  up : ∀ e, w.session = .up e → ∀ s, SensorIds (w.ledger.Seeded s) (e.tier s)

omit [FloatArith F] in
theorem fresh_idsOk : IdsOk (World.fresh : World F) :=
  ⟨fun _ h => by simp [World.fresh] at h, fun _ h _ => by
    cases h
    rfl, fun _ h => by simp [World.fresh] at h⟩

/-- One eviction of a sensor whose writes succeed. -/
theorem SensorIds.evicts {seeded : Prop} {t t' : Tier F} {sh : RingShape} {win : Int64}
    {own : List (Block F)} (h : SensorIds seeded t) (ok : env.storage.writeBlock s = .ok)
    (ev : t.Evicts env true sh win s t' own) (safe : 0 < t.evictedCount env win s → seeded) :
    SensorIds seeded t' ∧ (∀ blk ∈ own, t.blocks.get blk.blockId = none) ∧
    ∀ id b, t.blocks.get id = some b → t'.blocks.get id = some b := by
  cases ev with
  | idle => exact ⟨h, by simp, fun _ _ hb => hb⟩
  | wrote k blk count pos sensor id cut =>
    have hs := safe (count ▸ pos)
    have fresh := h.fresh_iff.mpr hs
    simp only [WriteOutcome.of, ok, if_true, Bool.true_eq_false, if_false, Tier.evict]
    refine ⟨h.put hs _ _, ?_, fun id' b hb => get_put_of_fresh fresh hb⟩
    intro blk' hb
    rw [List.mem_singleton.mp hb, id]
    exact fresh

omit [FloatArith F] in
theorem created_ids {cfg : Config} {disk : ColdTier F} (spec : Engine.Created env cfg disk e)
    (down : (disk.blocks s).keys = List.range (disk.blocks s).keys.length) (l : Ledger F) :
    SensorIds ((l.start false disk e).Seeded s) (e.tier s) := by
  rw [spec.tier s]
  refine ⟨down, ?_, ?_⟩
  · rintro (h | h)
    · cases h
    · simp only [Ledger.start] at h
      simp [h]
  · intro h
    exact ⟨rfl, fun hk => h (.inr hk)⟩

theorem opened_ids {disk : ColdTier F} (spec : Engine.Opened env disk e)
    (down : (disk.blocks s).keys = List.range (disk.blocks s).keys.length) (l : Ledger F) :
    SensorIds ((l.start true disk e).Seeded s) (e.tier s) := by
  obtain ⟨next, blocks, -⟩ := spec.tier s
  refine ⟨by rw [blocks]; exact down, fun _ => ?_, fun h => absurd (.inl rfl) h⟩
  rw [next, blocks, down, Engine.seedBlockId_range, List.length_range]

/-- A call, sensor by sensor. -/
theorem call_ids (env : Env F) (c : Call F) (s : SensorId) (ok : e.Ok) (per : e.backend.persists = true)
    (wr : env.storage.writeBlock s = .ok) (nodrop : c.drops s = false) {seeded : Prop}
    (h : SensorIds seeded (e.tier s))
    (safe : ∀ e' win, e.pass c = some (e', win) → 0 < (e.tier s).evictedCount env win s → seeded) :
    SensorIds seeded ((e.call env c).2.tier s) ∧
    (∀ blk ∈ e.writes env c, blk.sensorId = s → (e.tier s).blocks.get blk.blockId = none) ∧
    ∀ id b, (e.tier s).blocks.get id = some b →
      ((e.call env c).2.tier s).blocks.get id = some b := by
  have step := Engine.call_step ok env c s
  generalize (e.call env c).2.tier s = t' at step
  cases step with
  | append noPass =>
    refine ⟨h.congr (by simp) (by simp), ?_, fun id b hb => by simpa using hb⟩
    simp [Engine.writes, noPass]
  | evict e' win own _ pass _ evicts mem =>
    rw [per] at evicts
    obtain ⟨h', fresh, kept⟩ := h.evicts wr evicts (safe e' win pass)
    exact ⟨h', fun blk hb hs => fresh blk ((mem blk).mpr ⟨hb, hs⟩), kept⟩
  | drop _ drops => simp [nodrop] at drops

/-- **One step.** A safe step keeps the invariant and every block. -/
theorem safe_step {w' : World F} (kind : World.StepKind w env op w') (ok' : w'.Ok) (h : IdsOk w)
    (a : Undisturbed w env op) (safe : EvictsSeeded w env op) :
    IdsOk w' ∧ (∀ blk ∈ w.writes env op, (w.disk.blocks blk.sensorId).get blk.blockId = none) ∧
    ∀ s id b, (w.disk.blocks s).get id = some b → (w'.disk.blocks s).get id = some b := by
  cases kind with
  | stays writes => exact ⟨h, by simp [writes], fun _ _ _ hb => hb⟩
  | created cfg disk e session isOp spec =>
    subst isOp
    have down := h.down disk session
    refine ⟨⟨ok', by simp, ?_⟩, by simp [World.writes], fun s id b hb => ?_⟩
    · rintro _ ⟨⟩ s
      exact created_ids spec (down s) _
    · rw [World.disk_of_down session] at hb
      have hblocks : (e.tier s).blocks = disk.blocks s := by rw [spec.tier s]
      change ((e.tier s).blocks.get id) = some b
      rwa [hblocks]
  | opened disk e session isOp spec =>
    subst isOp
    have down := h.down disk session
    refine ⟨⟨ok', by simp, ?_⟩, by simp [World.writes], fun s id b hb => ?_⟩
    · rintro _ ⟨⟩ s
      exact opened_ids spec (down s) _
    · rw [World.disk_of_down session] at hb
      change ((e.tier s).blocks.get id) = some b
      rwa [(spec.tier s).2.1]
  | called e c session isOp =>
    subst isOp
    obtain ⟨ok, per⟩ := h.ok e session
    have sensor (s : SensorId) := call_ids env c s ok per
      (a.1.writeBlock s) (Op.not_drops a.2 s) (h.up e session s)
      (fun e' win hp hk => safe e c e' win s session rfl hp hk)
    refine ⟨⟨ok', by simp, ?_⟩, ?_, ?_⟩
    · rintro _ ⟨⟩ s
      exact (sensor s).1
    · intro blk hb
      simp only [World.writes, session] at hb
      rw [World.disk_of_up session]
      exact (sensor blk.sensorId).2.1 blk hb rfl
    · intro s id b hb
      rw [World.disk_of_up session] at hb
      exact (sensor s).2.2 id b hb
  | destroyed e session isOp =>
    subst isOp
    refine ⟨⟨ok', ?_, by simp⟩, by simp [World.writes], fun s id b hb => ?_⟩
    · rintro _ ⟨⟩ s
      exact (h.up e session s).contiguous
    · rwa [World.disk_of_up session] at hb

theorem idsOk_step (h : IdsOk w) (a : Undisturbed w env op) (safe : EvictsSeeded w env op) :
    IdsOk (w.step env op) :=
  (safe_step (World.step_kind w env op) (World.step_ok h.ok env op) h a safe).1

/-- At one step, writing over no block is evicting from seeded sensors only. -/
theorem keepsBlocks_iff_step (h : IdsOk w) (a : Undisturbed w env op) :
    KeepsBlocks w env op ↔ EvictsSeeded w env op := by
  constructor
  · rintro keeps e c e' win s session rfl hp hk
    obtain ⟨ok, -⟩ := h.ok e session
    obtain ⟨own, ev, mem⟩ := Engine.call_pass_evicts hp ok env s
    generalize (e.call env c).2.tier s = t' at ev
    cases ev with
    | idle zero => omega
    | wrote k blk count pos sensor id cut =>
      have hw : blk ∈ w.writes env (.call c) := by
        simp only [World.writes, session]
        exact ((mem blk).mp List.mem_cons_self).1
      have fresh := keeps.fresh blk hw
      rw [sensor, id, World.disk_of_up session] at fresh
      exact (h.up e session s).fresh_iff.mp fresh
  · intro safe
    obtain ⟨-, fresh, kept⟩ :=
      safe_step (World.step_kind w env op) (World.step_ok h.ok env op) h a safe
    exact ⟨fresh, kept⟩

/-- **When no block is ever overwritten.** In a run on an initially empty path,
every write uses a free key exactly when no pass evicts from a sensor whose
blocks a created engine inherited. -/
theorem keeps_blocks_iff {ops : List (Env F × Op F)}
    (a : World.EveryStep Undisturbed ops World.fresh) :
    World.EveryStep KeepsBlocks ops World.fresh ↔
      World.EveryStep EvictsSeeded ops World.fresh :=
  World.everyStep_iff (fun _ _ _ => keepsBlocks_iff_step) (fun _ _ _ => idsOk_step)
    fresh_idsOk a

end

/-! ## A created engine on a used path -/

/-- A lifetime that persists one row and is destroyed. -/
def flushOnce (start : Op ℚ) (ts : Int64) (x : ℚ) : List (Op ℚ) :=
  [start, appendSmall ts x, .call .flush, .destroy]

theorem calmly_undisturbed {now : Int64} {ops : List (Op ℚ)} (h : ∀ op ∈ ops, op.isDrop = false)
    (w : World ℚ) : World.EveryStep Undisturbed (calmly now ops) w :=
  calmly_every (fun _ op hop => ⟨Env.calm_succeeds ℚ now, h op hop⟩) w

/-- The second lifetime of one path, created again, writes block 0 again. -/
theorem create_overwrites :
    ¬ ∀ ops : List (Env ℚ × Op ℚ), World.EveryStep Undisturbed ops World.fresh →
      World.EveryStep KeepsBlocks ops World.fresh := by
  intro h
  let setup := flushOnce (.create smallConfig) 1 1 ++ [.create smallConfig, appendSmall 2 2]
  have keeps := h (calmly 0 setup ++ calmly 0 [.call .flush]) (by
    rw [← calmly_append]
    exact calmly_undisturbed (by decide) _)
  have last := (World.everyStep_append keeps).1.fresh
  have clash : ((World.run (calmly 0 setup) World.fresh).writes (.calm ℚ 0) (.call .flush)).all
      (fun blk => (((World.run (calmly 0 setup) World.fresh).disk.blocks blk.sensorId).get
        blk.blockId).isNone) = false := by decide +kernel
  rw [List.all_eq_false] at clash
  obtain ⟨blk, hblk, hsome⟩ := clash
  exact hsome (by rw [last blk hblk]; rfl)

/-- Opened again, it does not: the two conditions agree on this run. -/
theorem keeps_blocks_reopened :
    World.EveryStep KeepsBlocks
        (calmly 0 (flushOnce (.create smallConfig) 1 1 ++ flushOnce .openPath 2 2)) World.fresh ↔
      World.EveryStep EvictsSeeded
        (calmly 0 (flushOnce (.create smallConfig) 1 1 ++ flushOnce .openPath 2 2)) World.fresh :=
  keeps_blocks_iff (calmly_undisturbed (by decide) _)

end ChronosVector
