import ChronosVector.ThreadSteps

/-!
# One thread on its own

While the other threads stand still and no pass holds the lock, the steps of a
call are the call as a whole: `Threads` refines the operations of `Engine`.

* `ingest_alone`, `append_alone`: the body of `AppendBatch`, and `Append`;
* `drop_alone`: `Engine.dropSensor`;
* `evict_alone`, `pass_alone`, `flush_alone`: `evictSensor`, a pass and `Flush`.
-/

namespace ChronosVector

variable {F : Type}

namespace Engine

variable {e : Engine F} {s : SensorId}

theorem totalAppends_setRing (r : SensorRing F) :
    (e.setRing s r).totalAppends = e.totalAppends := by
  rw [setRing_frame]

end Engine

namespace Threads

section
variable [FloatArith F] {c c' c'' : Threads F} {t : Nat} {env : Env F} {op : ThreadOp F}

/-- Turns of one thread. -/
def turns (t : Nat) (env : Env F) (op : ThreadOp F) (k : Nat) : List (Turn F) :=
  List.replicate k ⟨t, env, op⟩

/-- Some turns of thread `t` lead from `c` to `c'`. -/
def Reaches (t : Nat) (env : Env F) (op : ThreadOp F) (c c' : Threads F) : Prop :=
  ∃ k, c.run (turns t env op k) = some c'

theorem Reaches.refl (t : Nat) (env : Env F) (op : ThreadOp F) (c : Threads F) :
    Reaches t env op c c := ⟨0, rfl⟩

theorem Reaches.head (step : c.step t env op = some c') (h : Reaches t env op c' c'') :
    Reaches t env op c c'' := by
  obtain ⟨k, run⟩ := h
  exact ⟨k + 1, Runs.run_cons.mpr ⟨c', step, run⟩⟩

theorem Reaches.trans (h : Reaches t env op c c') (h' : Reaches t env op c' c'') :
    Reaches t env op c c'' := by
  obtain ⟨k, run⟩ := h
  obtain ⟨k', run'⟩ := h'
  refine ⟨k + k', ?_⟩
  rw [turns, ← List.replicate_append_replicate]
  exact Runs.run_append.mpr ⟨c', run, run'⟩

variable (env op)

/-! ## Ingest -/

omit [FloatArith F] in
theorem deref_ptr {s : SensorId} (c : Threads F) : c.deref (c.ptr s) = c.engine.ring s := by
  simp [deref, ptr]

/-- The loop of `AppendBatch`. -/
theorem stores_alone {p : RingPtr} {count : Nat} {r : SensorRing F} (row : Engine.BatchRow F)
    (rows : List (Engine.BatchRow F)) (at_ : c.pc t = .storing p (row :: rows) count)
    (live : c.deref p = some r) :
    ∃ c', Reaches t env op c c' ∧ c'.pc t = .storing p [] count ∧
      c'.engine = c.engine.setRing p.sensor
        (Engine.ingestAll c.engine.cfg.dim.toNat (row :: rows) r) := by
  have step : c.step t env op = some ((c.store p.sensor r row).goto t (.storing p rows count)) := by
    simp only [step, at_, live]
  have now : ((c.store p.sensor r row).goto t (.storing p rows count)).pc t =
      .storing p rows count := pc_goto_self _ _ _
  induction rows generalizing c r row with
  | nil => exact ⟨_, .head step (.refl _ _ _ _), now, rfl⟩
  | cons row' rest ih =>
    obtain ⟨next, found⟩ := lookup_of_deref live
    have engine := store_engine found row
    have live' : ((c.store p.sensor r row).goto t (.storing p (row' :: rest) count)).deref p =
        some (r.ingest row.ts row.vec c.engine.cfg.dim.toNat row.payload) := by
      have attached : c.attached p.sensor = p.ring := by
        by_contra other
        simp [deref, other] at live
      show (if c.attached p.sensor = p.ring then (c.store p.sensor r row).engine.ring p.sensor
        else none) = _
      rw [if_pos attached, engine]
      simp [Engine.ring]
    obtain ⟨c', reaches, done, result⟩ := ih row' now live' (by simp only [Threads.step, now, live'])
      (pc_goto_self _ _ _)
    refine ⟨c', .head step reaches, done, ?_⟩
    have cfg : (c.store p.sensor r row).engine.cfg = c.engine.cfg := by rw [engine]; rfl
    rw [result]
    show (c.engine.setRing p.sensor _).setRing p.sensor
      (Engine.ingestAll (c.store p.sensor r row).engine.cfg.dim.toNat _ _) = _
    rw [Engine.setRing_setRing, cfg]
    rfl

/-- `GetOrCreateRing`, both paths, with nobody in between. -/
theorem getOrCreateRing_alone {s : SensorId} {rows : List (Engine.BatchRow F)}
    (at_ : c.pc t = .looking s rows) (free : c.passOwner = none) :
    ∃ c', Reaches t env op c c' ∧
      match c.engine.getOrCreateRing env s with
      | .error _ => c'.pc t = .idle ∧ c'.engine = c.engine
      | .ok (e', r) => c'.pc t = .storing (c'.ptr s) rows rows.length ∧ c'.engine = e' ∧
          e'.ring s = some r := by
  cases ring : c.engine.ring s with
  | some r =>
    obtain ⟨slot, found, own⟩ := Option.bind_eq_some_iff.mp ring
    obtain ⟨_, next⟩ := slot
    cases own
    refine ⟨c.goto t (.storing (c.ptr s) rows rows.length),
      .head (by simp only [step, at_, ring]) (.refl _ _ _ _), ?_⟩
    simp only [Engine.getOrCreateRing, found]
    exact ⟨pc_goto_self _ _ _, rfl, ring⟩
  | none =>
    have first : c.step t env op = some (c.goto t (.inserting s rows)) := by
      simp only [step, at_, ring]
    have second : (c.goto t (.inserting s rows)).step t env op =
        some ((c.goto t (.inserting s rows)).insert t env s rows) := by
      have free' : (c.goto t (.inserting s rows)).passOwner.isSome = false := by
        show c.passOwner.isSome = false
        rw [free]
        rfl
      simp only [step, pc_goto_self, free', Bool.false_eq_true, if_false]
    refine ⟨_, .head first (.head second (.refl _ _ _ _)), ?_⟩
    have engine : (c.goto t (.inserting s rows)).engine = c.engine := rfl
    simp only [insert, Engine.getOrCreateRing, engine]
    cases found : c.engine.sensors.lookup s with
    | none =>
      by_cases full : 0 < c.engine.cfg.maxSensors.toNat ∧
          c.engine.cfg.maxSensors.toNat ≤ c.engine.sensors.keys.length
      · simp only [full, and_self, if_true]
        exact ⟨pc_goto_self _ _ _, rfl⟩
      · simp only [full, if_false]
        cases memory : env.ringMemory s with
        | none => exact ⟨pc_goto_self _ _ _, rfl⟩
        | some mem => exact ⟨pc_goto_self _ _ _, rfl, by simp [Engine.ring]⟩
    | some slot =>
      obtain ⟨_ | r, next⟩ := slot
      · cases memory : env.ringMemory s with
        | none => exact ⟨pc_goto_self _ _ _, rfl⟩
        | some mem => exact ⟨pc_goto_self _ _ _, rfl, by simp [Engine.ring]⟩
      · simp [Engine.ring, found] at ring

/-- **An append alone**, of one row or a batch. -/
theorem ingest_alone {s : SensorId} (row : Engine.BatchRow F) (rows : List (Engine.BatchRow F))
    (idle : c.pc t = .idle) (opened : c.engine.closed = false) (free : c.passOwner = none) :
    ∃ c', Reaches t env (.ingest s (row :: rows)) c c' ∧ c'.pc t = .idle ∧
      match c.engine.getOrCreateRing env s with
      | .error _ => c'.engine = c.engine
      | .ok (e', r) => c'.engine =
        { e'.setRing s (Engine.ingestAll e'.cfg.dim.toNat (row :: rows) r) with
          totalAppends := e'.totalAppends + (row :: rows).length } := by
  have begins : c.step t env (.ingest s (row :: rows)) =
      some (c.goto t (.looking s (row :: rows))) := by
    simp only [step, idle, begin, opened, Bool.false_eq_true, if_false]
  obtain ⟨c₁, reaches, outcome⟩ := getOrCreateRing_alone env
    (.ingest s (row :: rows)) (c := c.goto t (.looking s (row :: rows)))
    (pc_goto_self _ _ _) free
  have engine : (c.goto t (.looking s (row :: rows))).engine = c.engine := rfl
  rw [engine] at outcome
  cases created : c.engine.getOrCreateRing env s with
  | error err =>
    rw [created] at outcome
    exact ⟨c₁, .head begins reaches, outcome.1, outcome.2⟩
  | ok result =>
    obtain ⟨e', r⟩ := result
    rw [created] at outcome
    obtain ⟨at_, rfl, ring⟩ := outcome
    obtain ⟨c₂, reaches', at_', stored⟩ := stores_alone env
      (.ingest s (row :: rows)) row rows at_ ((deref_ptr c₁).trans ring)
    refine ⟨_, .head begins (reaches.trans (reaches'.trans
      (.head (by simp only [step, at_']; rfl) (.refl _ _ _ _)))), pc_goto_self _ _ _, ?_⟩
    simp only [goto, setEngine, stored, Engine.totalAppends_setRing]
    rfl

omit [FloatArith F] in
theorem cfg_of_getOrCreateRing {env : Env F} {e e' : Engine F} {s : SensorId}
    {r : SensorRing F} (h : e.getOrCreateRing env s = .ok (e', r)) : e'.cfg = e.cfg := by
  have cfg := congrArg Engine.cfg (Engine.getOrCreateRing_frame h)
  exact cfg

/-- The steps of one row are `Engine.append`. -/
theorem append_alone {s : SensorId} (row : Engine.BatchRow F) (idle : c.pc t = .idle)
    (opened : c.engine.closed = false) (free : c.passOwner = none) :
    ∃ c', Reaches t env (.ingest s [row]) c c' ∧ c'.pc t = .idle ∧
      c'.engine =
        (c.engine.append env s row.ts row.vec c.engine.cfg.dim.toNat row.payload).2 := by
  obtain ⟨c', reaches, done, result⟩ := ingest_alone env (s := s) row [] idle opened free
  refine ⟨c', reaches, done, ?_⟩
  have open_ : ¬ c.engine.closed = true := by simp [opened]
  unfold Engine.append
  rw [if_neg open_, if_neg (fun h => h rfl)]
  cases created : c.engine.getOrCreateRing env s with
  | error err =>
    rw [created] at result
    exact result
  | ok found =>
    obtain ⟨e', r⟩ := found
    rw [created] at result
    simp only [cfg_of_getOrCreateRing created] at result
    exact result

/-- **A drop alone.** -/
theorem drop_alone {s : SensorId} (idle : c.pc t = .idle) (free : c.passOwner = none) :
    ∃ c', Reaches t env (.dropSensor s) c c' ∧ c'.pc t = .idle ∧
      c'.engine = (c.engine.dropSensor env s).2 := by
  cases closed : c.engine.closed with
  | true =>
    refine ⟨c, .head ?_ (.refl _ _ _ _), idle, by simp [Engine.dropSensor, closed]⟩
    simp only [step, idle, begin, closed, if_true]
  | false =>
    cases found : c.engine.sensors.lookup s with
    | none =>
      refine ⟨c, .head ?_ (.refl _ _ _ _), idle, by simp [Engine.dropSensor, closed, found]⟩
      simp [step, idle, begin, closed, free, found]
    | some slot =>
      have first : c.step t env (.dropSensor s) = some ((c.erase s slot).goto t (.deleting s)) := by
        simp [step, idle, begin, closed, free, found]
      have at_ : ((c.erase s slot).goto t (.deleting s)).pc t = .deleting s :=
        pc_goto_self _ _ _
      refine ⟨_, .head first (.head (by simp only [step, at_]; rfl) (.refl _ _ _ _)),
        pc_goto_self _ _ _, ?_⟩
      have open_ : ¬ c.engine.closed = true := by simp [closed]
      unfold Engine.dropSensor
      rw [if_neg open_, found]
      obtain ⟨_ | r, next⟩ := slot
      · rfl
      · rfl

/-! ## Passes -/

/-- The tail advance and the write, in one. -/
theorem writeEvicted_moveTail (e : Engine F) (env : Env F) (s : SensorId) (r : SensorRing F)
    (id n : Nat) (sc : EvictScratch F) :
    (({ e with evictScratch := sc }.moveTail s ⟨some r, id⟩ r n).writeEvicted env s
      ⟨some (r.advanceTail n), id⟩ (r.advanceTail n) (n - r.snapshot.1)) =
      (e.persistEvicted env s id r n sc).1 := by
  simp only [Engine.writeEvicted, Engine.moveTail, Engine.persistEvicted, Engine.setSlot,
    AList.insert_insert]
  rfl

/-- The second half of `EvictSensor`. -/
theorem persist_alone {p : PassRun F} {s : SensorId} {r : SensorRing F} {id n : Nat}
    {e : Engine F} {sc : EvictScratch F} (at_ : c.pc t = .copied p s r.snapshot.1 n)
    (engine : c.engine = { e with evictScratch := sc })
    (found : e.sensors.lookup s = some ⟨some r, id⟩) :
    ∃ c', Reaches t env op c c' ∧ c'.pc t = .visiting p ∧ c'.passOwner = c.passOwner ∧
      c'.engine = (e.persistEvicted env s id r n sc).1 := by
  let c₁ := (c.setEngine (c.engine.moveTail s ⟨some r, id⟩ r n)).goto t
    (.moved p s r.snapshot.1 n)
  have found₀ : c.engine.sensors.lookup s = some ⟨some r, id⟩ := by rwa [engine]
  have first : c.step t env op = some c₁ := by simp only [step, at_, found₀, c₁]
  have at₁ : c₁.pc t = .moved p s r.snapshot.1 n := pc_goto_self _ _ _
  have found₁ : c₁.engine.sensors.lookup s = some ⟨some (r.advanceTail n), id⟩ :=
    AList.lookup_insert _
  have second : c₁.step t env op =
      some ((c₁.setEngine (c₁.engine.writeEvicted env s ⟨some (r.advanceTail n), id⟩
        (r.advanceTail n) (n - r.snapshot.1))).goto t (.visiting p)) := by
    simp only [step, at₁, found₁]
  refine ⟨_, .head first (.head second (.refl _ _ _ _)), pc_goto_self _ _ _, rfl, ?_⟩
  rw [← writeEvicted_moveTail, ← engine]
  rfl

/-- `EvictSensor` of the next sensor. -/
theorem evict_alone {p : PassRun F} {s : SensorId} {rest : List SensorId} {slot : SensorSlot F}
    (at_ : c.pc t = .visiting p) (next : p.rest = s :: rest)
    (found : c.engine.sensors.lookup s = some slot) :
    ∃ c', Reaches t env op c c' ∧ c'.pc t = .visiting { p with rest := rest } ∧
      c'.passOwner = c.passOwner ∧
      c'.engine = (c.engine.evictSensor env s slot p.windowMs).1 := by
  have visit : c.step t env op = some (c.visit t p s rest) := by simp only [step, at_, next]
  obtain ⟨_ | r, id⟩ := slot
  · have skips : c.visit t p s rest = c.goto t (.visiting { p with rest := rest }) := by
      simp [Threads.visit, Engine.ring, found]
    exact ⟨_, .head visit (.refl _ _ _ _), by rw [skips, pc_goto_self], by rw [skips]; rfl,
      by rw [skips]; rfl⟩
  · have ring : c.engine.ring s = some r := ring_of_lookup found
    by_cases nothing : r.snapshot.1 = r.snapshot.2 ∨ r.newTail p.windowMs = r.snapshot.1
    · have skips : c.visit t p s rest = c.goto t (.visiting { p with rest := rest }) := by
        simp only [Threads.visit, ring, nothing, if_true]
      have idle : (c.engine.evictSensor env s ⟨some r, id⟩ p.windowMs).1 = c.engine := by
        obtain empty | still := nothing
        · simp only [Engine.evictSensor, empty, if_true]
        · simp only [Engine.evictSensor, still, if_true, ite_self]
      exact ⟨_, .head visit (.refl _ _ _ _), by rw [skips, pc_goto_self], by rw [skips]; rfl,
        by rw [skips, idle]; rfl⟩
    · obtain ⟨some_, due⟩ := not_or.mp nothing
      let p' : PassRun F := { p with rest := rest }
      let n := r.newTail p.windowMs
      have snaps : c.visit t p s rest = c.goto t (.snapped p' s r.snapshot.1 n) := by
        simp only [Threads.visit, ring, nothing, if_false, p', n]
      rw [snaps] at visit
      have copies : (c.goto t (.snapped p' s r.snapshot.1 n)).step t env op =
          some ((c.goto t (.snapped p' s r.snapshot.1 n)).copy t env p' s r.snapshot.1 n r) := by
        have ring' : (c.goto t (.snapped p' s r.snapshot.1 n)).engine.ring s = some r := ring
        simp only [step, pc_goto_self, ring']
      simp only [Engine.evictSensor, some_, due, if_false]
      by_cases few : env.scratchMemory s < 4
      · simp only [few, if_true]
        refine ⟨_, .head visit (.head copies (.refl _ _ _ _)), ?_, ?_, ?_⟩
        · simp only [Threads.copy, few, if_true, pc_goto_self, p']
        · simp only [Threads.copy, few, if_true]
          rfl
        · simp only [Threads.copy, few, if_true]
          rfl
      · simp only [few, if_false]
        simp only [Threads.copy, few, if_false] at copies
        let sc := (c.engine.evictScratch.reserve r.shape (n - r.snapshot.1)
          (env.scratchMemory s)).copyRows r r.snapshot.1 (n - r.snapshot.1)
        let c₁ := (c.setEngine { c.engine with evictScratch := sc }).goto t
          (.copied p' s r.snapshot.1 n)
        have at₁ : c₁.pc t = .copied p' s r.snapshot.1 n := pc_goto_self _ _ _
        have engine₁ : c₁.engine = { c.engine with evictScratch := sc } := rfl
        obtain ⟨c', reaches, done, owner, result⟩ := persist_alone env op at₁ engine₁ found
        have copies' : (c.goto t (.snapped p' s r.snapshot.1 n)).step t env op = some c₁ := by
          rw [copies]
          simp only [goto, setEngine, Function.update_idem, c₁, sc]
        exact ⟨c', .head visit (.head copies' reaches), done, owner, result⟩

/-- The loop of `EvictOnce`. -/
theorem pass_alone {p : PassRun F} (rest : List SensorId) (at_ : c.pc t = .visiting p)
    (ahead : p.rest = rest) :
    ∃ c', Reaches t env op c c' ∧ c'.pc t = .visiting { p with rest := [] } ∧
      c'.passOwner = c.passOwner ∧
      c'.engine = (Engine.evictSensors env p.windowMs rest c.engine).1 := by
  induction rest generalizing c p with
  | nil =>
    refine ⟨c, .refl _ _ _ _, ?_, rfl, rfl⟩
    rw [at_, ← ahead]
  | cons s rest ih =>
    cases found : c.engine.sensors.lookup s with
    | none =>
      have skips : c.step t env op = some (c.goto t (.visiting { p with rest := rest })) := by
        have none : c.engine.ring s = none := by simp [Engine.ring, found]
        simp only [step, at_, ahead, Threads.visit, none]
      obtain ⟨c', reaches, done, owner, result⟩ := ih
        (c := c.goto t (.visiting { p with rest := rest })) (pc_goto_self _ _ _) rfl
      refine ⟨c', .head skips reaches, done, owner, ?_⟩
      simp only [Engine.evictSensors, found]
      exact result
    | some slot =>
      obtain ⟨c₁, reaches₁, at₁, owner₁, result₁⟩ := evict_alone env op at_ ahead found
      obtain ⟨c', reaches, done, owner, result⟩ := ih at₁ rfl
      refine ⟨c', reaches₁.trans reaches, done, owner.trans owner₁, ?_⟩
      simp only [Engine.evictSensors, found]
      rw [result, result₁]

/-- **A flush alone.** -/
theorem flush_alone (idle : c.pc t = .idle) (opened : c.engine.closed = false)
    (free : c.passOwner = none) :
    ∃ c', Reaches t env .flush c c' ∧ c'.pc t = .idle ∧ c'.passOwner = none ∧
      c'.engine = (c.engine.flush env).2 := by
  have begins : c.step t env .flush = some (c.goto t (.entering 0 (some c.appended))) := by
    simp only [step, idle, begin, opened, Bool.false_eq_true, if_false]
  let p : PassRun F := ⟨0, env.order c.engine.sensors.keys, some c.appended⟩
  let c₁ := c.goto t (.entering 0 (some c.appended))
  have at₁ : c₁.pc t = .entering 0 (some c.appended) := pc_goto_self _ _ _
  have free₁ : c₁.passOwner.isSome = false := by
    show c.passOwner.isSome = false
    rw [free]
    rfl
  have enters : c₁.step t env .flush = some ({ c₁ with passOwner := some t }.goto t (.visiting p)) := by
    simp only [step, at₁, free₁, Bool.false_eq_true, if_false]
    rfl
  obtain ⟨c₂, reaches, at₂, -, result⟩ := pass_alone env .flush
    (c := { c₁ with passOwner := some t }.goto t (.visiting p)) p.rest (pc_goto_self _ _ _) rfl
  let c₃ := { c₂ with passOwner := none }.goto t (.syncing c.appended)
  have leaves : c₂.step t env .flush = some c₃ := by
    simp only [step, at₂]
    rfl
  have at₃ : c₃.pc t = .syncing c.appended := pc_goto_self _ _ _
  have syncs : c₃.step t env .flush = some ((c₃.sync env c.appended).goto t .idle) := by
    simp only [step, at₃]
  refine ⟨_, .head begins (.head enters (reaches.trans (.head leaves (.head syncs (.refl _ _ _ _))))),
    pc_goto_self _ _ _, rfl, ?_⟩
  have open_ : ¬ c.engine.closed = true := by simp [opened]
  unfold Engine.flush
  rw [if_neg open_]
  exact result

end

end Threads

end ChronosVector
