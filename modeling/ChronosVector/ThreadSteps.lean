import ChronosVector.Threads
import ChronosVector.Tier

/-!
# Steps of the threads

What one step of the machine of `Threads` can do, said once.

* `Step`, `step_cases`: one case for each way through the calls;
* `MapStep`, `Step.map`: what a step does to the sensor map and the counters;
* `Locked`: whoever is in a pass holds its lock.
-/

namespace ChronosVector

variable {F : Type}

namespace Threads

/-! ## What a step can be -/

/-- The steps of thread `t`, one case for each way through the calls. -/
inductive Step [FloatArith F] (c : Threads F) (t : Nat) (env : Env F) (op : ThreadOp F) :
    Threads F → Prop
  | refused (at_ : c.pc t = .idle) : Step c t env op c
  | ingest {s rows} (at_ : c.pc t = .idle) (call : op = .ingest s rows) :
    Step c t env op (c.goto t (.looking s rows))
  | erase {s slot} (at_ : c.pc t = .idle) (call : op = .dropSensor s) (free : c.passOwner = none)
    (found : c.engine.sensors.lookup s = some slot) :
    Step c t env op ((c.erase s slot).goto t (.deleting s))
  | beginFlush (at_ : c.pc t = .idle) :
    Step c t env op (c.goto t (.entering 0 (some c.appended)))
  | retune {windowMs : Int64} (at_ : c.pc t = .idle) (h : ¬ windowMs.toInt < 0) :
    Step c t env op
      ((c.setEngine
        { c.engine with cfg := c.engine.cfg.setWindow windowMs (window_checked h) }).goto t
          (.entering (-1) none))
  | beginPass (at_ : c.pc t = .idle) : Step c t env op (c.goto t (.entering (-1) none))
  | readEvents (at_ : c.pc t = .idle) :
    Step c t env op (c.goto t (.reading
      ⟨c.reports.map StatsReport.totals, c.engine.droppedOverwriteEvents, 0⟩))
  | found {s rows r} (at_ : c.pc t = .looking s rows ∨ c.pc t = .inserting s rows)
    (ring : c.engine.ring s = some r) :
    Step c t env op (c.goto t (.storing (c.ptr s) rows rows.length))
  | missed {s rows} (at_ : c.pc t = .looking s rows) (none : c.engine.ring s = none) :
    Step c t env op (c.goto t (.inserting s rows))
  | failed {s rows} (at_ : c.pc t = .inserting s rows) : Step c t env op (c.goto t .idle)
  | attach {s rows mem next} (at_ : c.pc t = .inserting s rows) (free : c.passOwner = none)
    (slot : c.engine.sensors.lookup s = some ⟨none, next⟩ ∨
      c.engine.sensors.lookup s = none ∧ next = 0 ∧
        (0 < c.engine.cfg.maxSensors.toNat →
          c.engine.sensors.keys.length < c.engine.cfg.maxSensors.toNat)) :
    Step c t env op
      ((c.attach s mem next).goto t (.storing ((c.attach s mem next).ptr s) rows rows.length))
  | stale {p row rows count} (at_ : c.pc t = .storing p (row :: rows) count)
    (gone : c.deref p = none) : Step c t env op (c.goto t (.storing p rows count))
  | store {p row rows count r} (at_ : c.pc t = .storing p (row :: rows) count)
    (live : c.deref p = some r) :
    Step c t env op ((c.store p.sensor r row).goto t (.storing p rows count))
  | counted {p count} (at_ : c.pc t = .storing p [] count) :
    Step c t env op
      ((c.setEngine
        { c.engine with totalAppends := c.engine.totalAppends + count }).goto t .idle)
  | delete {s} (at_ : c.pc t = .deleting s) :
    Step c t env op ((c.setEngine (c.engine.deleteBlocks env s)).goto t .idle)
  | enter {w flush} (at_ : c.pc t = .entering w flush) (free : c.passOwner = none) :
    Step c t env op
      ({ c with passOwner := some t }.goto t
        (.visiting ⟨if 0 ≤ w then w else c.engine.cfg.windowDurationMs,
          env.order c.engine.sensors.keys, flush⟩))
  | leave {p} (at_ : c.pc t = .visiting p) (done : p.rest = []) :
    Step c t env op ({ c with passOwner := none }.goto t (p.flush.elim .idle .syncing))
  | skip {p s rest} (at_ : c.pc t = .visiting p) (next : p.rest = s :: rest)
    (nothing : ∀ r, c.engine.ring s = some r →
      r.snapshot.1 = r.snapshot.2 ∨ r.newTail p.windowMs = r.snapshot.1) :
    Step c t env op (c.goto t (.visiting { p with rest := rest }))
  | snap {p s rest r} (at_ : c.pc t = .visiting p) (next : p.rest = s :: rest)
    (ring : c.engine.ring s = some r) (some : r.snapshot.1 ≠ r.snapshot.2)
    (due : r.newTail p.windowMs ≠ r.snapshot.1) :
    Step c t env op
      (c.goto t (.snapped { p with rest := rest } s r.snapshot.1 (r.newTail p.windowMs)))
  | copyFailed {p s b newTail r} (at_ : c.pc t = .snapped p s b newTail)
    (ring : c.engine.ring s = some r) (memory : env.scratchMemory s < 4) :
    Step c t env op
      ((c.setEngine
        { c.engine with
          evictScratch := c.engine.evictScratch.reserve r.shape (newTail - b)
            (env.scratchMemory s) }).goto t (.visiting p))
  | copy {p s b newTail r} (at_ : c.pc t = .snapped p s b newTail)
    (ring : c.engine.ring s = some r) (memory : 4 ≤ env.scratchMemory s) :
    Step c t env op
      ((c.setEngine
        { c.engine with
          evictScratch := (c.engine.evictScratch.reserve r.shape (newTail - b)
            (env.scratchMemory s)).copyRows r b (newTail - b) }).goto t (.copied p s b newTail))
  | move {p s b newTail r next} (at_ : c.pc t = .copied p s b newTail)
    (slot : c.engine.sensors.lookup s = some ⟨some r, next⟩) :
    Step c t env op
      ((c.setEngine (c.engine.moveTail s ⟨some r, next⟩ r newTail)).goto t
        (.moved p s b newTail))
  | write {p s b newTail r next} (at_ : c.pc t = .moved p s b newTail)
    (slot : c.engine.sensors.lookup s = some ⟨some r, next⟩) :
    Step c t env op
      ((c.setEngine (c.engine.writeEvicted env s ⟨some r, next⟩ r (newTail - b))).goto t
        (.visiting p))
  | sync {rows} (at_ : c.pc t = .syncing rows) :
    Step c t env op ((c.sync env rows).goto t .idle)
  | readEntries {call} (at_ : c.pc t = .reading call) :
    Step c t env op
      (c.goto t (.summing { call with entries := c.engine.droppedOverwrittenEntries }))
  | report {call} (at_ : c.pc t = .summing call) :
    Step c t env op ((c.report call).goto t .idle)

section
variable {c c' : Threads F} {t : Nat} {env : Env F} {op : ThreadOp F}

theorem ring_of_lookup {e : Engine F} {s : SensorId} {r : SensorRing F} {next : Nat}
    (h : e.sensors.lookup s = some ⟨some r, next⟩) : e.ring s = some r := by
  simp [Engine.ring, h]

theorem begin_cases [FloatArith F] (at_ : c.pc t = .idle) (h : c.begin t op = some c') :
    Step c t env op c' := by
  cases op with
  | ingest s rows =>
    simp only [begin] at h
    split at h
    · cases h
      exact .refused at_
    · cases h
      exact .ingest at_ rfl
  | dropSensor s =>
    simp only [begin] at h
    split at h
    · cases h
      exact .refused at_
    · split at h
      · cases h
      · rename_i free
        split at h
        · cases h
          exact .refused at_
        · rename_i slot found
          cases h
          exact .erase at_ rfl (by simpa using free) found
  | flush =>
    simp only [begin] at h
    split at h
    · cases h
      exact .refused at_
    · cases h
      exact .beginFlush at_
  | maintainSlidingWindow windowMs =>
    simp only [begin] at h
    split at h
    · cases h
      exact .refused at_
    · split at h
      · cases h
        exact .refused at_
      · rename_i nonneg
        cases h
        exact .retune at_ nonneg
  | backgroundPass =>
    simp only [begin] at h
    split at h
    · cases h
      exact .refused at_
    · cases h
      exact .beginPass at_
  | getStats =>
    cases h
    exact .readEvents at_

theorem insert_cases [FloatArith F] {s : SensorId} {rows : List (Engine.BatchRow F)}
    (at_ : c.pc t = .inserting s rows) (free : c.passOwner = none) :
    Step c t env op (c.insert t env s rows) := by
  simp only [insert]
  split
  · rename_i found
    exact .found (.inr at_) (ring_of_lookup found)
  · rename_i next found
    split
    · exact .failed at_
    · exact .attach at_ free (.inl found)
  · rename_i unknown
    split
    · exact .failed at_
    · rename_i room
      split
      · exact .failed at_
      · exact .attach at_ free (.inr ⟨unknown, rfl, by omega⟩)

theorem visit_cases [FloatArith F] {p : PassRun F} {s : SensorId} {rest : List SensorId}
    (at_ : c.pc t = .visiting p) (next : p.rest = s :: rest) :
    Step c t env op (c.visit t p s rest) := by
  simp only [visit]
  split
  · rename_i none
    exact .skip at_ next (by simp [none])
  · rename_i r ring
    split
    · rename_i nothing
      refine .skip at_ next ?_
      intro r' ring'
      rw [ring, Option.some.injEq] at ring'
      exact ring' ▸ nothing
    · rename_i due
      exact .snap at_ next ring (fun h => due (.inl h)) (fun h => due (.inr h))

theorem copy_cases [FloatArith F] {p : PassRun F} {s : SensorId} {b newTail : Nat}
    {r : SensorRing F} (at_ : c.pc t = .snapped p s b newTail) (ring : c.engine.ring s = some r) :
    Step c t env op (c.copy t env p s b newTail r) := by
  simp only [copy]
  split
  · rename_i few
    exact .copyFailed at_ ring few
  · rename_i enough
    exact .copy at_ ring (by omega)

/-- Every step is one of the cases. -/
theorem step_cases [FloatArith F] (h : c.step t env op = some c') : Step c t env op c' := by
  simp only [step] at h
  split at h
  · rename_i at_
    exact begin_cases at_ h
  · rename_i s rows at_
    split at h
    · rename_i r ring
      cases h
      exact .found (.inl at_) ring
    · rename_i none
      cases h
      exact .missed at_ none
  · rename_i s rows at_
    split at h
    · cases h
    · rename_i free
      cases h
      exact insert_cases at_ (by simpa using free)
  · rename_i p row rows count at_
    split at h
    · rename_i gone
      cases h
      exact .stale at_ gone
    · rename_i r live
      cases h
      exact .store at_ live
  · rename_i p count at_
    cases h
    exact .counted at_
  · rename_i s at_
    cases h
    exact .delete at_
  · rename_i w flush at_
    split at h
    · cases h
    · rename_i free
      cases h
      exact .enter at_ (by simpa using free)
  · rename_i p at_
    split at h
    · rename_i done
      cases h
      exact .leave at_ done
    · rename_i s rest next
      cases h
      exact visit_cases at_ next
  · rename_i p s b newTail at_
    split at h
    · cases h
    · rename_i r ring
      cases h
      exact copy_cases at_ ring
  · rename_i p s b newTail at_
    split at h
    · rename_i r next slot
      cases h
      exact .move at_ slot
    · cases h
  · rename_i p s b newTail at_
    split at h
    · rename_i r next slot
      cases h
      exact .write at_ slot
    · cases h
  · rename_i rows at_
    cases h
    exact .sync at_
  · rename_i call at_
    cases h
    exact .readEntries at_
  · rename_i call at_
    cases h
    exact .report at_

/-! ## What a step can do to the sensor map -/

/-- The ring of a registered sensor after an append or an advance of its tail. -/
structure Grown (r r' : SensorRing F) : Prop where
  shape : r'.shape = r.shape
  head : r.head ≤ r'.head
  events : r.overwriteEvents ≤ r'.overwriteEvents
  entries : r.overwrittenEntries ≤ r'.overwrittenEntries

theorem Grown.refl (r : SensorRing F) : Grown r r :=
  ⟨rfl, Nat.le_refl _, Nat.le_refl _, Nat.le_refl _⟩

theorem Grown.trans {r r' r'' : SensorRing F} (h : Grown r r') (h' : Grown r' r'') :
    Grown r r'' :=
  ⟨h'.shape.trans h.shape, Nat.le_trans h.head h'.head, Nat.le_trans h.events h'.events,
    Nat.le_trans h.entries h'.entries⟩

/-- The counters and numbers that only `attach` and `erase` change. -/
structure SameCounts (c c' : Threads F) : Prop where
  drops : c'.drops = c.drops
  events : c'.engine.droppedOverwriteEvents = c.engine.droppedOverwriteEvents
  entries : c'.engine.droppedOverwrittenEntries = c.engine.droppedOverwrittenEntries

inductive MapStep (c c' : Threads F) : Prop
  | same (sensors : c'.engine.sensors = c.engine.sensors) (attached : c'.attached = c.attached)
    (counts : SameCounts c c')
  | update {s r r' next next'} (slot : c.engine.sensors.lookup s = some ⟨some r, next⟩)
    (sensors : c'.engine.sensors = c.engine.sensors.insert s ⟨some r', next'⟩)
    (grown : Grown r r') (attached : c'.attached = c.attached) (counts : SameCounts c c')
  | attach {s mem next}
    (slot : c.engine.sensors.lookup s = some ⟨none, next⟩ ∨
      c.engine.sensors.lookup s = none ∧
        (0 < c.engine.cfg.maxSensors.toNat →
          c.engine.sensors.keys.length < c.engine.cfg.maxSensors.toNat))
    (sensors : c'.engine.sensors =
      c.engine.sensors.insert s ⟨some (.new c.engine.cfg.shape mem), next⟩)
    (attached : c'.attached = Function.update c.attached s (c.attached s + 1))
    (counts : SameCounts c c')
  | erase {s slot} (found : c.engine.sensors.lookup s = some slot)
    (sensors : c'.engine.sensors = c.engine.sensors.erase s) (attached : c'.attached = c.attached)
    (drops : c'.drops = Function.update c.drops s (c.drops s + 1))
    (events : c'.engine.droppedOverwriteEvents =
      c.engine.droppedOverwriteEvents + Engine.lostEvents slot)
    (entries : c'.engine.droppedOverwrittenEntries =
      c.engine.droppedOverwrittenEntries + Engine.lostEntries slot)

theorem grown_ingest [FloatArith F] (r : SensorRing F) (ts : Int64) (vec : Nat → F) (dim : Nat)
    (payload : Option (Nat → UInt8)) : Grown r (r.ingest ts vec dim payload) := by
  have grown (vec : Nat → Elem F) (norm scale : F) :
      Grown r (r.append ts vec norm payload scale) := by
    refine ⟨rfl, Nat.le_succ _, ?_, ?_⟩
    · simp only [SensorRing.append]
      split <;> omega
    · simp only [SensorRing.append]
      split <;> omega
  simp only [SensorRing.ingest]
  split
  · exact grown _ _ _
  · exact grown _ _ _

theorem lookup_of_deref {p : RingPtr} {r : SensorRing F} (h : c.deref p = some r) :
    ∃ next, c.engine.sensors.lookup p.sensor = some ⟨some r, next⟩ := by
  unfold deref at h
  split at h
  · obtain ⟨slot, found, ring⟩ := Option.bind_eq_some_iff.mp h
    obtain ⟨_, next⟩ := slot
    cases ring
    exact ⟨next, found⟩
  · cases h

theorem store_frame [FloatArith F] (c : Threads F) (s : SensorId) (r : SensorRing F)
    (row : Engine.BatchRow F) :
    (c.store s r row).engine = { c.engine with sensors := (c.store s r row).engine.sensors } :=
  Engine.setRing_frame _ _ _

theorem store_engine [FloatArith F] {s : SensorId} {r : SensorRing F} {next : Nat}
    (found : c.engine.sensors.lookup s = some ⟨some r, next⟩) (row : Engine.BatchRow F) :
    (c.store s r row).engine =
      c.engine.setSlot s ⟨some (r.ingest row.ts row.vec c.engine.cfg.dim.toNat row.payload), next⟩ :=
  Engine.setRing_eq found

theorem Step.map [FloatArith F] (h : Step c t env op c') : MapStep c c' := by
  cases h with
  | erase _ _ _ found => exact .erase found rfl rfl rfl rfl rfl
  | attach _ _ slot => exact .attach (slot.imp id fun h => ⟨h.1, h.2.2⟩) rfl rfl ⟨rfl, rfl, rfl⟩
  | @store p row rows count r _ live =>
    obtain ⟨next, found⟩ := lookup_of_deref live
    have sensors := congrArg Engine.sensors (store_engine found row)
    have frame := c.store_frame p.sensor r row
    have events := congrArg Engine.droppedOverwriteEvents frame
    have entries := congrArg Engine.droppedOverwrittenEntries frame
    exact .update found sensors (grown_ingest _ _ _ _ _) rfl ⟨rfl, events, entries⟩
  | move _ slot =>
    exact .update slot rfl ⟨rfl, Nat.le_refl _, Nat.le_refl _, Nat.le_refl _⟩ rfl ⟨rfl, rfl, rfl⟩
  | write _ slot => exact .update slot rfl (.refl _) rfl ⟨rfl, rfl, rfl⟩
  | _ => exact .same rfl rfl ⟨rfl, rfl, rfl⟩

/-! ## The pass lock -/

/-- Whoever is in a pass holds `eviction_pass_mu_`. -/
def Locked (c : Threads F) : Prop := ∀ u, (c.pc u).inPass → c.passOwner = some u

theorem start_locked (e : Engine F) : (start e).Locked := fun _ h => h.elim

theorem Locked.goto {p : Pc F} (h : c.Locked) (hp : p.inPass → c.passOwner = some t) :
    (c.goto t p).Locked :=
  Function.forall_update_iff c.pc (p := fun u p => p.inPass → c.passOwner = some u) |>.mpr
    ⟨hp, fun u _ => h u⟩

theorem Locked.alone {u : Nat} (h : c.Locked) (free : c.passOwner = none) : ¬ (c.pc u).inPass := by
  intro inside
  have owner := h u inside
  rw [free] at owner
  cases owner

theorem Step.locked [FloatArith F] (h : Step c t env op c') (locked : c.Locked) : c'.Locked := by
  have mine {p : Pc F} (at_ : c.pc t = p) (inside : p.inPass) : c.passOwner = some t :=
    locked t (at_ ▸ inside)
  cases h with
  | refused => exact locked
  | enter at_ free =>
    refine Locked.goto (c := { c with passOwner := some t }) ?_ fun _ => rfl
    intro u inside
    exact (locked.alone free inside).elim
  | @leave p at_ _ =>
    have free : ∀ u, u ≠ t → ¬ (c.pc u).inPass := by
      intro u other inside
      have owner := mine at_ trivial
      rw [locked u inside, Option.some.injEq] at owner
      exact other owner
    apply (Function.forall_update_iff c.pc (p := fun u p => p.inPass → none = some u)).mpr
    constructor
    · cases p.flush <;> exact False.elim
    · intro u other inside
      exact (free u other inside).elim
  | skip at_ => exact locked.goto fun _ => mine at_ trivial
  | snap at_ => exact locked.goto fun _ => mine at_ trivial
  | copyFailed at_ => exact Locked.goto (c := c.setEngine _) locked fun _ => mine at_ trivial
  | copy at_ => exact Locked.goto (c := c.setEngine _) locked fun _ => mine at_ trivial
  | move at_ => exact Locked.goto (c := c.setEngine _) locked fun _ => mine at_ trivial
  | write at_ => exact Locked.goto (c := c.setEngine _) locked fun _ => mine at_ trivial
  | _ => exact Locked.goto (c := { c with engine := _ }) locked False.elim

/-! ## Other threads -/

variable [FloatArith F]

theorem Step.pc_of_ne (h : Step c t env op c') {u : Nat} (other : u ≠ t) : c'.pc u = c.pc u := by
  cases h with
  | refused => rfl
  | _ => exact Function.update_of_ne other _ _

/-- All threads from the `n`-th on are idle. -/
def Few (n : Nat) (c : Threads F) : Prop := ∀ u, n ≤ u → c.pc u = .idle

/-- A condition on the steps of the first `n` threads, evaluated. -/
theorem along_of_few {n : Nat} {P : Threads F → Turn F → Prop} {p : Threads F → Turn F → Bool}
    {xs : List (Turn F)} (sound : ∀ c x, c.Few n → p c x = true → P c x) (few : c.Few n)
    (h : Runs.check (fun c x => c.step x.thread x.env x.op)
      (fun c x => decide (x.thread < n) && p c x) c xs = true) : c.Along P xs := by
  refine Runs.along_of_check (I := Few n) ?_ ?_ few h
  · intro c₁ x c₂ few checked stepped u outside
    have inside := of_decide_eq_true (Bool.and_eq_true_iff.mp checked).1
    rw [(step_cases stepped).pc_of_ne (by omega)]
    exact few u outside
  · intro c₁ x few checked
    exact sound c₁ x few (Bool.and_eq_true_iff.mp checked).2

end

end Threads

end ChronosVector
