import Mathlib.Algebra.GroupWithZero.Nat
import ChronosVector.Exact
import ChronosVector.Lib.DeltaReports
import ChronosVector.Lib.Runs

/-!
# Reported overwrites

The two ingest paths of an engine whose sink has `on_overwrite`. `Append` reports
how far its ring's overwrite counter is past the last value its thread saw, in
whichever ring of whichever engine; `AppendBatch` reports nothing.

* `Reporting.step`: one ingest call, by the sensor's producer thread, or an append
  of a thread to another engine;
* `Reporting.meter`: the counters, the threads and the reports as a meter;
* `reports_add_up`: the reports add up after every step of a run exactly when no
  batch overwrites an entry, no thread's appends overwrite entries of two sensors
  and no thread has met a higher counter in another engine.
-/

namespace ChronosVector

open DeltaReports

variable {F : Type}

/-- The ingest calls. -/
inductive Ingest (F : Type)
  | append (id : CString) (ts : Int64) (vec : Option (Nat → F)) (dim : Nat)
      (payload : Option (Nat → UInt8))
  | appendBatch (id : CString) (ts : Option (Nat → Int64)) (vecs : Option (Nat → F))
      (count dim : Nat) (payloads : Option (Nat → UInt8))

namespace Ingest

def call : Ingest F → Call F
  | .append id ts vec dim payload => .append id ts vec dim payload
  | .appendBatch id ts vecs count dim payloads => .appendBatch id ts vecs count dim payloads

def id : Ingest F → CString
  | .append id .. => id
  | .appendBatch id .. => id

def IsBatch : Ingest F → Prop
  | .append .. => False
  | .appendBatch .. => True

end Ingest

/-- `overwritten_entries()` of a sensor's ring. -/
def Engine.overwritten (e : Engine F) (s : SensorId) : Nat :=
  match e.ring s with
  | none => 0
  | some r => r.overwrittenEntries

/-! ## The callback -/

/-- An engine with its producer threads: `last_overwrites_seen` of each, which a
thread keeps for its lifetime, and what `on_overwrite` was called with. The highest
counter a thread met in a ring of another engine is no variable of the program. -/
structure Reporting (F : Type) where
  engine : Engine F
  lastOverwritesSeen : Nat → Nat
  elsewhere : Nat → Nat
  reports : List (SensorId × Nat)

/-- A step of a run: an ingest call on the engine, or an `Append` of thread `t` to a
ring of another engine, which it leaves at the counter `cur`. -/
inductive Activity (F : Type)
  | ingest (env : Env F) (c : Ingest F)
  | elsewhere (t cur : Nat)

namespace Reporting

/-- Before the first call on the engine. The threads bring along what they saw in
the rings of earlier engines. -/
def start (e : Engine F) (last : Nat → Nat) : Reporting F := ⟨e, last, last, []⟩

/-- The entries reported as lost for a sensor. -/
def reported (x : Reporting F) (s : SensorId) : Nat :=
  ((x.reports.filter fun p => p.1 = s).map Prod.snd).sum

/-- The reports add up to the counters of the rings. -/
def AddsUp (x : Reporting F) : Prop := ∀ s, x.reported s = x.engine.overwritten s

/-- The end of `Append`: thread `t` looks at the counter of the ring it wrote. -/
def snapshotDelta (x : Reporting F) (t : Nat) (s : SensorId) : Reporting F :=
  let cur := x.engine.overwritten s
  let last := x.lastOverwritesSeen t
  if last < cur then
    { x with
      lastOverwritesSeen := Function.update x.lastOverwritesSeen t cur
      reports := x.reports ++ [(s, cur - last)] }
  else x

/-- `Append` on another engine reports to that engine's sink. -/
def appendElsewhere (x : Reporting F) (t cur : Nat) : Reporting F :=
  { x with
    lastOverwritesSeen :=
      Function.update x.lastOverwritesSeen t (max (x.lastOverwritesSeen t) cur)
    elsewhere := Function.update x.elsewhere t (max (x.elsewhere t) cur) }

/-- One ingest call by the producer of its sensor. -/
def ingest [FloatArith F] (producer : SensorId → Nat) (x : Reporting F) (env : Env F)
    (c : Ingest F) : Reporting F :=
  let r := x.engine.call env c.call
  let y := { x with engine := r.2 }
  match c with
  | .appendBatch .. => y
  | .append id .. =>
    if r.1 = .ok then
      match SensorId.parse id with
      | .error _ => y
      | .ok s => y.snapshotDelta (producer s) s
    else y

def step [FloatArith F] (producer : SensorId → Nat) (x : Reporting F) :
    Activity F → Reporting F
  | .ingest env c => x.ingest producer env c
  | .elsewhere t cur => x.appendElsewhere t cur

end Reporting

/-! ## What an ingest call overwrites -/

section
variable [FloatArith F] {e : Engine F} {env : Env F} {s : SensorId}

/-- How many entries fit in a sensor's ring before it overwrites. -/
def Engine.room (e : Engine F) (s : SensorId) : Nat :=
  e.cfg.shape.capacity - (e.tier s).hot.items.length

/-- How many entries of a sensor a call overwrites. -/
def Engine.excess (e : Engine F) (env : Env F) (c : Ingest F) (s : SensorId) : Nat :=
  (e.appended env c.call s).length - e.room s

omit [FloatArith F] in
theorem Engine.overwritten_tier (e : Engine F) (s : SensorId) :
    (e.tier s).hot.dropped = e.overwritten s := by
  unfold tier overwritten
  cases e.ring s <;> rfl

theorem Engine.ingest_tier (ok : e.Ok) (c : Ingest F) :
    (e.call env c.call).2.tier s =
      (e.tier s).pushAll e.cfg.shape.capacity (e.appended env c.call s) := by
  have noPass : e.pass c.call = none := by cases c <;> rfl
  have kept : c.call.drops s = false := by cases c <;> rfl
  have stepped := call_step ok env c.call s
  generalize (e.call env c.call).2.tier s = t at stepped
  cases stepped with
  | append => rfl
  | evict e' w own t' pass => simp [noPass] at pass
  | drop _ drops => simp [kept] at drops

omit [FloatArith F] in
/-- A window is no longer than the ring. -/
theorem Engine.window_fits (ok : e.Ok) (s : SensorId) :
    (e.tier s).hot.items.length ≤ e.cfg.shape.capacity := by
  unfold tier
  cases found : e.ring s with
  | none => exact Nat.zero_le _
  | some r =>
    obtain ⟨shape, inside⟩ := ok s r found
    rw [← shape]
    exact SensorRing.window_length_le inside

/-- **The counter after an ingest call.** -/
theorem Engine.ingest_overwritten (ok : e.Ok) (env : Env F) (c : Ingest F) (s : SensorId) :
    (e.call env c.call).2.overwritten s = e.overwritten s + e.excess env c s := by
  rw [← overwritten_tier, ← overwritten_tier, ingest_tier ok, Tier.pushAll_hot,
    BoundedQueue.pushAll_dropped (window_fits ok s) e.cfg.shape.capacity_pos]
  rfl

/-- A call appends to no other sensor than the one it names. -/
theorem Engine.excess_other {c : Ingest F} (other : c.id ≠ some s.bytes) : e.excess env c s = 0 := by
  have silent : e.appended env c.call s = [] := by
    apply appended_nil
    intro r
    apply landing_none
    intro brings
    cases c with
    | append id ts vec dim payload =>
      cases brings
      exact other rfl
    | appendBatch id ts vecs count dim payloads =>
      cases brings
      exact other rfl
  rw [excess, silent]
  exact Nat.zero_sub _

theorem Engine.excess_failed {c : Ingest F} (failed : (e.call env c.call).1 ≠ .ok) (s : SensorId) :
    e.excess env c s = 0 := by
  rw [excess, appended_failed failed]
  exact Nat.zero_sub _

end

/-! ## The meter -/

namespace Reporting

def meter (x : Reporting F) : Meter SensorId Nat :=
  ⟨x.engine.overwritten, x.lastOverwritesSeen, x.elsewhere, x.reported⟩

theorem addsUp_iff (x : Reporting F) : x.AddsUp ↔ x.meter.Agrees := Iff.rfl

theorem reported_snoc (x : Reporting F) (s : SensorId) (n : Nat) :
    ({ x with reports := x.reports ++ [(s, n)] } : Reporting F).reported =
      Function.update x.reported s (x.reported s + n) := by
  funext s'
  by_cases eq : s' = s
  · subst eq
    simp [reported]
  · simp [reported, Function.update_of_ne eq, Ne.symm eq]

theorem meter_snapshotDelta (x : Reporting F) (producer : SensorId → Nat) (s : SensorId) :
    (x.snapshotDelta (producer s) s).meter = x.meter.observe producer s := by
  unfold snapshotDelta Meter.observe
  dsimp only [meter]
  split
  · rw [← reported_snoc]
    rfl
  · rfl

variable [FloatArith F] {producer : SensorId → Nat} {x : Reporting F} {env : Env F} {c : Ingest F}

/-- A call that overwrites nothing. -/
theorem meter_still (env : Env F) (ok : x.engine.Ok) (still : ∀ s, x.engine.excess env c s = 0) :
    ({ x with engine := (x.engine.call env c.call).2 } : Reporting F).meter = x.meter := by
  simp only [meter, Meter.mk.injEq]
  refine ⟨?_, trivial, trivial, rfl⟩
  funext s
  rw [Engine.ingest_overwritten ok, still s, Nat.add_zero]

/-- A call that overwrites entries of one sensor at most. -/
theorem meter_count (env : Env F) (ok : x.engine.Ok) {s : SensorId}
    (only : ∀ s', s' ≠ s → x.engine.excess env c s' = 0) :
    ({ x with engine := (x.engine.call env c.call).2 } : Reporting F).meter =
      x.meter.count s (x.engine.excess env c s) := by
  simp only [meter, Meter.count, Meter.mk.injEq]
  refine ⟨?_, trivial, trivial, rfl⟩
  funext s'
  rw [Engine.ingest_overwritten ok]
  by_cases eq : s' = s
  · subst eq
    rw [Function.update_self]
  · rw [Function.update_of_ne eq, only s' eq, Nat.add_zero]

/-- What the step is to the meter. -/
def event (x : Reporting F) : Activity F → Event SensorId Nat
  | .elsewhere t cur => .elsewhere t cur
  | .ingest env c =>
    match SensorId.parse c.id with
    | .error _ => .idle
    | .ok s =>
      match c with
      | .appendBatch .. => .unseen s (x.engine.excess env c s)
      | .append .. =>
        if (x.engine.call env c.call).1 = .ok then .observed s (x.engine.excess env c s)
        else .idle

omit [FloatArith F] in
@[simp] theorem snapshotDelta_engine (x : Reporting F) (t : Nat) (s : SensorId) :
    (x.snapshotDelta t s).engine = x.engine := by
  unfold snapshotDelta
  dsimp only
  split <;> rfl

omit [FloatArith F] in
@[simp] theorem snapshotDelta_elsewhere (x : Reporting F) (t : Nat) (s : SensorId) :
    (x.snapshotDelta t s).elsewhere = x.elsewhere := by
  unfold snapshotDelta
  dsimp only
  split <;> rfl

theorem ingest_engine (producer : SensorId → Nat) (x : Reporting F) (env : Env F)
    (c : Ingest F) : (x.ingest producer env c).engine = (x.engine.call env c.call).2 := by
  cases c with
  | appendBatch => rfl
  | append id =>
    simp only [ingest]
    split
    · split
      · rfl
      · rw [snapshotDelta_engine]
    · rfl

theorem ingest_elsewhere (producer : SensorId → Nat) (x : Reporting F) (env : Env F)
    (c : Ingest F) : (x.ingest producer env c).elsewhere = x.elsewhere := by
  cases c with
  | appendBatch => rfl
  | append id =>
    simp only [ingest]
    split
    · split
      · rfl
      · rw [snapshotDelta_elsewhere]
    · rfl

theorem step_ok (ok : x.engine.Ok) (producer : SensorId → Nat) (a : Activity F) :
    (step producer x a).engine.Ok := by
  cases a with
  | elsewhere => exact ok
  | ingest env c =>
    rw [step, ingest_engine]
    exact (Engine.call_frame ok env c.call).ok

/-- An identifier that does not parse names no sensor. -/
theorem unnamed {c : Ingest F} {err : ErrorCode} (h : SensorId.parse c.id = .error err)
    (s : SensorId) (e : Engine F) (env : Env F) : e.excess env c s = 0 := by
  apply Engine.excess_other
  intro names
  rw [names, SensorId.parse_bytes] at h
  cases h

theorem named {c : Ingest F} {s : SensorId} (h : SensorId.parse c.id = .ok s) {s' : SensorId}
    (other : s' ≠ s) (e : Engine F) (env : Env F) : e.excess env c s' = 0 := by
  apply Engine.excess_other
  intro names
  rw [names, SensorId.parse_bytes] at h
  cases h
  exact other rfl

theorem meter_ingest (ok : x.engine.Ok) (producer : SensorId → Nat) (env : Env F)
    (c : Ingest F) :
    (x.ingest producer env c).meter = x.meter.step producer (x.event (.ingest env c)) := by
  cases parsed : SensorId.parse c.id with
  | error err =>
    have still := meter_still env ok fun s => unnamed parsed s x.engine env
    cases c with
    | appendBatch =>
      simp only [event, parsed, Meter.step]
      exact still
    | append id =>
      simp only [event, parsed, Meter.step]
      have parsed : SensorId.parse id = .error err := parsed
      simp only [ingest, parsed]
      split <;> exact still
  | ok s =>
    have count := meter_count env ok fun s' other => named parsed other x.engine env
    cases c with
    | appendBatch =>
      simp only [event, parsed, Meter.step]
      exact count
    | append id =>
      have parsed' : SensorId.parse id = .ok s := parsed
      simp only [event, parsed, ingest, parsed']
      split
      · rw [meter_snapshotDelta]
        exact congrArg (fun m => Meter.observe producer m s) count
      · rename_i failed
        exact meter_still env ok (Engine.excess_failed failed)

/-- **The steps drive the meter.** -/
theorem meter_step (ok : x.engine.Ok) (producer : SensorId → Nat) (a : Activity F) :
    (step producer x a).meter = x.meter.step producer (x.event a) := by
  cases a with
  | ingest env c => exact meter_ingest ok producer env c
  | elsewhere t cur => rfl

/-! ## The condition -/

/-- A batch overwrites nothing, and an append overwrites an entry only as long as
the counters of its thread's other sensors are zero and the thread has met no higher
counter than its ring's in another engine. -/
def Clear (producer : SensorId → Nat) (x : Reporting F) : Activity F → Prop
  | .elsewhere .. => True
  | .ingest env c => ∀ s, x.engine.room s < (x.engine.appended env c.call s).length →
      ¬ c.IsBatch ∧ x.elsewhere (producer s) ≤ x.engine.overwritten s ∧
        ∀ s', s' ≠ s → producer s' = producer s → x.engine.overwritten s' = 0

theorem clear_iff (producer : SensorId → Nat) (x : Reporting F) (a : Activity F) :
    x.meter.Clear producer (x.event a) ↔ Clear producer x a := by
  cases a with
  | elsewhere => exact Iff.rfl
  | ingest env c =>
    have overwrites : ∀ s, x.engine.room s < (x.engine.appended env c.call s).length ↔
        0 < x.engine.excess env c s := fun s => Nat.sub_pos_iff_lt.symm
    simp only [Clear, overwrites]
    cases parsed : SensorId.parse c.id with
    | error err =>
      have still := fun s => unnamed parsed s x.engine env
      simp [event, parsed, Meter.Clear, still]
    | ok s =>
      have only := fun s' (other : s' ≠ s) => named parsed other x.engine env
      cases c with
      | appendBatch =>
        simp only [event, parsed, Meter.Clear, Ingest.IsBatch, not_true_eq_false, false_and, imp_false,
          Nat.not_lt, Nat.le_zero]
        constructor
        · intro none s'
          by_cases eq : s' = s
          · rw [eq, none]
          · exact only s' eq
        · intro none
          exact none s
      | append =>
        simp only [event, parsed]
        split
        · constructor
          · intro clear s' moved
            by_cases eq : s' = s
            · subst eq
              exact ⟨not_false, clear moved⟩
            · rw [only s' eq] at moved
              exact absurd moved (Nat.lt_irrefl 0)
          · intro clear moved
            exact (clear s moved).2
        · rename_i failed
          apply iff_of_true trivial
          intro s' moved
          rw [Engine.excess_failed failed] at moved
          exact absurd moved (Nat.lt_irrefl 0)

/-- **Reported overwrites add up** after every step of a run exactly when all its
calls are clear: no batch overwrites an entry, no thread's appends overwrite entries
of two sensors, and none overwrites an entry with a higher counter seen in another
engine, before the run or in it. -/
theorem reports_add_up {e : Engine F} (reachable : Engine.Reachable e)
    (zero : ∀ s, e.overwritten s = 0) (producer : SensorId → Nat) (last : Nat → Nat)
    (steps : List (Activity F)) :
    Runs.Each (step producer) (fun x a => (step producer x a).AddsUp) (start e last) steps ↔
      Runs.Each (step producer) (Clear producer) (start e last) steps := by
  apply Runs.each_iff (I := fun x : Reporting F => x.engine.Ok ∧ Meter.Inv producer x.meter)
  · rintro x a ⟨ok, inv⟩ - clear
    refine ⟨step_ok ok producer a, ?_⟩
    rw [meter_step ok]
    exact Meter.inv_step inv _ ((clear_iff producer x a).mpr clear)
  · rintro x a ⟨ok, inv⟩ good
    rw [addsUp_iff, meter_step ok, Meter.agrees_iff inv good, clear_iff]
  · exact ⟨Engine.reachable_ok reachable, Meter.inv_start zero rfl⟩
  · intro s
    exact (zero s).symm

/-! ## Sensors that share a thread -/

/-- `n` appends to a sensor of `smallConfig`. -/
def appendsTo (s : SensorId) (n : Nat) : List (Activity ℚ) :=
  List.replicate n (.ingest (.calm ℚ 0) (.append (some s.bytes) 1 (some fun _ => 1) 1 none))

/-- A sensor with a thread of its own laps its ring of 64. -/
theorem own_thread_adds_up :
    Runs.Each (step fun s => if s = sensorA then 0 else 1)
      (fun x a => (step (fun s => if s = sensorA then 0 else 1) x a).AddsUp)
      (start smallEngine fun _ => 0) (appendsTo sensorA 130) := by
  apply (reports_add_up (.created (smallEngine_created 0)) (fun _ => rfl) _ _ _).mpr
  apply Runs.each_of_invariant (I := fun x : Reporting ℚ => x.elsewhere = fun _ => 0) ?_ ?_ rfl
  · intro x a ha fresh
    obtain rfl := List.eq_of_mem_replicate ha
    rw [step, ingest_elsewhere, fresh]
  · intro x a ha fresh
    obtain rfl := List.eq_of_mem_replicate ha
    intro s overwrites
    by_cases eq : s = sensorA
    · subst eq
      refine ⟨not_false, ?_, ?_⟩
      · rw [fresh]
        exact Nat.zero_le _
      · intro s' other same
        simp [other] at same
    · have silent := named (c := .append (some sensorA.bytes) 1 (some fun _ => (1 : ℚ)) 1 none)
        (SensorId.parse_bytes sensorA) eq x.engine (.calm ℚ 0)
      exact absurd (Nat.le_of_sub_eq_zero silent) (Nat.not_le.mpr overwrites)

/-- After one thread lapped two rings, each by one entry. -/
def lappedBoth : Reporting ℚ :=
  (appendsTo sensorA 65 ++ appendsTo sensorB 65).foldl (step fun _ => 0)
    (start smallEngine fun _ => 0)

/-- The second loss is not reported. -/
theorem shared_thread_loses_report :
    ¬ Runs.Each (step fun _ => 0) (fun x a => (step (fun _ => 0) x a).AddsUp)
      (start smallEngine fun _ => 0) (appendsTo sensorA 65 ++ appendsTo sensorB 65) := by
  intro good
  have last : lappedBoth.AddsUp := Runs.Each.foldl (fun _ => rfl) good
  have lost : lappedBoth.engine.overwritten sensorB = 1 := by decide +kernel
  have silent : lappedBoth.reported sensorB = 0 := by decide +kernel
  have same := last sensorB
  rw [lost, silent] at same
  cases same

end Reporting

end ChronosVector
