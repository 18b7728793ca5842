import ChronosVector.Exact
import ChronosVector.ThreadSteps

/-!
# The producer guard

`SensorRing::DebugCheckSpsc`, the assertion of debug builds that one thread does
all the appends to a ring. A ring remembers who made its first one.

* `Guarded`: the threads and what every ring has latched;
* `Guarded.start`: an engine as its factory leaves it, recovery's appends made by
  the thread that called it;
* `Respects`: each sensor's producer makes all its ingest calls;
* `run_threads`, `Held.run_follows`: the guard only ever stops a run;
* `guard_silent_iff`: when no run that respects this fires the assertion.
-/

namespace ChronosVector

variable {F : Type}

/-- `std::hash` of the thread's id with the lowest bit set: zero is no producer. -/
def currentThreadIdHash (hash : Nat → UInt64) (t : Nat) : UInt64 := hash t ||| 1

/-- The compare-exchange and the assertion, for a thread with the hash `tid`: what
`producer_tid_hash_` is afterwards, nothing when the assertion fails. -/
def debugCheckSpsc (tid producerTidHash : UInt64) : Option UInt64 :=
  if producerTidHash = 0 then some tid
  else if producerTidHash = tid then some producerTidHash
  else none

/-- The checks of `n` appends by one thread. -/
def debugChecks (tid : UInt64) : Nat → UInt64 → Option UInt64
  | 0, producerTidHash => some producerTidHash
  | n + 1, producerTidHash => (debugCheckSpsc tid producerTidHash).bind (debugChecks tid n)

/-- The ring that the next step of a thread appends to. -/
def Pc.appending : Pc F → Option RingPtr
  | .storing p (_ :: _) _ => some p
  | _ => none

/-- The sensor that an ingest call is about. -/
def Pc.ingesting : Pc F → Option SensorId
  | .looking s _ | .inserting s _ => some s
  | .storing p _ _ => some p.sensor
  | _ => none

/-- The threads on a debug build. -/
structure Guarded (F : Type) where
  threads : Threads F
  producerTidHash : RingPtr → UInt64

namespace Guarded

variable [FloatArith F] (hash : Nat → UInt64)

/-- Every append of recovery ran the check in the thread `opener`, and the ring's
head counts them. -/
def start (opener : Nat) (e : Engine F) : Guarded F where
  threads := .start e
  producerTidHash p :=
    match e.ring p.sensor with
    | none => 0
    | some r =>
      if p = ⟨p.sensor, 0, 0⟩ then
        (debugChecks (currentThreadIdHash hash opener) r.head 0).getD 0
      else 0

/-- A step of one thread. The check comes first in `Append`, and nothing follows
it when it fails. -/
def step (g : Guarded F) (x : Threads.Turn F) : Option (Guarded F) :=
  match (g.threads.pc x.thread).appending with
  | none => (g.threads.step x.thread x.env x.op).map fun c => { g with threads := c }
  | some p =>
    (debugCheckSpsc (currentThreadIdHash hash x.thread) (g.producerTidHash p)).bind fun claimed =>
      (g.threads.step x.thread x.env x.op).map fun c =>
        ⟨c, Function.update g.producerTidHash p claimed⟩

/-- The assertion fails at the next step of `t`. -/
def Fires (g : Guarded F) (t : Nat) : Prop :=
  ∃ p, (g.threads.pc t).appending = some p ∧
    debugCheckSpsc (currentThreadIdHash hash t) (g.producerTidHash p) = none

/-- The contract of the header: the ingest calls for `s` come from `producer s`. -/
def Respects (producer : SensorId → Nat) (g : Guarded F) (x : Threads.Turn F) : Prop :=
  g.threads.pc x.thread = .idle → ∀ s rows, x.op = .ingest s rows → x.thread = producer s

/-- In no run that respects the contract does the assertion fail. -/
def Silent (producer : SensorId → Nat) (g : Guarded F) : Prop :=
  ∀ xs g', Runs.Along (step hash) (Respects producer) g xs → Runs.run (step hash) g xs = some g' →
    ∀ t, ¬ g'.Fires hash t

end Guarded

/-! ## The check -/

section
variable {tid claimed claimed' : UInt64}

theorem currentThreadIdHash_ne_zero (hash : Nat → UInt64) (t : Nat) :
    currentThreadIdHash hash t ≠ 0 := by
  intro zero
  have bit := congrArg (fun x : UInt64 => x.toBitVec.getLsbD 0) zero
  simp [currentThreadIdHash] at bit

/-- What a passed check leaves is the caller's hash. -/
theorem debugCheckSpsc_some (h : debugCheckSpsc tid claimed = some claimed') : claimed' = tid := by
  unfold debugCheckSpsc at h
  split at h
  · exact (Option.some.inj h).symm
  · split at h
    · rename_i same
      exact (Option.some.inj h).symm.trans same
    · cases h

theorem debugCheckSpsc_none (h : debugCheckSpsc tid claimed = none) : claimed ≠ 0 ∧ claimed ≠ tid := by
  unfold debugCheckSpsc at h
  split at h
  · cases h
  · split at h
    · cases h
    · exact ⟨‹_›, ‹_›⟩

theorem debugCheckSpsc_self (tid : UInt64) : debugCheckSpsc tid tid = some tid := by
  unfold debugCheckSpsc
  split
  · rfl
  · rw [if_pos rfl]

/-- The appends of recovery pass and leave the hash of their thread. -/
theorem debugChecks_self (tid : UInt64) (n : Nat) : debugChecks tid n tid = some tid := by
  induction n with
  | zero => rfl
  | succ n ih => rw [debugChecks, debugCheckSpsc_self, Option.bind_some, ih]

theorem debugChecks_fresh (tid : UInt64) (n : Nat) :
    debugChecks tid n 0 = some (if n = 0 then 0 else tid) := by
  cases n with
  | zero => rfl
  | succ n =>
    rw [debugChecks, debugCheckSpsc, if_pos rfl, Option.bind_some, debugChecks_self,
      if_neg n.succ_ne_zero]

end

/-! ## The factories -/

/-- What `chronosv_create` or `chronosv_open` returns. -/
inductive Engine.FromFactory [FloatArith F] : Engine F → Prop
  | created {env : Env F} {cfg : Config} {path : Option (ColdTier F)} {e : Engine F}
      (h : create env cfg path = .ok e) : FromFactory e
  | opened {env : Env F} {path : Option (ColdTier F)} {e : Engine F}
      (h : openPath env path = .ok e) : FromFactory e

theorem Engine.FromFactory.not_closed [FloatArith F] {e : Engine F} (h : FromFactory e) :
    e.closed = false := by
  cases h with
  | @created _ _ path _ h =>
    cases path with
    | none =>
      obtain ⟨cfg, uuid, rfl⟩ := create_null h
      rfl
    | some db => exact (create_spec h).closed
  | @opened _ path _ h =>
    cases path with
    | none => cases h
    | some db => exact (openPath_spec h).closed

/-! ## The threads that ingest -/

namespace Threads

variable [FloatArith F] {c c' : Threads F} {t : Nat} {env : Env F} {op : ThreadOp F}

/-- A thread comes to ingest for a sensor by beginning such a call. -/
theorem Step.ingesting (h : Step c t env op c') {s : SensorId}
    (now : (c'.pc t).ingesting = some s) :
    (c.pc t).ingesting = some s ∨ c.pc t = .idle ∧ ∃ rows, op = .ingest s rows := by
  cases h with
  | refused => exact .inl now
  | ingest at_ call =>
    rw [pc_goto_self, Pc.ingesting, Option.some.injEq] at now
    exact .inr ⟨at_, _, now ▸ call⟩
  | found at_ =>
    rw [pc_goto_self] at now
    obtain at_ | at_ := at_
    · exact .inl (at_ ▸ now)
    · exact .inl (at_ ▸ now)
  | missed at_ =>
    rw [pc_goto_self] at now
    exact .inl (at_ ▸ now)
  | attach at_ =>
    rw [pc_goto_self] at now
    exact .inl (at_ ▸ now)
  | stale at_ =>
    rw [pc_goto_self] at now
    exact .inl (at_ ▸ now)
  | store at_ =>
    rw [pc_goto_self] at now
    exact .inl (at_ ▸ now)
  | @leave p =>
    rw [pc_goto_self] at now
    cases flush : p.flush with
    | none =>
      rw [flush] at now
      cases now
    | some rows =>
      rw [flush] at now
      cases now
  | _ =>
    rw [pc_goto_self] at now
    cases now

end Threads

theorem Pc.ingesting_of_appending {pc : Pc F} {p : RingPtr} (h : pc.appending = some p) :
    pc.ingesting = some p.sensor := by
  unfold appending at h
  split at h
  · cases h
    rfl
  · cases h

/-! ## Runs that respect the contract -/

namespace Guarded

variable {hash : Nat → UInt64} {producer : SensorId → Nat} {g g' : Guarded F} {opener : Nat}
  {e : Engine F}

/-- Only the producer ingests, and a ring has latched nobody else. -/
structure Held (hash : Nat → UInt64) (producer : SensorId → Nat) (g : Guarded F) : Prop where
  owner : ∀ u s, (g.threads.pc u).ingesting = some s → u = producer s
  latched : ∀ p, g.producerTidHash p = 0 ∨
    g.producerTidHash p = currentThreadIdHash hash (producer p.sensor)

theorem Held.quiet (held : g.Held hash producer) (t : Nat) : ¬ g.Fires hash t := by
  rintro ⟨p, appending, failed⟩
  obtain ⟨claimed, other⟩ := debugCheckSpsc_none failed
  have own := held.owner t _ (Pc.ingesting_of_appending appending)
  rw [own] at other
  exact (held.latched p).elim claimed other

theorem start_latched {s : SensorId} {r : SensorRing F} (ring : e.ring s = some r) :
    (start hash opener e).producerTidHash ⟨s, 0, 0⟩ =
      if r.head = 0 then 0 else currentThreadIdHash hash opener := by
  simp only [start, ring, if_true, debugChecks_fresh, Option.getD_some]

theorem start_held (same : ∀ s r, e.ring s = some r → 0 < r.head →
      currentThreadIdHash hash opener = currentThreadIdHash hash (producer s)) :
    (start hash opener e).Held hash producer := by
  constructor
  · intro u s ingesting
    cases ingesting
  · intro p
    cases ring : e.ring p.sensor with
    | none => exact .inl (by simp only [start, ring])
    | some r =>
      by_cases first : p = ⟨p.sensor, 0, 0⟩
      · rw [first, start_latched ring]
        by_cases empty : r.head = 0
        · exact .inl (if_pos empty)
        · rw [if_neg empty]
          exact .inr (same p.sensor r ring (Nat.pos_of_ne_zero empty))
      · exact .inl (by simp only [start, ring, if_neg first])

variable [FloatArith F] {x : Threads.Turn F}

/-- What a step does: the step of its thread, and the latch of the ring it appends to. -/
theorem step_cases (h : g.step hash x = some g') :
    g.threads.step x.thread x.env x.op = some g'.threads ∧
      ∀ p, g'.producerTidHash p = g.producerTidHash p ∨
        (g.threads.pc x.thread).appending = some p ∧
          g'.producerTidHash p = currentThreadIdHash hash x.thread := by
  unfold step at h
  split at h
  · obtain ⟨c, stepped, rfl⟩ := Option.map_eq_some_iff.mp h
    exact ⟨stepped, fun p => .inl rfl⟩
  · rename_i p appending
    obtain ⟨claimed, checked, next⟩ := Option.bind_eq_some_iff.mp h
    obtain ⟨c, stepped, rfl⟩ := Option.map_eq_some_iff.mp next
    refine ⟨stepped, fun p' => ?_⟩
    by_cases same : p' = p
    · subst same
      exact .inr ⟨appending, (Function.update_self _ _ _).trans (debugCheckSpsc_some checked)⟩
    · exact .inl (Function.update_of_ne same _ _)

/-- Away from the appends there is no check. -/
theorem step_unchecked (still : (g.threads.pc x.thread).appending = none) {c : Threads F}
    (stepped : g.threads.step x.thread x.env x.op = some c) :
    g.step hash x = some { g with threads := c } := by
  simp only [step, still, stepped, Option.map_some]

theorem Held.step (held : g.Held hash producer) (respects : Respects producer g x)
    (h : g.step hash x = some g') : g'.Held hash producer := by
  obtain ⟨stepped, latches⟩ := step_cases h
  have moved := Threads.step_cases stepped
  constructor
  · intro u s ingesting
    by_cases mine : u = x.thread
    · subst mine
      obtain before | ⟨idle, rows, call⟩ := moved.ingesting ingesting
      · exact held.owner _ s before
      · exact respects idle s rows call
    · rw [moved.pc_of_ne mine] at ingesting
      exact held.owner u s ingesting
  · intro p
    obtain same | ⟨appending, own⟩ := latches p
    · rw [same]
      exact held.latched p
    · rw [own, held.owner _ _ (Pc.ingesting_of_appending appending)]
      exact .inr rfl

/-- **Runs.** From a start where recovery latched only producers, none fires. -/
theorem Held.silent (held : g.Held hash producer) : g.Silent hash producer := by
  intro xs g' respects reached t
  exact (Runs.run_invariant (fun _ _ _ held respects stepped => Held.step held respects stepped)
    held respects reached).quiet t

/-! ## A debug build does what a release build does -/

/-- The guard adds no behaviour. -/
theorem run_threads {xs : List (Threads.Turn F)} (h : Runs.run (step hash) g xs = some g') :
    g.threads.run xs = some g'.threads := by
  induction xs generalizing g with
  | nil =>
    cases h
    rfl
  | cons x rest ih =>
    obtain ⟨next, stepped, reached⟩ := Runs.run_cons.mp h
    exact Runs.run_cons.mpr ⟨next.threads, (step_cases stepped).1, ih reached⟩

/-- It takes none away from a step that passes. -/
theorem Held.follows (held : g.Held hash producer) {c : Threads F}
    (stepped : g.threads.step x.thread x.env x.op = some c) :
    ∃ g', g.step hash x = some g' ∧ g'.threads = c := by
  cases appending : (g.threads.pc x.thread).appending with
  | none => exact ⟨{ g with threads := c }, step_unchecked appending stepped, rfl⟩
  | some p =>
    cases checked : debugCheckSpsc (currentThreadIdHash hash x.thread) (g.producerTidHash p) with
    | none => exact absurd ⟨p, appending, checked⟩ (held.quiet x.thread)
    | some claimed =>
      refine ⟨⟨c, Function.update g.producerTidHash p claimed⟩, ?_, rfl⟩
      simp only [Guarded.step, appending, checked, stepped, Option.bind_some, Option.map_some]

/-- **Debug and release builds.** In runs that respect the contract the guard goes
unnoticed. -/
theorem Held.run_follows (held : g.Held hash producer) {xs : List (Threads.Turn F)} {c : Threads F}
    (respects : Runs.Along (Guarded.step hash) (Respects producer) g xs)
    (reached : g.threads.run xs = some c) :
    ∃ g', Runs.run (Guarded.step hash) g xs = some g' ∧ g'.threads = c := by
  induction xs generalizing g with
  | nil =>
    cases reached
    exact ⟨g, rfl, rfl⟩
  | cons x rest ih =>
    obtain ⟨next, stepped, tail⟩ := Runs.run_cons.mp reached
    obtain ⟨g₁, guarded, rfl⟩ := held.follows stepped
    obtain ⟨g', run, same⟩ := ih (held.step respects.1 guarded) (respects.2 g₁ guarded) tail
    exact ⟨g', Runs.run_cons.mpr ⟨g₁, guarded, run⟩, same⟩

/-! ## A recovered ring -/

/-- Two steps take a producer to its first append to a recovered ring, which still
has the latch that recovery left. -/
theorem producer_arrives {s : SensorId} {r : SensorRing F} (opened : e.closed = false)
    (ring : e.ring s = some r) (t : Nat) :
    ∃ (call : Threads.Turn F) (rows : List (Engine.BatchRow F)) (g' : Guarded F),
      call.thread = t ∧ call.op = .ingest s rows ∧
      Runs.run (step hash) (start hash opener e) [call, call] = some g' ∧
      (g'.threads.pc t).appending = some ⟨s, 0, 0⟩ ∧
      g'.producerTidHash = (start hash opener e).producerTidHash := by
  let row : Engine.BatchRow F := ⟨0, fun _ => 0, none⟩
  let call : Threads.Turn F := ⟨t, .calm F 0, .ingest s [row]⟩
  let c₁ := (Threads.start e).goto t (.looking s [row])
  let c₂ := c₁.goto t (.storing ⟨s, 0, 0⟩ [row] 1)
  let latches := (start hash opener e).producerTidHash
  have looking : c₁.pc t = .looking s [row] := Threads.pc_goto_self _ _ _
  have begun : (Threads.start e).step t call.env call.op = some c₁ := by
    simp only [Threads.step, Threads.begin, Threads.start, opened, call]
    rfl
  have found : c₁.step t call.env call.op = some c₂ := by
    have live : c₁.engine.ring s = some r := ring
    simp only [Threads.step, looking, live]
    rfl
  have first : (start hash opener e).step hash call = some ⟨c₁, latches⟩ :=
    step_unchecked rfl begun
  have second : Guarded.step hash ⟨c₁, latches⟩ call = some ⟨c₂, latches⟩ :=
    step_unchecked (congrArg Pc.appending looking) found
  exact ⟨call, [row], ⟨c₂, latches⟩, rfl, rfl,
    Runs.run_cons.mpr ⟨_, first, Runs.run_cons.mpr ⟨_, second, rfl⟩⟩,
    congrArg Pc.appending (Threads.pc_goto_self _ _ _), rfl⟩

/-- The producer's first append meets the latch of the thread that recovered. -/
theorem first_append_fires {s : SensorId} {r : SensorRing F} (opened : e.closed = false)
    (ring : e.ring s = some r) (filled : 0 < r.head)
    (other : currentThreadIdHash hash opener ≠ currentThreadIdHash hash (producer s)) :
    ¬ (start hash opener e).Silent hash producer := by
  intro silent
  obtain ⟨call, rows, g', thread, op, reached, appending, latches⟩ :=
    producer_arrives opened ring (producer s)
  have mine (g : Guarded F) : Respects producer g call := by
    intro _ s' rows' op'
    rw [op] at op'
    cases op'
    exact thread
  have latched : g'.producerTidHash ⟨s, 0, 0⟩ = currentThreadIdHash hash opener := by
    rw [latches, start_latched ring, if_neg (Nat.ne_of_gt filled)]
  have fails : debugCheckSpsc (currentThreadIdHash hash (producer s))
      (g'.producerTidHash ⟨s, 0, 0⟩) = none := by
    rw [latched, debugCheckSpsc, if_neg (currentThreadIdHash_ne_zero hash opener), if_neg other]
  exact silent [call, call] g' ⟨mine _, fun _ _ => ⟨mine _, fun _ _ => trivial⟩⟩ reached (producer s)
    ⟨⟨s, 0, 0⟩, appending, fails⟩

/-- **When the guard is silent.** Whatever the threads of the producers, exactly
when each sensor that recovery filled a ring for is fed by the thread that called the
factory, or by one with the same hash. -/
theorem guard_silent_iff (factory : Engine.FromFactory e) (hash : Nat → UInt64) (opener : Nat)
    (producer : SensorId → Nat) :
    (start hash opener e).Silent hash producer ↔
      ∀ s r, e.ring s = some r → 0 < r.head →
        currentThreadIdHash hash opener = currentThreadIdHash hash (producer s) := by
  constructor
  · intro silent s r ring filled
    by_contra other
    exact first_append_fires factory.not_closed ring filled other silent
  · intro same
    exact (start_held same).silent

/-! ## A sensor that was recovered -/

/-- The directory after a first session: one row appended and flushed. -/
def flushedDisk : ColdTier ℚ :=
  (World.run ((.calm ℚ 0, .create smallConfig) ::
    calmly 0 [appendSmall 1 1, .call .flush, .destroy]) World.fresh).disk

theorem flushedDisk_recovers :
    ∃ e r, Engine.openPath (.calm ℚ 1) (some flushedDisk) = .ok e ∧
      e.ring sensorA = some r ∧ 0 < r.head := by
  have filled : (match Engine.openPath (.calm ℚ 1) (some flushedDisk) with
      | .ok e => (e.ring sensorA).any fun r => decide (0 < r.head)
      | .error _ => false) = true := by decide +kernel
  split at filled
  · rename_i e opened
    cases ring : e.ring sensorA with
    | none =>
      rw [ring] at filled
      cases filled
    | some r =>
      rw [ring] at filled
      exact ⟨e, r, opened, ring, of_decide_eq_true filled⟩
  · cases filled

/-- The thread that opens the directory goes on feeding the sensor. -/
theorem same_thread_silent :
    ∃ e r, Engine.openPath (.calm ℚ 1) (some flushedDisk) = .ok e ∧ e.ring sensorA = some r ∧
      0 < r.head ∧ (start .ofNat 1 e).Silent .ofNat fun _ => 1 := by
  obtain ⟨e, r, opened, ring, filled⟩ := flushedDisk_recovers
  exact ⟨e, r, opened, ring, filled,
    (guard_silent_iff (.opened opened) .ofNat 1 fun _ => 1).mpr fun _ _ _ _ => rfl⟩

/-- Thread 2 opens it and thread 1 feeds the sensor, as it did before. -/
theorem recovered_ring_fires :
    ¬ ∀ (e : Engine ℚ) (hash : Nat → UInt64) (opener : Nat) (producer : SensorId → Nat),
      Engine.FromFactory e → (start hash opener e).Silent hash producer := by
  intro h
  obtain ⟨e, r, opened, ring, filled⟩ := flushedDisk_recovers
  exact first_append_fires (Engine.FromFactory.opened opened).not_closed ring filled (by decide)
    (h e .ofNat 2 (fun _ => 1) (.opened opened))

end Guarded

end ChronosVector
