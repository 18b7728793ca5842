import ChronosVector.SinkEvents
import ChronosVector.Lib.RankedLocks

/-!
# The order of the locks

The locks each function takes, with the callbacks it makes under them. Waiting for
the background thread to end counts as a lock that the thread holds all its life.

* `Visit`: which way a call goes, and `Visit.code`: what it locks on that way;
* `calls_end`: no interleaving of calls and eviction passes is ever stuck, if the
  callbacks under a lock take none;
* `Engine.PassTells`: the callbacks of a pass while other threads go on;
* `reentry_never_returns`: what a callback of a pass must not do.
-/

namespace ChronosVector

open RankedLocks

/-- What a thread waits for. -/
inductive EngineLock
  | evictionThread
  | evictionMu
  | evictionPassMu
  | mapMutex
  deriving DecidableEq

namespace EngineLock

/-- The order in which they are taken. -/
def rank : EngineLock → Nat
  | .evictionThread => 0
  | .evictionMu => 1
  | .evictionPassMu => 2
  | .mapMutex => 3

theorem rank_le (l : EngineLock) : l.rank ≤ 3 := by cases l <;> decide

end EngineLock

open EngineLock

abbrev Locking := Code EngineLock

/-- What the callbacks of a sink lock. A null callback skips. -/
structure SinkLocking where
  onAppend : Locking
  onQuery : Locking
  onAnomalyDetected : Locking
  onOverwrite : Locking
  onEviction : Locking
  onFlushError : Locking
  onWarning : Locking

namespace SinkLocking

def silent : SinkLocking := ⟨.skip, .skip, .skip, .skip, .skip, .skip, .skip⟩

def heard (sink : SinkLocking) : SinkEvent → Locking
  | .eviction .. => sink.onEviction
  | .flushError .. => sink.onFlushError

/-- Callbacks made under a lock take none; the other two run outside of all. -/
structure Harmless (sink : SinkLocking) : Prop where
  onQuery : sink.onQuery.Lockless
  onAnomalyDetected : sink.onAnomalyDetected.Lockless
  onEviction : sink.onEviction.Lockless
  onFlushError : sink.onFlushError.Lockless
  onWarning : sink.onWarning.Lockless
  onAppend : sink.onAppend.Fits rank []
  onOverwrite : sink.onOverwrite.Fits rank []

end SinkLocking

/-- Which way a call goes. `found` is the fast path's lookup. -/
inductive Visit
  | refused
  | preallocateSensor (found : Bool)
  | append (found stored overwrote : Bool)
  | appendBatch (found : Bool)
  | queryNearestN (answered : Bool)
  | queryRange (warned : Bool)
  | detectAnomaly (anomalous : Bool)
  | maintainSlidingWindow (events : List SinkEvent)
  | flush (events : List SinkEvent)
  | dropSensor
  | listSensors
  | getStats
  | close (first : Bool)

section
variable (sink : SinkLocking)

/-- `GetOrCreateRing`. -/
def getOrCreateRingLocks (found : Bool) : Locking :=
  .seq (.scope .mapMutex .shared .skip)
    (if found then .skip else .scope .mapMutex .exclusive .skip)

/-- `EvictOnce`, with the callbacks of the sensors it visits. -/
def evictOnceLocks (events : List SinkEvent) : Locking :=
  .scope .evictionPassMu .exclusive
    (.scope .mapMutex .shared (Code.all (events.map sink.heard)))

def Visit.code : Visit → Locking
  | .refused => .skip
  | .preallocateSensor found => getOrCreateRingLocks found
  | .append found stored overwrote =>
    .seq (getOrCreateRingLocks found)
      (if stored then .seq sink.onAppend (if overwrote then sink.onOverwrite else .skip) else .skip)
  | .appendBatch found => getOrCreateRingLocks found
  | .queryNearestN answered =>
    .scope .mapMutex .shared (if answered then sink.onQuery else .skip)
  | .queryRange warned => .scope .mapMutex .shared (if warned then sink.onWarning else .skip)
  | .detectAnomaly anomalous =>
    .scope .mapMutex .shared (if anomalous then sink.onAnomalyDetected else .skip)
  | .maintainSlidingWindow events => evictOnceLocks sink events
  | .flush events => evictOnceLocks sink events
  | .dropSensor => .scope .mapMutex .exclusive .skip
  | .listSensors => .scope .mapMutex .shared .skip
  | .getStats => .scope .mapMutex .shared .skip
  | .close first =>
    if first then
      .seq (.scope .evictionMu .exclusive .skip) (.scope .evictionThread .exclusive .skip)
    else .skip

/-- The wait of `EvictionLoop`. It gives the mutex up and takes it back each time it
wakes up, for a signal, the end of the interval or nothing. -/
def waitLocks (wakeUps : Nat) : Locking :=
  Code.all (List.replicate (wakeUps + 1) (.scope .evictionMu .exclusive .skip))

/-- `EvictionLoop` over `rounds` passes, each with how often the wait before it wakes
up. It ends at the test of the loop, or after one more wait. -/
def evictionLoopLocks (rounds : List (Nat × List SinkEvent)) (last : Option Nat) : Locking :=
  .seq (Code.all (rounds.map fun x => .seq (waitLocks x.1) (evictOnceLocks sink x.2)))
    (match last with
      | none => .skip
      | some wakeUps => waitLocks wakeUps)

/-- The background thread and the threads of the user, before their first step. -/
def locksAtStart {T : Type} (rounds : List (Nat × List SinkEvent)) (last : Option Nat)
    (calls : T → List Visit) : Option T → Thread EngineLock
  | none =>
    ⟨[(.evictionThread, .exclusive)], (evictionLoopLocks sink rounds last).acts ++ [.release]⟩
  | some t => ⟨[], (Code.all ((calls t).map (Visit.code sink))).acts⟩

end

section
variable {sink : SinkLocking}

theorem evictOnce_fits (h : sink.Harmless) (events : List SinkEvent) {held : List EngineLock}
    (below : ∀ k ∈ held, k.rank < 2) : (evictOnceLocks sink events).Fits rank held := by
  have lockless : (Code.all (events.map sink.heard)).Lockless := by
    apply Code.all_lockless
    intro code mem
    obtain ⟨event, -, rfl⟩ := List.mem_map.mp mem
    cases event
    · exact h.onEviction
    · exact h.onFlushError
  refine ⟨below, ?_, lockless.fits⟩
  intro k mem
  obtain rfl | mem := List.mem_cons.mp mem
  · decide
  · exact Nat.lt_trans (below k mem) (by decide)

theorem getOrCreateRing_fits (found : Bool) : (getOrCreateRingLocks found).Fits rank [] := by
  cases found <;> decide

/-- **Every call keeps to the order**, whichever way it goes. -/
theorem Visit.fits (h : sink.Harmless) (v : Visit) : (v.code sink).Fits rank [] := by
  cases v with
  | refused => trivial
  | preallocateSensor found | appendBatch found => exact getOrCreateRing_fits found
  | append found stored overwrote =>
    refine ⟨getOrCreateRing_fits found, ?_⟩
    cases stored with
    | false => trivial
    | true =>
      cases overwrote with
      | false => exact ⟨h.onAppend, trivial⟩
      | true => exact ⟨h.onAppend, h.onOverwrite⟩
  | queryNearestN answered =>
    refine ⟨List.forall_mem_nil _, ?_⟩
    cases answered
    · trivial
    · exact h.onQuery.fits
  | queryRange warned =>
    refine ⟨List.forall_mem_nil _, ?_⟩
    cases warned
    · trivial
    · exact h.onWarning.fits
  | detectAnomaly anomalous =>
    refine ⟨List.forall_mem_nil _, ?_⟩
    cases anomalous
    · trivial
    · exact h.onAnomalyDetected.fits
  | maintainSlidingWindow events | flush events =>
    exact evictOnce_fits h events (List.forall_mem_nil _)
  | dropSensor | listSensors | getStats => exact ⟨List.forall_mem_nil _, trivial⟩
  | close first =>
    cases first with
    | false => trivial
    | true => exact ⟨⟨List.forall_mem_nil _, trivial⟩, List.forall_mem_nil _, trivial⟩

theorem wait_fits (wakeUps : Nat) : (waitLocks wakeUps).Fits rank [.evictionThread] := by
  apply Code.all_fits
  intro code mem
  obtain rfl := List.eq_of_mem_replicate mem
  decide

theorem evictionLoop_fits (h : sink.Harmless) (rounds : List (Nat × List SinkEvent))
    (last : Option Nat) : (evictionLoopLocks sink rounds last).Fits rank [.evictionThread] := by
  constructor
  · apply Code.all_fits
    intro code mem
    obtain ⟨⟨wakeUps, events⟩, -, rfl⟩ := List.mem_map.mp mem
    refine ⟨wait_fits wakeUps, evictOnce_fits h events ?_⟩
    simp [rank]
  · cases last with
    | none => trivial
    | some wakeUps => exact wait_fits wakeUps

variable {T : Type}

theorem locksAtStart_orderly (h : sink.Harmless) (rounds : List (Nat × List SinkEvent))
    (last : Option Nat) (calls : T → List Visit) :
    Orderly rank (locksAtStart sink rounds last calls) := by
  intro t
  cases t with
  | none => exact (evictionLoop_fits h rounds last).ranked rfl
  | some t =>
    have fits : (Code.all ((calls t).map (Visit.code sink))).Fits rank [] := by
      apply Code.all_fits
      intro code mem
      obtain ⟨v, -, rfl⟩ := List.mem_map.mp mem
      exact v.fits h
    have atEnd : Ranked rank [] ([] : List (Act EngineLock)) := rfl
    have ranked := fits.ranked atEnd
    rwa [List.append_nil] at ranked

variable [DecidableEq T] [Fintype T]

/-- **Calls return.** With a sink whose callbacks take no lock where the engine
holds one: however the threads are interleaved and whoever the locks let in first,
no run of any calls with the background thread goes on for ever, and where one
cannot go on all calls have returned and nobody holds a lock. -/
theorem calls_end (harmless : sink.Harmless) (P : Policy (Option T) EngineLock)
    (rounds : List (Nat × List SinkEvent)) (last : Option Nat) (calls : T → List Visit) {n : Nat}
    {c : Option T → Thread EngineLock} (run : Run P (locksAtStart sink rounds last calls) n c) :
    n ≤ work (locksAtStart sink rounds last calls) ∧
      ((∀ u c', ¬ Step P c u c') → ∀ t, (c t).todo = [] ∧ (c t).held = []) :=
  every_run_ends rank_le (locksAtStart_orderly harmless rounds last calls) run

/-- A flush of one sensor's row, an append to another and a `Close`. -/
def threeCalls : Fin 3 → List Visit :=
  ![[.flush (smallAppended.sinkEvents (.calm ℚ 0) .flush)], [.append false true false],
    [.close true]]

/-- They meet the background thread in its first pass. -/
def fourThreads (sink : SinkLocking) : Option (Fin 3) → Thread EngineLock :=
  locksAtStart sink [(1, smallAppended.sinkEvents (.calm ℚ 0) .backgroundPass)] (some 2) threeCalls

/-- The flush has the mutex of its pass. -/
def flushing (sink : SinkLocking) : Option (Fin 3) → Thread EngineLock :=
  Function.update (fourThreads sink) (some 0)
    ⟨[(.evictionPassMu, .exclusive)], (fourThreads sink (some 0)).todo.tail⟩

theorem flushing_run (sink : SinkLocking) : Run .eager (fourThreads sink) 1 (flushing sink) := by
  refine .snoc (.refl _) (.acquire EngineLock.evictionPassMu .exclusive _ rfl ?_)
  intro m waits u k holds
  cases u with
  | none => simp [fourThreads, locksAtStart, Thread.Holds] at holds
  | some i => simp [fourThreads, locksAtStart, Thread.Holds] at holds

theorem silent_harmless : SinkLocking.silent.Harmless :=
  ⟨trivial, trivial, trivial, trivial, trivial, trivial, trivial⟩

theorem fourThreads_end :
    1 ≤ work (fourThreads .silent) ∧
      ((∀ u c', ¬ Step .eager (flushing .silent) u c') →
        ∀ t, (flushing .silent t).todo = [] ∧ (flushing .silent t).held = []) :=
  calls_end silent_harmless .eager _ (some 2) _ (flushing_run .silent)

end

/-! ## Callbacks that call back -/

/-- Calls that add or drop a sensor, or run a pass. -/
def Visit.changesSensors : Visit → Bool
  | .preallocateSensor found | .append found _ _ | .appendBatch found => !found
  | .dropSensor | .flush _ | .maintainSlidingWindow _ => true
  | _ => false

section
variable {sink : SinkLocking} {held : List (EngineLock × Mode)}

theorem getOrCreateRing_reenters (inPass : (mapMutex, .shared) ∈ held) :
    (getOrCreateRingLocks false).Reenters held :=
  .inr (.inl ⟨.shared, inPass, .inl rfl⟩)

/-- In a pass, such a call asks for a lock that its own thread keeps from it. -/
theorem Visit.reenters {v : Visit} (changes : v.changesSensors = true)
    (inPass : (mapMutex, .shared) ∈ held) (alone : (evictionPassMu, .exclusive) ∈ held) :
    (v.code sink).Reenters held := by
  cases v with
  | preallocateSensor found | appendBatch found =>
    cases found with
    | true => cases changes
    | false => exact getOrCreateRing_reenters inPass
  | append found stored overwrote =>
    cases found with
    | true => cases changes
    | false => exact .inl (getOrCreateRing_reenters inPass)
  | dropSensor => exact .inl ⟨.shared, inPass, .inl rfl⟩
  | flush events | maintainSlidingWindow events => exact .inl ⟨.exclusive, alone, .inl rfl⟩
  | _ => cases changes

/-- So do the callbacks of a pass that calls it for an eviction. -/
theorem heard_reenters {inner : SinkLocking} {v : Visit} (calls : sink.onEviction = v.code inner)
    (changes : v.changesSensors = true) (inPass : (mapMutex, .shared) ∈ held)
    (alone : (evictionPassMu, .exclusive) ∈ held) {s : SensorId} {n bytes : Nat}
    {events : List SinkEvent} (evicts : .eviction s n bytes ∈ events) :
    (Code.all (events.map sink.heard)).Reenters held := by
  refine Code.all_reenters (List.mem_map_of_mem evicts) ?_
  rw [SinkLocking.heard, calls]
  exact Visit.reenters changes inPass alone

end

section
variable {F : Type} [FloatArith F] {e : Engine F} {env : Env F} {w : Int64} {ids : List SensorId}
  {s : SensorId} {events : List SinkEvent}

/-- What a pass tells of the sensors in `ids`. Before and after each of them the other
threads go on, as far as the locks of the pass let them: with calls that neither drop
a sensor nor evict. -/
inductive Engine.PassTells (env : Env F) (w : Int64) :
    List SensorId → Engine F → List SinkEvent → Prop
  | done (e : Engine F) : PassTells env w [] e []
  | other {ids : List SensorId} {e : Engine F} {events : List SinkEvent} (env' : Env F) (c : Call F)
      (noPass : e.pass c = none) (kept : ∀ s, c.drops s = false)
      (later : PassTells env w ids (e.call env' c).2 events) : PassTells env w ids e events
  | missing {s : SensorId} {rest : List SensorId} {e : Engine F} {events : List SinkEvent}
      (gone : e.sensors.lookup s = none) (later : PassTells env w rest e events) :
      PassTells env w (s :: rest) e events
  | visit {s : SensorId} {rest : List SensorId} {e : Engine F} {slot : SensorSlot F}
      {events : List SinkEvent} (found : e.sensors.lookup s = some slot)
      (later : PassTells env w rest (e.evictSensor env s slot w).1 events) :
      PassTells env w (s :: rest) e (e.evictSensorEvents env s slot w ++ events)

namespace Engine

/-- A pass that nobody meets. -/
theorem passTells_alone (env : Env F) (w : Int64) (ids : List SensorId) (e : Engine F) :
    e.PassTells env w ids (evictSensorsEvents env w ids e) := by
  induction ids generalizing e with
  | nil => exact .done e
  | cons s rest ih =>
    cases found : e.sensors.lookup s with
    | none =>
      simp only [evictSensorsEvents, found]
      exact .missing found (ih e)
    | some slot =>
      simp only [evictSensorsEvents, found]
      exact .visit found (ih _)

/-- Rows that are not evicted stay, or make room for others. -/
theorem rows_stay (ok : e.Ok) (env : Env F) {c : Call F} (noPass : e.pass c = none)
    (kept : c.drops s = false) (rows : (e.tier s).hot.items ≠ []) :
    ((e.call env c).2.tier s).hot.items ≠ [] := by
  have step := call_step ok env c s
  generalize (e.call env c).2.tier s = t' at step
  cases step with
  | append =>
    rw [Tier.pushAll_hot]
    exact BoundedQueue.pushAll_ne_nil _ rows
  | evict e' w own _ pass =>
    rw [noPass] at pass
    cases pass
  | drop _ drops =>
    rw [kept] at drops
    cases drops

/-- **A flush tells of rows**: whatever the others append meanwhile, its pass makes
an eviction callback for a sensor that had some. -/
theorem PassTells.evicts (tells : e.PassTells env 0 ids events) (ok : e.Ok) (mem : s ∈ ids)
    (rows : (e.tier s).hot.items ≠ []) (memory : 4 ≤ env.scratchMemory s) :
    ∃ n bytes, .eviction s n bytes ∈ events := by
  induction tells with
  | done => cases mem
  | other env' c noPass kept _ ih =>
    exact ih (call_frame ok env' c).ok mem (rows_stay ok env' noPass (kept s) rows)
  | missing gone _ ih =>
    obtain rfl | mem := List.mem_cons.mp mem
    · rw [hot_of_lookup_none gone] at rows
      exact absurd rfl rows
    · exact ih ok mem rows
  | @visit s₀ rest e slot events found _ ih =>
    by_cases same : s = s₀
    · subst same
      have told := evictSensor_tells env 0 ok found
      have taken : (e.tier s).evictedCount env 0 s ≠ 0 := by
        rw [Tier.evictedCount, if_neg (Nat.not_lt.mpr memory), evictCount_zero]
        exact fun none => rows (List.length_eq_zero_iff.mp none)
      obtain ⟨bytes, here⟩ := told.eviction taken
      exact ⟨_, bytes, List.mem_append_left _ here⟩
    · obtain ⟨-, others, ok', -⟩ := evictSensor_evicts env 0 ok found
      obtain ⟨n, bytes, told⟩ :=
        ih ok' (List.mem_of_ne_of_mem same mem) (by rwa [others s same])
      exact ⟨n, bytes, List.mem_append_right _ told⟩

end Engine

/-- **A callback of a pass must not change the sensors.** With an `on_eviction` that
adds a sensor, drops one, flushes or maintains a window, a flush that has come to its
callbacks on an engine with rows never returns, whoever the locks let in and whatever
the other threads do. -/
theorem reentry_never_returns {T : Type} [DecidableEq T] {sink inner : SinkLocking} {v : Visit}
    (calls : sink.onEviction = v.code inner) (changes : v.changesSensors = true)
    (reachable : Engine.Reachable e) (rows : (e.tier s).hotRows ≠ [])
    (memory : 4 ≤ env.scratchMemory s)
    (tells : e.PassTells env 0 (env.order e.sensors.keys) events) (P : Policy T EngineLock)
    {c : T → Thread EngineLock} {t : T} {outer : List (EngineLock × Mode)}
    {rest : List (Act EngineLock)}
    (inPass : c t = ⟨(.mapMutex, .shared) :: (.evictionPassMu, .exclusive) :: outer,
      (Code.all (events.map sink.heard)).acts ++ rest⟩)
    {n : Nat} {c' : T → Thread EngineLock} (run : Run P c n c') : (c' t).todo ≠ [] := by
  have some : (e.tier s).hot.items ≠ [] := fun none => rows (by rw [Tier.hotRows, none]; rfl)
  have key : s ∈ env.order e.sensors.keys := by
    apply (env.order_perm _).mem_iff.mpr
    by_contra out
    exact some (by rw [Engine.hot_of_lookup_none (AList.lookup_eq_none.mpr out)]; rfl)
  obtain ⟨k, bytes, evicts⟩ := tells.evicts (Engine.reachable_ok reachable) key some memory
  have reenters : (Code.all (events.map sink.heard)).Reenters (c t).held := by
    rw [inPass]
    exact heard_reenters calls changes (by simp) (by simp) evicts
  have blocks := reenters.selfBlocks rest
  apply self_blocked (t := t) _ run
  rw [inPass] at blocks ⊢
  exact blocks

/-- An `on_eviction` that appends to another sensor. -/
def forwarding : SinkLocking :=
  { SinkLocking.silent with onEviction := (Visit.append false true false).code .silent }

/-- The flush of `threeCalls` has both locks of its pass. -/
def passing (sink : SinkLocking) : Option (Fin 3) → Thread EngineLock :=
  Function.update (flushing sink) (some 0)
    ⟨[(.mapMutex, .shared), (.evictionPassMu, .exclusive)], (flushing sink (some 0)).todo.tail⟩

theorem flushing_holds (sink : SinkLocking) (u : Option (Fin 3)) (k : Mode) :
    ¬ (flushing sink u).Holds .mapMutex k := by
  cases u with
  | none => simp [flushing, fourThreads, locksAtStart, Thread.Holds]
  | some i =>
    by_cases first : i = 0
    · subst first
      simp [flushing, Thread.Holds]
    · simp [flushing, fourThreads, locksAtStart, Thread.Holds, first]

theorem passing_run (sink : SinkLocking) : Run .eager (fourThreads sink) 2 (passing sink) := by
  refine .snoc (flushing_run sink) (.acquire EngineLock.mapMutex .shared _ rfl ?_)
  intro m waits u k holds
  exact absurd holds (flushing_holds sink u k)

theorem passing_holds {sink : SinkLocking} {u : Option (Fin 3)} {k : Mode}
    (holds : (passing sink u).Holds .mapMutex k) : k = .shared := by
  by_cases first : u = some 0
  · subst first
    simpa [passing, Thread.Holds] using holds
  · rw [passing, Function.update_of_ne first] at holds
    exact absurd holds (flushing_holds sink u k)

/-- Then the append of another thread goes on. -/
def appending (sink : SinkLocking) : Option (Fin 3) → Thread EngineLock :=
  Function.update (passing sink) (some 1)
    ⟨[(.mapMutex, .shared)], (passing sink (some 1)).todo.tail⟩

theorem appending_run (sink : SinkLocking) : Run .eager (passing sink) 1 (appending sink) := by
  refine .snoc (.refl _) (.acquire EngineLock.mapMutex .shared _ rfl ?_)
  rintro m ⟨rest, next⟩ u k holds
  have asks : Act.acquire EngineLock.mapMutex .shared :: (passing sink (some 1)).todo.tail =
    .acquire .mapMutex m :: rest := next
  obtain rfl := (Act.acquire.inj (List.cons.inj asks).1).2
  rw [passing_holds holds]
  decide

/-- The append of another thread does not let it return either. -/
theorem forwarding_never_returns :
    Run .eager (fourThreads forwarding) 2 (passing forwarding) ∧
      (appending forwarding (some 0)).todo ≠ [] := by
  refine ⟨passing_run forwarding, ?_⟩
  have rows : (smallAppended.tier sensorA).hotRows ≠ [] := by decide +kernel
  have calls : forwarding.onEviction = (Visit.append false true false).code .silent := rfl
  have memory : 4 ≤ (Env.calm ℚ 0).scratchMemory sensorA := Nat.le_refl 4
  have tells := smallAppended.passTells_alone (.calm ℚ 0) 0
    ((Env.calm ℚ 0).order smallAppended.sensors.keys)
  exact reentry_never_returns calls rfl smallAppended_reachable rows memory tells .eager
    (c := passing forwarding) (t := some 0) rfl (appending_run forwarding)

end

end ChronosVector
