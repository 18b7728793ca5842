import ChronosVector.PassWork

/-!
# The background thread and `Close`

The threads of `Threads`, one of which runs `EvictionLoop`, with calls of
`Close`. `Close` raises `closed_` and `stop_requested_`, notifies the condition
variable under `eviction_mu_` and joins the thread. The thread sleeps on the
condition variable between its passes and wakes up by the notification, by the
timeout or for no reason.

* `LoopPc`, `ClosePc`: where the thread, or a call of `Close`, stands;
* `Shutdown`: all threads, with the two flags, the mutex and the sleeper;
* `Shutdown.step`: the next step of one thread;
* `Shutdown.Inv`: what every step keeps.
-/

namespace ChronosVector

variable {F : Type}

/-- `EvictionLoop`. From `asking` to `leaving` it is inside `wait_for`, which
holds `eviction_mu_` except while it sleeps. It falls asleep some time after its
predicate has read the flag. -/
inductive LoopPc
  | testing
  | locking
  | asking
  | sleeping
  | asleep
  | waking (timedOut : Bool)
  | leaving
  | retesting
  | passing
  | done
  deriving DecidableEq

/-- Between `lock` and `unlock` of `eviction_mu_`. -/
def LoopPc.holds : LoopPc → Bool
  | .asking | .sleeping | .leaving => true
  | _ => false

/-- `Close` after its `exchange`, if that was the first. -/
inductive ClosePc
  | out
  | storing
  | locking
  | notifying
  | unlocking
  | joining
  deriving DecidableEq

def ClosePc.holds : ClosePc → Bool
  | .notifying | .unlocking => true
  | _ => false

/-- The thread started by `StartEvictionThread`. All others are callers. -/
def worker : Nat := 0

structure Shutdown (F : Type) where
  threads : Threads F
  loop : LoopPc
  closing : Nat → ClosePc
  /-- `stop_requested_`. -/
  stop : Bool
  /-- The holder of `eviction_mu_`. -/
  mutex : Option Nat

/-- Whose step is next. -/
inductive Act (F : Type)
  | call (t : Nat) (env : Env F) (op : ThreadOp F)
  | close (t : Nat)
  | loop (env : Env F)
  | wake (timedOut : Bool)

/-- The thread that takes the step. Nobody wakes a thread for no reason. -/
def Act.actor : Act F → Option Nat
  | .call t _ _ => some t
  | .close t => some t
  | .loop _ => some worker
  | .wake _ => none

namespace Shutdown

/-- A factory has returned the engine. -/
def start (e : Engine F) : Shutdown F where
  threads := .start e
  loop := .testing
  closing := fun _ => .out
  stop := false
  mutex := none

variable (c : Shutdown F) (t : Nat)

def goClose (p : ClosePc) : Shutdown F := { c with closing := Function.update c.closing t p }

/-- The `exchange` of `Close`. -/
def raiseClosed : Shutdown F :=
  { c with threads := c.threads.setEngine { c.threads.engine with closed := true } }

/-- `notify_all`: it reaches the thread only if it sleeps by then. -/
def notify : Shutdown F :=
  { c with loop := if c.loop = .asleep then .waking false else c.loop }

def closeStep : Option (Shutdown F) :=
  match c.closing t with
  | .out =>
    if (c.threads.pc t).isIdle then
      if c.threads.engine.closed then some c else some (c.raiseClosed.goClose t .storing)
    else none
  | .storing => some ({ c with stop := true }.goClose t .locking)
  | .locking =>
    if c.mutex.isSome then none else some ({ c with mutex := some t }.goClose t .notifying)
  | .notifying => some (c.notify.goClose t .unlocking)
  | .unlocking => some ({ c with mutex := none }.goClose t .joining)
  | .joining => if c.loop = .done then some (c.goClose t .out) else none

/-- The pass of a wake-up. `EvictOnce` has no look at `closed_`. -/
def beginPass : Shutdown F :=
  { c with threads := c.threads.goto worker (.entering (-1) none), loop := .passing }

/-- A step of the pass, or its end. -/
def passStep [FloatArith F] (env : Env F) : Option (Shutdown F) :=
  (c.threads.step worker env .backgroundPass).map fun threads =>
    { c with threads := threads, loop := if (threads.pc worker).isIdle then .testing else .passing }

def loopStep [FloatArith F] (env : Env F) : Option (Shutdown F) :=
  match c.loop with
  | .testing => some { c with loop := if c.stop then .done else .locking }
  | .locking =>
    if c.mutex.isSome then none else some { c with mutex := some worker, loop := .asking }
  | .asking => some { c with loop := if c.stop then .leaving else .sleeping }
  | .sleeping => some { c with mutex := none, loop := .asleep }
  | .asleep => none
  | .waking timedOut =>
    if c.mutex.isSome then none
    else some { c with mutex := some worker, loop := if timedOut then .leaving else .asking }
  | .leaving => some { c with mutex := none, loop := .retesting }
  | .retesting => some (if c.stop then { c with loop := .done } else c.beginPass)
  | .passing => c.passStep env
  | .done => none

end Shutdown

namespace Shutdown

section
variable [FloatArith F]

/-- The next step of a thread. One that is inside `Close` is in no other call,
and only the background thread runs `backgroundPass`. -/
def step (c : Shutdown F) : Act F → Option (Shutdown F)
  | .call t env op =>
    match op with
    | .backgroundPass => none
    | _ =>
      if t = worker ∨ c.closing t ≠ .out then none
      else (c.threads.step t env op).map fun threads => { c with threads := threads }
  | .close t => if t = worker then none else c.closeStep t
  | .loop env => c.loopStep env
  | .wake timedOut => if c.loop = .asleep then some { c with loop := .waking timedOut } else none

def run : Shutdown F → List (Act F) → Option (Shutdown F) := Runs.run step

/-! ## What a step can be -/

/-- A step of a call other than `Close`. -/
structure CallStep (c : Shutdown F) (t : Nat) (threads : Threads F) : Prop where
  user : t ≠ worker
  out : c.closing t = .out
  step : ∃ env op, op ≠ .backgroundPass ∧ c.threads.step t env op = some threads

inductive Step (c : Shutdown F) : Act F → Shutdown F → Prop
  | call {t env op threads} (step : CallStep c t threads) :
    Step c (.call t env op) { c with threads := threads }
  | again {t} (user : t ≠ worker) (out : c.closing t = .out) (idle : c.threads.pc t = .idle)
    (closed : c.threads.engine.closed = true) : Step c (.close t) c
  | raise {t} (user : t ≠ worker) (out : c.closing t = .out) (idle : c.threads.pc t = .idle)
    (opened : c.threads.engine.closed = false) :
    Step c (.close t) (c.raiseClosed.goClose t .storing)
  | store {t} (at_ : c.closing t = .storing) :
    Step c (.close t) ({ c with stop := true }.goClose t .locking)
  | lock {t} (at_ : c.closing t = .locking) (free : c.mutex = none) :
    Step c (.close t) ({ c with mutex := some t }.goClose t .notifying)
  | notify {t} (at_ : c.closing t = .notifying) :
    Step c (.close t) (c.notify.goClose t .unlocking)
  | unlock {t} (at_ : c.closing t = .unlocking) :
    Step c (.close t) ({ c with mutex := none }.goClose t .joining)
  | join {t} (at_ : c.closing t = .joining) (done : c.loop = .done) :
    Step c (.close t) (c.goClose t .out)
  | stay {env} (at_ : c.loop = .testing) (stop : c.stop = false) :
    Step c (.loop env) { c with loop := .locking }
  | quit {env} (at_ : c.loop = .testing ∨ c.loop = .retesting) (stop : c.stop = true) :
    Step c (.loop env) { c with loop := .done }
  | hold {env} (p : LoopPc) (at_ : c.loop = .locking ∨ ∃ timedOut, c.loop = .waking timedOut)
    (free : c.mutex = none) (inside : p = .asking ∨ p = .leaving) :
    Step c (.loop env) { c with mutex := some worker, loop := p }
  | read {env} (at_ : c.loop = .asking) :
    Step c (.loop env) { c with loop := if c.stop then .leaving else .sleeping }
  | release {env} (p : LoopPc)
    (at_ : c.loop = .sleeping ∧ p = .asleep ∨ c.loop = .leaving ∧ p = .retesting) :
    Step c (.loop env) { c with mutex := none, loop := p }
  | beginPass {env} (at_ : c.loop = .retesting) (stop : c.stop = false) :
    Step c (.loop env) c.beginPass
  | pass {env threads} (at_ : c.loop = .passing)
    (step : c.threads.step worker env .backgroundPass = some threads) :
    Step c (.loop env)
      { c with
        threads := threads
        loop := if (threads.pc worker).isIdle then .testing else .passing }
  | wake {timedOut} (at_ : c.loop = .asleep) :
    Step c (.wake timedOut) { c with loop := .waking timedOut }

section
variable {c c' : Shutdown F} {a : Act F} {t : Nat} {env : Env F}

theorem closeStep_cases (user : t ≠ worker) (h : c.closeStep t = some c') :
    Step c (.close t) c' := by
  unfold closeStep at h
  split at h
  · rename_i out
    split at h
    · rename_i idle
      split at h
      · rename_i closed
        cases h
        exact .again user out (Pc.eq_idle idle) closed
      · rename_i opened
        cases h
        exact .raise user out (Pc.eq_idle idle) (by simpa using opened)
    · cases h
  · rename_i at_
    cases h
    exact .store at_
  · rename_i at_
    split at h
    · cases h
    · rename_i free
      cases h
      exact .lock at_ (by simpa using free)
  · rename_i at_
    cases h
    exact .notify at_
  · rename_i at_
    cases h
    exact .unlock at_
  · rename_i at_
    split at h
    · rename_i done
      cases h
      exact .join at_ done
    · cases h

theorem loopStep_cases (h : c.loopStep env = some c') : Step c (.loop env) c' := by
  unfold loopStep at h
  split at h
  · rename_i at_
    cases h
    by_cases stop : c.stop = true
    · rw [if_pos stop]
      exact .quit (.inl at_) stop
    · rw [if_neg stop]
      exact .stay at_ (by simpa using stop)
  · rename_i at_
    split at h
    · cases h
    · rename_i free
      cases h
      exact .hold _ (.inl at_) (by simpa using free) (.inl rfl)
  · rename_i at_
    cases h
    exact .read at_
  · rename_i at_
    cases h
    exact .release _ (.inl ⟨at_, rfl⟩)
  · cases h
  · rename_i timedOut at_
    split at h
    · cases h
    · rename_i free
      cases h
      refine .hold _ (.inr ⟨timedOut, at_⟩) (by simpa using free) ?_
      cases timedOut
      · exact .inl rfl
      · exact .inr rfl
  · rename_i at_
    cases h
    exact .release _ (.inr ⟨at_, rfl⟩)
  · rename_i at_
    cases h
    by_cases stop : c.stop = true
    · rw [if_pos stop]
      exact .quit (.inr at_) stop
    · rw [if_neg stop]
      exact .beginPass at_ (by simpa using stop)
  · rename_i at_
    obtain ⟨threads, stepped, rfl⟩ := Option.map_eq_some_iff.mp h
    exact .pass at_ stepped
  · cases h

/-- Every step is one of the cases. -/
theorem step_cases (h : c.step a = some c') : Step c a c' := by
  cases a with
  | call t env op =>
    simp only [step] at h
    split at h
    · cases h
    · rename_i user
      split at h
      · cases h
      · rename_i free
        obtain ⟨threads, stepped, rfl⟩ := Option.map_eq_some_iff.mp h
        push Not at free
        exact .call ⟨free.1, free.2, env, op, user, stepped⟩
  | close t =>
    simp only [step] at h
    split at h
    · cases h
    · rename_i user
      exact closeStep_cases user h
  | loop env => exact loopStep_cases h
  | wake timedOut =>
    simp only [step] at h
    split at h
    · rename_i at_
      cases h
      exact .wake at_
    · cases h

end

end

/-! ## The invariant -/

/-- What every step keeps. -/
structure Inv (c : Shutdown F) : Prop where
  outside : c.closing worker = .out
  idle : ∀ t, c.closing t ≠ .out → c.threads.pc t = .idle
  closed : ∀ t, c.closing t ≠ .out → c.threads.engine.closed = true
  alone : ∀ t u, c.closing t ≠ .out → c.closing u ≠ .out → t = u
  passing : c.loop = .passing ↔ c.threads.pc worker ≠ .idle
  mutex : ∀ t, c.mutex = some t ↔ t = worker ∧ c.loop.holds ∨ (c.closing t).holds
  stopped : c.stop = true ↔
    c.threads.engine.closed = true ∧ ∀ t, c.closing t ≠ .storing
  awake : ∀ t, c.closing t = .unlocking ∨ c.closing t = .joining →
    c.loop ≠ .asleep ∧ c.loop ≠ .sleeping
  gone : c.threads.engine.closed = true → (∀ t, c.closing t = .out) → c.loop = .done

theorem start_inv {e : Engine F} (opened : e.closed = false) : (start e).Inv where
  outside := rfl
  idle := fun _ _ => rfl
  closed := fun _ inside => (inside rfl).elim
  alone := fun _ _ inside _ => (inside rfl).elim
  passing := by simp [start, Threads.start]
  mutex := by simp [start, LoopPc.holds, ClosePc.holds]
  stopped := by simp [start, Threads.start, opened]
  awake := by simp [start]
  gone := by simp [start, Threads.start, opened]

section
variable {c c' : Shutdown F} {a : Act F} {t : Nat}

/-- Between the first `exchange` and its return, `Close` has one caller. -/
theorem Inv.others_out (inv : c.Inv) (inside : c.closing t ≠ .out) {u : Nat} (other : u ≠ t) :
    c.closing u = .out := by
  by_contra inside'
  exact other (inv.alone u t inside' inside)

theorem Inv.user (inv : c.Inv) (inside : c.closing t ≠ .out) : t ≠ worker := by
  rintro rfl
  exact inside inv.outside

/-- Once the caller is past the store, the flag is up. -/
theorem Inv.stop (inv : c.Inv) (inside : c.closing t ≠ .out) (past : c.closing t ≠ .storing) :
    c.stop = true := by
  refine inv.stopped.mpr ⟨inv.closed t inside, ?_⟩
  intro u at_
  by_cases same : u = t
  · exact past (same ▸ at_)
  · rw [inv.others_out inside same] at at_
    cases at_

theorem not_early {p : ClosePc} (past : p = .unlocking ∨ p = .joining) :
    p ≠ .out ∧ p ≠ .storing := by
  obtain rfl | rfl := past
  · exact ⟨nofun, nofun⟩
  · exact ⟨nofun, nofun⟩

/-- A step of the loop outside a pass. -/
theorem Inv.at_loop (inv : c.Inv) {p : LoopPc} {m : Option Nat} (alive : c.loop ≠ .done)
    (outside : c.loop ≠ .passing) (outside' : p ≠ .passing) (mine : m = some worker ↔ p.holds)
    (others : ∀ t, t ≠ worker → (m = some t ↔ c.mutex = some t))
    (sleeps : p = .asleep ∨ p = .sleeping → c.stop = false ∨ c.loop = .sleeping) :
    Inv { c with mutex := m, loop := p } where
  outside := inv.outside
  idle := inv.idle
  closed := inv.closed
  alone := inv.alone
  passing := ⟨fun h => (outside' h).elim, fun h => (outside (inv.passing.mpr h)).elim⟩
  mutex := by
    intro t
    by_cases same : t = worker
    · subst same
      simp [mine, inv.outside, ClosePc.holds]
    · simp only [others t same, inv.mutex t, same, false_and, false_or]
  stopped := inv.stopped
  awake := by
    intro t past
    have stop := inv.stop (not_early past).1 (not_early past).2
    have awake (p' : p = .asleep ∨ p = .sleeping) : False := by
      obtain down | before := sleeps p'
      · rw [stop] at down
        cases down
      · exact (inv.awake t past).2 before
    exact ⟨fun h => awake (.inl h), fun h => awake (.inr h)⟩
  gone := fun closed returned => (alive (inv.gone closed returned)).elim

/-- Such a step that leaves the mutex alone. -/
theorem Inv.at_loop_still (inv : c.Inv) {p : LoopPc} (alive : c.loop ≠ .done)
    (outside : c.loop ≠ .passing) (outside' : p ≠ .passing) (same : p.holds = c.loop.holds)
    (sleeps : p = .asleep ∨ p = .sleeping → c.stop = false ∨ c.loop = .sleeping) :
    Inv { c with loop := p } := by
  refine inv.at_loop (m := c.mutex) alive outside outside' ?_ (fun _ _ => Iff.rfl) sleeps
  rw [inv.mutex worker, same]
  simp [inv.outside, ClosePc.holds]

/-- A step of the one caller of `Close`. -/
theorem Inv.at_close (inv : c.Inv) (user : t ≠ worker) (others : ∀ u, u ≠ t → c.closing u = .out)
    (idle : c.threads.pc t = .idle) {th : Threads F} {p : ClosePc} {l : LoopPc} {stop : Bool}
    {m : Option Nat} (pc : th.pc = c.threads.pc) (closed : th.engine.closed = true)
    (mine : m = some t ↔ p.holds) (theirs : ∀ u, u ≠ t → (m = some u ↔ u = worker ∧ l.holds))
    (flag : stop = true ↔ p ≠ .storing)
    (awake : p = .unlocking ∨ p = .joining → l ≠ .asleep ∧ l ≠ .sleeping)
    (gone : p = .out → l = .done) (passing : l = .passing ↔ c.loop = .passing) :
    Inv ⟨th, l, Function.update c.closing t p, stop, m⟩ := by
  have out (u : Nat) (other : u ≠ t) : Function.update c.closing t p u = .out := by
    rw [Function.update_of_ne other, others u other]
  have only {u : Nat} (inside : Function.update c.closing t p u ≠ .out) : u = t := by
    by_contra other
    exact inside (out u other)
  constructor
  case outside => exact out worker (Ne.symm user)
  case idle =>
    intro u inside
    rw [only inside, pc]
    exact idle
  case closed => exact fun _ _ => closed
  case alone => exact fun u v inside inside' => (only inside).trans (only inside').symm
  case passing => rw [passing, inv.passing, pc]
  case mutex =>
    intro u
    by_cases same : u = t
    · subst same
      simp only [mine, user, false_and, false_or, Function.update_self]
    · simp only [theirs u same, out u same, ClosePc.holds, Bool.false_eq_true, or_false]
  case stopped =>
    simp only [flag, closed, true_and]
    constructor
    · intro past u
      by_cases same : u = t
      · rw [same, Function.update_self]
        exact past
      · simp [out u same]
    · intro past
      simpa using past t
  case awake =>
    intro u past
    obtain rfl : u = t := only (not_early past).1
    simp only [Function.update_self] at past
    exact awake past
  case gone =>
    intro _ returned
    exact gone (by simpa using returned t)

/-- A step of the one caller that takes or frees no mutex but its own. -/
theorem Inv.inside (inv : c.Inv) (inside : c.closing t ≠ .out) {p : ClosePc} {l : LoopPc}
    {m : Option Nat} (mine : m = some t ↔ p.holds)
    (theirs : ∀ u, u ≠ t → (m = some u ↔ u = worker ∧ l.holds)) (past : p ≠ .storing)
    (awake : p = .unlocking ∨ p = .joining → l ≠ .asleep ∧ l ≠ .sleeping)
    (gone : p = .out → l = .done) (passing : l = .passing ↔ c.loop = .passing) :
    Inv ⟨c.threads, l, Function.update c.closing t p, true, m⟩ :=
  inv.at_close (inv.user inside) (fun _ other => inv.others_out inside other)
    (inv.idle t inside) rfl (inv.closed t inside) mine theirs (by simp [past]) awake gone passing

/-- The state with the flag that the invariant gives. -/
theorem Inv.flag (inv : c.Inv) (inside : c.closing t ≠ .out) (past : c.closing t ≠ .storing)
    {l : LoopPc} {p : ClosePc} {m : Option Nat}
    (h : Inv ⟨c.threads, l, Function.update c.closing t p, true, m⟩) :
    Inv ⟨c.threads, l, Function.update c.closing t p, c.stop, m⟩ := by
  rw [inv.stop inside past]
  exact h

/-- While one caller is inside `Close`, only it and the background thread can hold
the mutex. -/
theorem Inv.theirs (inv : c.Inv) (inside : c.closing t ≠ .out) {u : Nat} (other : u ≠ t) :
    c.mutex = some u ↔ u = worker ∧ c.loop.holds := by
  rw [inv.mutex u, inv.others_out inside other]
  simp [ClosePc.holds]

variable [FloatArith F]

/-- Other calls and passes raise no flag and move no other thread. -/
theorem closed_of_step {th th' : Threads F} {env : Env F} {op : ThreadOp F}
    (h : th.step t env op = some th') : th'.engine.closed = th.engine.closed := by
  cases Threads.step_cases h with
  | @store p row _ _ r =>
    have frame := congrArg Engine.closed (th.store_frame p.sensor r row)
    exact frame
  | _ => rfl

theorem CallStep.inv {th : Threads F} (h : CallStep c t th) (inv : c.Inv) :
    Inv { c with threads := th } := by
  obtain ⟨user, out, env, op, -, stepped⟩ := h
  have closed := closed_of_step stepped
  have pcs {u : Nat} (other : u ≠ t) : th.pc u = c.threads.pc u :=
    (Threads.step_cases stepped).pc_of_ne other
  refine { inv with idle := ?_, closed := ?_, passing := ?_, stopped := ?_, gone := ?_ }
  · intro u inside
    have other : u ≠ t := by
      rintro rfl
      exact inside out
    exact (pcs other).trans (inv.idle u inside)
  · exact fun u inside => closed.trans (inv.closed u inside)
  · rw [pcs (Ne.symm user)]
    exact inv.passing
  · rw [closed]
    exact inv.stopped
  · rw [closed]
    exact inv.gone

omit [FloatArith F] in
/-- The background thread alone moves, from one side of a pass to the other. -/
theorem Inv.at_pass (inv : c.Inv) {th : Threads F} {l : LoopPc} (alive : c.loop ≠ .done)
    (closed : th.engine.closed = c.threads.engine.closed)
    (pcs : ∀ u, u ≠ worker → th.pc u = c.threads.pc u) (free : c.loop.holds = false)
    (free' : l.holds = false) (awake : l ≠ .asleep ∧ l ≠ .sleeping)
    (passing : l = .passing ↔ th.pc worker ≠ .idle) :
    Inv { c with threads := th, loop := l } := by
  refine { inv with
    idle := ?_, closed := ?_, passing := passing, mutex := ?_, stopped := ?_, gone := ?_
    awake := fun _ _ => awake }
  · intro u inside
    exact (pcs u (inv.user inside)).trans (inv.idle u inside)
  · exact fun u inside => closed.trans (inv.closed u inside)
  · intro u
    rw [inv.mutex u, free, free']
  · rw [closed]
    exact inv.stopped
  · intro closed' returned
    exact (alive (inv.gone (closed ▸ closed') returned)).elim

theorem Step.inv (h : Step c a c') (inv : c.Inv) : c'.Inv := by
  cases h with
  | call step => exact step.inv inv
  | again => exact inv
  | @raise t user out idle opened =>
    have others : ∀ u, c.closing u = .out := by
      intro u
      by_contra inside
      rw [inv.closed u inside] at opened
      cases opened
    have stop : c.raiseClosed.stop = false := by
      by_contra up
      have up : c.stop = true := by simpa [raiseClosed] using up
      rw [(inv.stopped.mp up).1] at opened
      cases opened
    refine inv.at_close user (fun u _ => others u) idle rfl rfl ?_ ?_ (by simp [stop]) nofun nofun
      Iff.rfl
    · refine (inv.mutex t).trans ?_
      simp [user, out, ClosePc.holds]
    · intro u _
      refine (inv.mutex u).trans ?_
      simp [others u, ClosePc.holds, raiseClosed]
  | @store t at_ =>
    have inside : c.closing t ≠ .out := by simp [at_]
    refine inv.inside inside ?_ (fun u other => inv.theirs inside other) nofun nofun nofun Iff.rfl
    rw [inv.mutex t, at_]
    simp [inv.user inside, ClosePc.holds]
  | @lock t at_ free =>
    have inside : c.closing t ≠ .out := by simp [at_]
    refine inv.flag inside (by simp [at_]) (inv.inside inside (by simp [ClosePc.holds]) ?_ nofun
      nofun nofun Iff.rfl)
    intro u other
    have theirs := inv.theirs inside other
    rw [free] at theirs
    rw [← theirs]
    simpa using Ne.symm other
  | @notify t at_ =>
    have inside : c.closing t ≠ .out := by simp [at_]
    have mine : c.mutex = some t := (inv.mutex t).mpr (.inr (by simp [at_, ClosePc.holds]))
    -- the caller holds the mutex, so the background thread is not inside `wait_for`
    have free : c.loop.holds = false := by
      by_contra holds
      have theirs := (inv.mutex worker).mpr (.inl ⟨rfl, by simpa using holds⟩)
      rw [mine, Option.some.injEq] at theirs
      exact inv.user inside theirs
    have free' : c.notify.loop.holds = false := by
      simp only [Shutdown.notify]
      split
      · rfl
      · exact free
    refine inv.flag inside (by simp [at_]) (inv.inside inside ?_ ?_ nofun ?_ nofun ?_)
    · exact iff_of_true mine rfl
    · intro u other
      refine iff_of_false ?_ (by simp [free'])
      intro theirs
      rw [show c.notify.mutex = c.mutex from rfl, mine, Option.some.injEq] at theirs
      exact other theirs.symm
    · intro _
      simp only [Shutdown.notify]
      split
      · exact ⟨nofun, nofun⟩
      · rename_i awake
        refine ⟨awake, ?_⟩
        intro sleeping
        rw [sleeping] at free
        cases free
    · simp only [Shutdown.notify]
      split
      · rename_i asleep
        simp [asleep]
      · exact Iff.rfl
  | @unlock t at_ =>
    have inside : c.closing t ≠ .out := by simp [at_]
    refine inv.flag inside (by simp [at_]) (inv.inside inside (by simp [ClosePc.holds]) ?_ nofun
      (fun _ => inv.awake t (.inl at_)) nofun Iff.rfl)
    intro u other
    have mine : c.mutex = some t := (inv.mutex t).mpr (.inr (by simp [at_, ClosePc.holds]))
    rw [← inv.theirs inside other, mine]
    simpa using Ne.symm other
  | @join t at_ done =>
    have inside : c.closing t ≠ .out := by simp [at_]
    refine inv.flag inside (by simp [at_]) (inv.inside inside ?_
      (fun u other => inv.theirs inside other) nofun nofun (fun _ => done) Iff.rfl)
    rw [inv.mutex t, at_]
    simp [inv.user inside, ClosePc.holds]
  | stay at_ =>
    exact inv.at_loop_still (by simp [at_]) (by simp [at_]) nofun (by simp [at_, LoopPc.holds]) nofun
  | quit at_ =>
    obtain at_ | at_ := at_
    · exact inv.at_loop_still (by simp [at_]) (by simp [at_]) nofun (by simp [at_, LoopPc.holds])
        nofun
    · exact inv.at_loop_still (by simp [at_]) (by simp [at_]) nofun (by simp [at_, LoopPc.holds])
        nofun
  | hold p at_ free inside =>
    have out : c.loop ≠ .done ∧ c.loop ≠ .passing := by
      obtain at_ | ⟨_, at_⟩ := at_
      · simp [at_]
      · simp [at_]
    have held : p.holds = true := by
      obtain rfl | rfl := inside
      · rfl
      · rfl
    refine inv.at_loop out.1 out.2 ?_ (iff_of_true rfl held) ?_ ?_
    · rintro rfl
      cases held
    · intro t other
      simpa [free] using Ne.symm other
    · rintro (rfl | rfl)
      · cases held
      · simp at inside
  | read at_ =>
    refine inv.at_loop_still (by simp [at_]) (by simp [at_]) ?_ ?_ ?_
    · split <;> exact nofun
    · rw [at_]
      split <;> rfl
    · intro sleeps
      split at sleeps
      · simp at sleeps
      · rename_i down
        exact .inl (by simpa using down)
  | release p at_ =>
    have held : c.loop.holds = true := by
      obtain ⟨at_, -⟩ | ⟨at_, -⟩ := at_
      · simp [at_, LoopPc.holds]
      · simp [at_, LoopPc.holds]
    have mine : c.mutex = some worker := (inv.mutex worker).mpr (.inl ⟨rfl, held⟩)
    have free : p.holds = false ∧ p ≠ .passing := by
      obtain ⟨-, rfl⟩ | ⟨-, rfl⟩ := at_
      · exact ⟨rfl, nofun⟩
      · exact ⟨rfl, nofun⟩
    refine inv.at_loop ?_ ?_ free.2 (by simp [free.1]) ?_ ?_
    · intro done
      simp [done, LoopPc.holds] at held
    · intro passing
      simp [passing, LoopPc.holds] at held
    · intro t other
      simpa [mine] using Ne.symm other
    · intro sleeps
      obtain ⟨at_, -⟩ | ⟨-, rfl⟩ := at_
      · exact .inr at_
      · simp at sleeps
  | beginPass at_ =>
    refine inv.at_pass (by simp [at_]) rfl (fun u other => Function.update_of_ne other _ _)
      (by simp [at_, LoopPc.holds]) rfl ⟨nofun, nofun⟩ ?_
    simp
  | @pass env th at_ stepped =>
    have pcs {u : Nat} (other : u ≠ worker) : th.pc u = c.threads.pc u :=
      (Threads.step_cases stepped).pc_of_ne other
    refine inv.at_pass (by simp [at_]) (closed_of_step stepped) (fun _ => pcs)
      (by simp [at_, LoopPc.holds]) ?_ ?_ ?_
    · split <;> rfl
    · split <;> exact ⟨nofun, nofun⟩
    · split
      · rename_i idle
        simp [Pc.eq_idle idle]
      · rename_i busy
        refine iff_of_true rfl ?_
        intro idle
        rw [idle] at busy
        exact busy rfl
  | wake at_ =>
    exact inv.at_loop_still (by simp [at_]) (by simp [at_]) nofun (by simp [at_, LoopPc.holds]) nofun

/-- What every run keeps. -/
theorem run_inv {e : Engine F} (opened : e.closed = false) {xs : List (Act F)}
    (h : (start e).run xs = some c) : c.Inv :=
  Runs.run_preserves (fun _ _ _ inv stepped => (step_cases stepped).inv inv) (start_inv opened) h

/-! ## Notifications -/

/-- Neither asleep nor about to be. -/
def Awake (c : Shutdown F) : Prop := c.loop ≠ .asleep ∧ c.loop ≠ .sleeping

/-- With the flag up the predicate keeps the thread from sleeping again. -/
theorem Step.stays_awake (h : Step c a c') (stop : c.stop = true) (awake : c.Awake) :
    c'.stop = true ∧ c'.Awake := by
  cases h with
  | store => exact ⟨rfl, awake⟩
  | notify =>
    refine ⟨stop, ?_⟩
    simp only [Awake, goClose, Shutdown.notify]
    rw [if_neg awake.1]
    exact awake
  | stay _ down =>
    rw [stop] at down
    cases down
  | beginPass _ down =>
    rw [stop] at down
    cases down
  | quit => exact ⟨stop, nofun, nofun⟩
  | hold p _ _ inside =>
    obtain rfl | rfl := inside
    · exact ⟨stop, nofun, nofun⟩
    · exact ⟨stop, nofun, nofun⟩
  | read =>
    refine ⟨stop, ?_⟩
    simp only [Awake, stop, if_true]
    exact ⟨nofun, nofun⟩
  | release p at_ =>
    obtain ⟨sleeping, -⟩ | ⟨-, rfl⟩ := at_
    · exact (awake.2 sleeping).elim
    · exact ⟨stop, nofun, nofun⟩
  | pass =>
    refine ⟨stop, ?_⟩
    simp only [Awake]
    split <;> exact ⟨nofun, nofun⟩
  | wake asleep => exact (awake.1 asleep).elim
  | _ => exact ⟨stop, awake⟩

/-- **No lost wake-up.** With the flag up, either a call of `Close` is still on its
way to the notification, or the background thread does not sleep and never will. -/
theorem wakeup_not_lost {e : Engine F} (opened : e.closed = false) {xs : List (Act F)}
    (h : (start e).run xs = some c) (stop : c.stop = true) :
    (∃ t, c.closing t = .locking ∨ c.closing t = .notifying) ∨
      ∀ ys c', c.run ys = some c' → c'.Awake := by
  have inv := run_inv opened h
  by_cases coming : ∃ t, c.closing t = .locking ∨ c.closing t = .notifying
  · exact .inl coming
  · refine .inr ?_
    push Not at coming
    have flag := inv.stopped.mp stop
    have awake : c.Awake := by
      by_cases returned : ∀ t, c.closing t = .out
      · simp [Awake, inv.gone flag.1 returned]
      · push Not at returned
        obtain ⟨t, inside⟩ := returned
        apply inv.awake t
        cases at_ : c.closing t with
        | out => exact (inside at_).elim
        | storing => exact (flag.2 t at_).elim
        | locking => exact ((coming t).1 at_).elim
        | notifying => exact ((coming t).2 at_).elim
        | unlocking => exact .inl rfl
        | joining => exact .inr rfl
    intro ys c' reached
    exact (Runs.run_preserves (I := fun c => c.stop = true ∧ c.Awake)
      (fun _ _ _ held stepped => (step_cases stepped).stays_awake held.1 held.2)
      ⟨stop, awake⟩ reached).2

end

end Shutdown

/-! ## After `Close` -/

namespace Shutdown

variable [FloatArith F] {c c' : Shutdown F} {a : Act F} {t : Nat}

/-- `Close` has returned. -/
structure Closed (c : Shutdown F) : Prop extends c.Inv where
  up : c.threads.engine.closed = true
  returned : ∀ t, c.closing t = .out

omit [FloatArith F] in
theorem Closed.done (h : c.Closed) : c.loop = .done := h.gone h.up h.returned

omit [FloatArith F] in
theorem Closed.idle_worker (h : c.Closed) : c.threads.pc worker = .idle := by
  by_contra busy
  have passing := h.passing.mpr busy
  rw [h.done] at passing
  cases passing

/-- Then only the calls that began before it go on. -/
theorem Step.closed (h : Step c a c') (closed : c.Closed) :
    c'.Closed ∧ (∀ u, (c.threads.pc u).quiet = true → (c'.threads.pc u).quiet = true) ∧
      ((∀ u, (c.threads.pc u).quiet = true) → c'.threads.engine = c.threads.engine) := by
  have inv' := h.inv closed.toInv
  have done := closed.done
  cases h with
  | @call t _ _ th step =>
    obtain ⟨_, _, env, op, -, stepped⟩ := step
    refine ⟨⟨inv', (closed_of_step stepped).trans closed.up, closed.returned⟩, ?_, ?_⟩
    · intro u quiet
      by_cases same : u = t
      · subst same
        exact (Threads.quiet_of_closed closed.up quiet stepped).2
      · simp only [(Threads.step_cases stepped).pc_of_ne same]
        exact quiet
    · intro quiet
      exact (Threads.quiet_of_closed closed.up (quiet t) stepped).1
  | again => exact ⟨closed, fun _ quiet => quiet, fun _ => rfl⟩
  | raise _ _ _ opened =>
    rw [closed.up] at opened
    cases opened
  | @store t at_ => simp [closed.returned t] at at_
  | @lock t at_ => simp [closed.returned t] at at_
  | @notify t at_ => simp [closed.returned t] at at_
  | @unlock t at_ => simp [closed.returned t] at at_
  | @join t at_ => simp [closed.returned t] at at_
  | hold _ at_ => simp [done] at at_
  | quit at_ => simp [done] at at_
  | release _ at_ => simp [done] at at_
  | stay at_ => simp [done] at at_
  | read at_ => simp [done] at at_
  | beginPass at_ => simp [done] at at_
  | pass at_ => simp [done] at at_
  | wake at_ => simp [done] at at_

/-- **After `Close`.** When the first call of `Close` has returned, the background
thread is gone for good, holds nothing and is in no pass. Calls that began
earlier may go on; once they have returned nothing changes the engine again. -/
theorem closed_for_good {e : Engine F} (opened : e.closed = false) {xs ys : List (Act F)}
    (h : (start e).run xs = some c) (up : c.threads.engine.closed = true)
    (returned : ∀ t, c.closing t = .out) (later : c.run ys = some c') :
    c'.loop = .done ∧ c'.mutex = none ∧ c'.threads.pc worker = .idle ∧
      (∀ u, (c.threads.pc u).quiet = true → (c'.threads.pc u).quiet = true) ∧
      ((∀ u, (c.threads.pc u).quiet = true) → c'.threads.engine = c.threads.engine) := by
  have closed : c.Closed := ⟨run_inv opened h, up, returned⟩
  have kept : c'.Closed ∧
      (∀ u, (c.threads.pc u).quiet = true → (c'.threads.pc u).quiet = true) ∧
      ((∀ u, (c.threads.pc u).quiet = true) → c'.threads.engine = c.threads.engine) := by
    refine Runs.run_preserves (I := fun c' => c'.Closed ∧
      (∀ u, (c.threads.pc u).quiet = true → (c'.threads.pc u).quiet = true) ∧
      ((∀ u, (c.threads.pc u).quiet = true) → c'.threads.engine = c.threads.engine)) ?_
      ⟨closed, fun _ quiet => quiet, fun _ => rfl⟩ later
    rintro c₁ a c₂ ⟨closed₁, quiet₁, engine₁⟩ stepped
    obtain ⟨closed₂, quiet₂, engine₂⟩ := (step_cases stepped).closed closed₁
    refine ⟨closed₂, fun u quiet => quiet₂ u (quiet₁ u quiet), ?_⟩
    intro quiet
    exact (engine₂ fun u => quiet₁ u (quiet u)).trans (engine₁ quiet)
  obtain ⟨closed', quiet, engine⟩ := kept
  refine ⟨closed'.done, ?_, closed'.idle_worker, quiet, engine⟩
  by_contra held
  obtain ⟨u, held⟩ := Option.ne_none_iff_exists'.mp held
  have holder := (closed'.mutex u).mp held
  simp [closed'.done, closed'.returned u, LoopPc.holds, ClosePc.holds] at holder

/-! ## A call of `Close` while the thread sleeps -/

/-- A thread that takes no step stays where it is. -/
theorem Step.still (h : Step c a c') {u : Nat} (other : a.actor ≠ some u) :
    c'.closing u = c.closing u := by
  cases h with
  | raise | store | lock | notify | unlock | join =>
    exact Function.update_of_ne (fun same => other (congrArg some same.symm)) _ _
  | _ => rfl

theorem run_still {xs : List (Act F)} (h : c.run xs = some c') {u : Nat}
    (others : ∀ a ∈ xs, a.actor ≠ some u) : c'.closing u = c.closing u := by
  induction xs generalizing c with
  | nil =>
    cases h
    rfl
  | cons a rest ih =>
    obtain ⟨next, stepped, reached⟩ := Runs.run_cons.mp h
    exact (ih reached fun a mem => others a (List.mem_cons_of_mem _ mem)).trans
      ((step_cases stepped).still (others a List.mem_cons_self))

/-- A step of the background thread. -/
def loopAct : Act ℚ := .loop (.calm ℚ 0)

/-- The thread falls asleep. Thread 1 closes the engine up to its `join`. -/
def sleepAndClose : List (Act ℚ) := List.replicate 4 loopAct ++ List.replicate 5 (.close 1)

/-- The thread wakes up and ends, and the call returns. -/
def endAndJoin : List (Act ℚ) := List.replicate 4 loopAct ++ [.close 1]

def joining : Shutdown ℚ := ((start smallEngine).run sleepAndClose).getD (start smallEngine)

def joined : Shutdown ℚ := (joining.run endAndJoin).getD joining

theorem run_joining : (start smallEngine).run sleepAndClose = some joining := rfl

theorem run_joined : (start smallEngine).run (sleepAndClose ++ endAndJoin) = some joined := rfl

/-- Only thread 1 is ever inside `Close` when it is the only one to call it. -/
theorem others_out {xs : List (Act ℚ)} {c : Shutdown ℚ} (h : (start smallEngine).run xs = some c)
    (only : ∀ a ∈ xs, a.actor = some worker ∨ a.actor = some 1) {t : Nat} (other : t ≠ 1) :
    c.closing t = .out := by
  by_cases same : t = worker
  · subst same
    exact (run_inv rfl h).outside
  · refine run_still h ?_
    intro a mem theirs
    obtain actor | actor := only a mem
    · rw [actor, Option.some.injEq] at theirs
      exact same theirs.symm
    · rw [actor, Option.some.injEq] at theirs
      exact other theirs.symm

theorem joining_awake : joined.Awake := by
  obtain ⟨t, at_⟩ | awake := wakeup_not_lost rfl run_joining rfl
  · exfalso
    by_cases same : t = 1
    · subst same
      exact absurd at_ (by decide +kernel)
    · have out := others_out run_joining (by simp [sleepAndClose, loopAct, Act.actor]) same
      simp [out] at at_
  · exact awake endAndJoin joined rfl

theorem joined_out (t : Nat) : joined.closing t = .out := by
  by_cases same : t = 1
  · subst same
    rfl
  · exact others_out run_joined
      (by simp [sleepAndClose, endAndJoin, loopAct, Act.actor, or_imp, forall_and]) same

/-- A `Flush` that comes after `Close`. -/
theorem late_flush_refused : ∃ c', joined.run [.call 2 (.calm ℚ 0) .flush] = some c' ∧
    c'.loop = .done ∧ c'.threads.engine = joined.threads.engine := by
  have refused : joined.run [.call 2 (.calm ℚ 0) .flush] = some joined := rfl
  have safe := closed_for_good rfl run_joined rfl joined_out refused
  exact ⟨_, refused, safe.1, safe.2.2.2.2 fun _ => rfl⟩

end Shutdown

end ChronosVector
