import Mathlib.Data.Prod.Lex
import Mathlib.Order.WellFounded
import ChronosVector.EvictionLoop
import ChronosVector.Lib.Fairness

/-!
# `Close` returns

Along a fair run the first call of `Close` comes back, whatever the other threads
do: the background thread needs no timeout to wake up, and the passes in front of
it come to an end.

* `Ready`: a thread inside a call that can move;
* `Sound`: the invariants of both machines;
* `rank`, `helper`: how far a call of `Close` is from its return, and whose step
  brings it nearer;
* `close_returns`: the theorem.
-/

namespace ChronosVector

variable {F : Type} [FloatArith F]

namespace Threads

variable {c c' : Threads F} {t : Nat} {env : Env F} {op : ThreadOp F}

/-- The pass of the background thread ends where it began. -/
theorem Step.background (h : Step c t env op c') (busy : c.pc t ≠ .idle)
    (background : (c.pc t).background = true) : (c'.pc t).background = true := by
  cases h with
  | @enter w flush at_ =>
    rw [at_] at background
    cases flush with
    | none => simp [Pc.background]
    | some rows => cases background
  | @leave p at_ =>
    rw [at_] at background
    have none : p.flush = none := by simpa [Pc.background] using background
    simp [none, Pc.background]
  | skip at_ | snap at_ | copyFailed at_ | copy at_ | move at_ | write at_ =>
    rw [at_] at background
    simpa [Pc.background] using background
  | refused at_ | beginFlush at_ | retune at_ | beginPass at_ | ingest at_ | erase at_ | readEvents at_ =>
    exact (busy at_).elim
  | found at_ =>
    obtain at_ | at_ := at_
    · simp [at_, Pc.background] at background
    · simp [at_, Pc.background] at background
  | missed at_ | failed at_ | attach at_ | stale at_ | store at_ | counted at_ | delete at_ | sync at_
  | readEntries at_ | report at_ =>
    simp [at_, Pc.background] at background

end Threads

namespace Shutdown

variable {c c' : Shutdown F} {a : Act F} {t n : Nat}

/-- A thread that is inside a call, or the background thread, and can move. -/
def Ready (c : Shutdown F) (u : Nat) : Prop :=
  (u = worker ∨ c.closing u ≠ .out ∨ c.threads.pc u ≠ .idle) ∧
    ∃ a : Act F, a.actor = some u ∧ (c.step a).isSome

/-! ## Both machines -/

structure Sound (c : Shutdown F) : Prop extends c.Inv where
  pass : c.threads.PassSound
  background : (c.threads.pc worker).background = true
  few : ∃ n, ∀ u, n ≤ u → c.threads.pc u = .idle

omit [FloatArith F] in
theorem start_sound {e : Engine F} (opened : e.closed = false) : (start e).Sound where
  toInv := start_inv opened
  pass := Threads.start_sound e
  background := rfl
  few := ⟨0, fun _ _ => rfl⟩

omit [FloatArith F] in
/-- A pass lock that is not the worker's stays sound when the worker begins. -/
theorem begin_pass_sound (sound : c.threads.PassSound) (idle : c.threads.pc worker = .idle) :
    c.beginPass.threads.PassSound where
  locked := sound.locked.goto False.elim
  owner := by
    intro u holds
    have other : u ≠ worker := by
      rintro rfl
      have inside := sound.owner worker holds
      rw [idle] at inside
      exact inside
    simp only [beginPass, Threads.goto, Function.update_of_ne other]
    exact sound.owner u holds
  ring := by
    intro u s at_
    by_cases same : u = worker
    · subst same
      simp [beginPass, Pc.evicting] at at_
    · simp only [beginPass, Threads.goto, Function.update_of_ne same] at at_
      exact sound.ring u s at_

theorem few_step {th th' : Threads F} {env : Env F} {op : ThreadOp F}
    (h : th.step t env op = some th') (few : ∃ n, ∀ u, n ≤ u → th.pc u = .idle) :
    ∃ n, ∀ u, n ≤ u → th'.pc u = .idle := by
  obtain ⟨n, few⟩ := few
  refine ⟨max n (t + 1), ?_⟩
  intro u above
  rw [(Threads.step_cases h).pc_of_ne (by omega)]
  exact few u (by omega)

theorem Step.sound (h : Step c a c') (sound : c.Sound) : c'.Sound := by
  have inv := h.inv sound.toInv
  cases h with
  | @call t _ _ th step =>
    obtain ⟨user, -, env, op, -, stepped⟩ := step
    refine ⟨inv, (Threads.step_cases stepped).sound sound.pass, ?_, few_step stepped sound.few⟩
    simp only [(Threads.step_cases stepped).pc_of_ne (Ne.symm user)]
    exact sound.background
  | raise =>
    exact ⟨inv, ⟨sound.pass.locked, sound.pass.owner, sound.pass.ring⟩, sound.background, sound.few⟩
  | beginPass at_ =>
    have idle : c.threads.pc worker = .idle := by
      by_contra busy
      simp [sound.passing.mpr busy] at at_
    refine ⟨inv, begin_pass_sound sound.pass idle, by simp [Shutdown.beginPass, Pc.background], ?_⟩
    obtain ⟨n, few⟩ := sound.few
    refine ⟨max n (worker + 1), ?_⟩
    intro u above
    simp only [Shutdown.beginPass, Threads.goto]
    rw [Function.update_of_ne (by omega)]
    exact few u (by omega)
  | @pass env th at_ stepped =>
    exact ⟨inv, (Threads.step_cases stepped).sound sound.pass,
      (Threads.step_cases stepped).background (sound.passing.mp at_) sound.background,
      few_step stepped sound.few⟩
  | _ => exact ⟨inv, sound.pass, sound.background, sound.few⟩

/-! ## One call of `Close` -/

/-- Thread `t` is the one that closes the engine. Only threads below `n` can still
wait for the pass lock. -/
structure Closing (n t : Nat) (c : Shutdown F) : Prop extends c.Sound where
  up : c.threads.engine.closed = true
  only : ∀ u, u ≠ t → c.closing u = .out
  small : worker < n
  bound : ∀ u, n ≤ u → (c.threads.pc u).waits = false

theorem Step.closing (h : Step c a c') (closing : c.Closing n t) : c'.Closing n t := by
  have sound := h.sound closing.toSound
  have bound {th th' : Threads F} {u : Nat} {env : Env F} {op : ThreadOp F}
      (before : ∀ u, n ≤ u → (th.pc u).waits = false) (up : th.engine.closed = true)
      (stepped : th.step u env op = some th') : ∀ u, n ≤ u → (th'.pc u).waits = false := by
    intro u above
    by_contra waits
    have waited := Threads.waits_before stepped up (by simpa using waits)
    rw [before u above] at waited
    cases waited
  have only {c' : Shutdown F} {u : Nat} {p : ClosePc} (mine : c.closing u ≠ .out)
      (closing' : c'.closing = Function.update c.closing u p) : ∀ v, v ≠ t → c'.closing v = .out := by
    intro v other
    have same : u = t := by
      by_contra other'
      exact mine (closing.only u other')
    rw [closing', Function.update_of_ne (same ▸ other)]
    exact closing.only v other
  cases h with
  | call step =>
    obtain ⟨-, -, env, op, -, stepped⟩ := step
    exact ⟨sound, (closed_of_step stepped).trans closing.up, closing.only, closing.small,
      bound closing.bound closing.up stepped⟩
  | again => exact closing
  | raise _ _ _ opened =>
    rw [closing.up] at opened
    cases opened
  | store at_ => exact ⟨sound, closing.up, only (by simp [at_]) rfl, closing.small, closing.bound⟩
  | lock at_ => exact ⟨sound, closing.up, only (by simp [at_]) rfl, closing.small, closing.bound⟩
  | notify at_ => exact ⟨sound, closing.up, only (by simp [at_]) rfl, closing.small, closing.bound⟩
  | unlock at_ => exact ⟨sound, closing.up, only (by simp [at_]) rfl, closing.small, closing.bound⟩
  | join at_ => exact ⟨sound, closing.up, only (by simp [at_]) rfl, closing.small, closing.bound⟩
  | beginPass =>
    refine ⟨sound, closing.up, closing.only, closing.small, ?_⟩
    intro u above
    have small := closing.small
    simp only [Shutdown.beginPass, Threads.goto]
    rw [Function.update_of_ne (by omega)]
    exact closing.bound u above
  | pass at_ stepped =>
    exact ⟨sound, (closed_of_step stepped).trans closing.up, closing.only, closing.small,
      bound closing.bound closing.up stepped⟩
  | _ => exact ⟨sound, closing.up, closing.only, closing.small, closing.bound⟩

/-! ## The rank -/

/-- How far `Close`, then the loop with the flag up, is from its end. -/
def closeRank : ClosePc → Nat
  | .storing => 5
  | .locking => 4
  | .notifying => 3
  | .unlocking => 2
  | .joining => 1
  | .out => 0

def loopRank : LoopPc → Nat
  | .sleeping => 8
  | .asleep => 7
  | .waking _ | .locking => 6
  | .asking => 5
  | .leaving => 4
  | .retesting => 3
  | .passing => 2
  | .testing => 1
  | .done => 0

/-- Before the store the background thread may go round any number of times. -/
def rank (n t : Nat) (c : Shutdown F) : ℕ ×ₗ ℕ ×ₗ ℕ ×ₗ ℕ :=
  if c.closing t = .storing then toLex (5, toLex (0, toLex (0, 0)))
  else
    toLex (closeRank (c.closing t),
      toLex (loopRank c.loop, toLex (c.threads.waiting n, c.threads.passWork)))

/-- Whose step `Close` waits for. -/
def helper (t : Nat) (c : Shutdown F) : Nat :=
  match c.closing t with
  | .joining =>
    if c.loop = .passing then c.threads.passOwner.getD worker
    else if c.loop = .done then t
    else worker
  | .locking => if c.mutex = some worker then worker else t
  | _ => t

omit [FloatArith F] in
theorem helper_cases (t : Nat) (c : Shutdown F) :
    helper t c = t ∨ helper t c = worker ∨ c.threads.passOwner = some (helper t c) := by
  unfold helper
  split
  · split
    · cases owner : c.threads.passOwner with
      | none => exact .inr (.inl rfl)
      | some u => exact .inr (.inr rfl)
    · split
      · exact .inl rfl
      · exact .inr (.inl rfl)
  · split
    · exact .inr (.inl rfl)
    · exact .inl rfl
  · exact .inl rfl

omit [FloatArith F] in
theorem rank_close_lt (later : c.closing t ≠ .storing)
    (less : closeRank (c'.closing t) < closeRank (c.closing t)) : rank n t c' < rank n t c := by
  have earlier : c'.closing t ≠ .storing := by
    intro at_
    rw [at_] at less
    cases at_' : c.closing t <;> simp [at_', closeRank] at less
  rw [rank, rank, if_neg earlier, if_neg later]
  exact Prod.Lex.toLex_lt_toLex.mpr (.inl less)

omit [FloatArith F] in
theorem rank_loop_lt (later : c.closing t ≠ .storing) (same : c'.closing t = c.closing t)
    (less : loopRank c'.loop < loopRank c.loop) : rank n t c' < rank n t c := by
  rw [rank, rank, same, if_neg later, if_neg later]
  exact Prod.Lex.toLex_lt_toLex.mpr (.inr ⟨rfl, Prod.Lex.toLex_lt_toLex.mpr (.inl less)⟩)

omit [FloatArith F] in
theorem rank_pass_lt (later : c.closing t ≠ .storing) (same : c'.closing t = c.closing t)
    (loop : c'.loop = c.loop)
    (less : c'.threads.waiting n < c.threads.waiting n ∨
      c'.threads.waiting n = c.threads.waiting n ∧ c'.threads.passWork < c.threads.passWork) :
    rank n t c' < rank n t c := by
  rw [rank, rank, same, loop, if_neg later, if_neg later]
  refine Prod.Lex.toLex_lt_toLex.mpr (.inr ⟨rfl, Prod.Lex.toLex_lt_toLex.mpr (.inr ⟨rfl, ?_⟩)⟩)
  exact Prod.Lex.toLex_lt_toLex.mpr less

/-! ## What a step does to the rank -/

/-- The caller's own steps bring it nearer to its return. -/
theorem Step.mine (h : Step c a c') (closing : c.Closing n t) (inside : c.closing t ≠ .out)
    (mine : a.actor = some t) : rank n t c' < rank n t c := by
  have user := closing.user inside
  cases h with
  | call step =>
    cases mine
    exact (inside step.out).elim
  | again _ out =>
    cases mine
    exact (inside out).elim
  | raise _ out =>
    cases mine
    exact (inside out).elim
  | store at_ =>
    cases mine
    rw [rank, rank, if_pos at_, if_neg (by simp [goClose])]
    exact Prod.Lex.toLex_lt_toLex.mpr (.inl (by simp [goClose, closeRank]))
  | lock at_ | notify at_ | unlock at_ | join at_ =>
    cases mine
    exact rank_close_lt (by simp [at_]) (by simp [goClose, at_, closeRank])
  | wake => cases mine
  | _ => exact (user (Option.some.inj mine).symm).elim

/-- A step that brings nobody nearer, by a thread that nobody waits for. -/
structure Stands (n : Nat) (c : Shutdown F) (a : Act F) (c' : Shutdown F) : Prop where
  loop : c'.loop = c.loop
  mutex : c'.mutex = c.mutex
  owner : c'.threads.passOwner = c.threads.passOwner
  waiting : c'.threads.waiting n = c.threads.waiting n
  work : c'.threads.passWork = c.threads.passWork
  bystander : ∀ u, a.actor = some u → u ≠ worker ∧ c.threads.passOwner ≠ some u

/-- Any other step leaves the caller where it is. With the flag up it brings the
background thread nearer to its end, or a pass. -/
theorem Step.theirs (h : Step c a c') (closing : c.Closing n t) (other : a.actor ≠ some t) :
    c'.closing t = c.closing t ∧ (c.stop = true →
      loopRank c'.loop < loopRank c.loop ∨
      c'.loop = c.loop ∧ (c'.threads.waiting n < c.threads.waiting n ∨
        c'.threads.waiting n = c.threads.waiting n ∧
          c'.threads.passWork < c.threads.passWork) ∨
      Stands n c a c') := by
  have notMine {u : Nat} (at_ : c.closing u ≠ .out) (theirs : some u ≠ some t) : False := by
    have same : u = t := by
      by_contra other
      exact at_ (closing.only u other)
    exact theirs (congrArg some same)
  cases h with
  | @call u _ _ th step =>
    refine ⟨rfl, fun _ => .inr ?_⟩
    obtain ⟨user, out, env, op, -, stepped⟩ := step
    obtain fewer | ⟨same, less | ⟨work, owner, notHolder, -⟩⟩ :=
      Threads.step_pays stepped closing.up closing.pass closing.bound
    · exact .inl ⟨rfl, .inl fewer⟩
    · exact .inl ⟨rfl, .inr ⟨same, less⟩⟩
    · refine .inr ⟨rfl, rfl, owner, same, work, ?_⟩
      rintro _ ⟨⟩
      exact ⟨user, notHolder⟩
  | @again u user _ idle =>
    refine ⟨rfl, fun _ => .inr (.inr ⟨rfl, rfl, rfl, rfl, rfl, ?_⟩)⟩
    rintro _ ⟨⟩
    refine ⟨user, fun holds => ?_⟩
    have inside := closing.pass.owner u holds
    rw [idle] at inside
    exact inside
  | raise _ _ _ opened =>
    rw [closing.up] at opened
    cases opened
  | store at_ | lock at_ | notify at_ | unlock at_ | join at_ =>
    exact (notMine (by simp [at_]) other).elim
  | stay _ down =>
    refine ⟨rfl, fun up => ?_⟩
    rw [up] at down
    cases down
  | beginPass _ down =>
    refine ⟨rfl, fun up => ?_⟩
    rw [up] at down
    cases down
  | quit at_ =>
    refine ⟨rfl, fun _ => .inl ?_⟩
    obtain at_ | at_ := at_
    · simp [at_, loopRank]
    · simp [at_, loopRank]
  | hold p at_ _ held =>
    refine ⟨rfl, fun _ => .inl ?_⟩
    have before : loopRank c.loop = 6 := by
      obtain at_ | ⟨_, at_⟩ := at_
      · rw [at_]
        rfl
      · rw [at_]
        rfl
    rw [before]
    obtain rfl | rfl := held
    · simp [loopRank]
    · simp [loopRank]
  | read at_ => exact ⟨rfl, fun up => .inl (by simp [at_, up, loopRank])⟩
  | release p at_ =>
    refine ⟨rfl, fun _ => .inl ?_⟩
    obtain ⟨at_, rfl⟩ | ⟨at_, rfl⟩ := at_
    · simp [at_, loopRank]
    · simp [at_, loopRank]
  | wake at_ => exact ⟨rfl, fun _ => .inl (by simp [at_, loopRank])⟩
  | @pass env th at_ stepped =>
    refine ⟨rfl, fun _ => ?_⟩
    by_cases ended : (th.pc worker).isIdle = true
    · exact .inl (by simp [ended, at_, loopRank])
    · refine .inr (.inl ⟨by simp [ended, at_], ?_⟩)
      obtain fewer | ⟨same, less | ⟨-, -, notHolder, calm⟩⟩ :=
        Threads.step_pays stepped closing.up closing.pass closing.bound
      · exact .inl fewer
      · exact .inr ⟨same, less⟩
      · -- a background pass is at the lock or holds it
        exfalso
        obtain idle | waits | inside := Pc.background_cases closing.background
        · exact closing.passing.mp at_ idle
        · rw [calm] at waits
          cases waits
        · exact notHolder (closing.pass.locked worker inside)

theorem Step.lowers (h : Step c a c') (closing : c.Closing n t) (inside : c.closing t ≠ .out) :
    Runs.Endless.Lowers (rank n t) (helper t) Act.actor c a c' := by
  by_cases mine : a.actor = some t
  · exact .inl (h.mine closing inside mine)
  · obtain ⟨same, steps⟩ := h.theirs closing mine
    by_cases at_ : c.closing t = .storing
    · refine .inr ⟨?_, ?_, ?_⟩
      · rw [rank, rank, same, if_pos at_, if_pos at_]
      · simp [helper, same, at_]
      · simpa [helper, at_] using mine
    · obtain less | ⟨loop, less⟩ | stands := steps (closing.stop inside at_)
      · exact .inl (rank_loop_lt at_ same less)
      · exact .inl (rank_pass_lt at_ same loop less)
      · refine .inr ⟨?_, ?_, ?_⟩
        · simp only [rank, same, stands.loop, stands.waiting, stands.work]
        · simp only [helper, same, stands.loop, stands.mutex, stands.owner]
        · intro moves
          obtain ⟨notWorker, notHolder⟩ := stands.bystander _ moves
          obtain caller | isWorker | holder := helper_cases t c
          · rw [caller] at moves
            exact mine moves
          · exact notWorker isWorker
          · exact notHolder holder

/-! ## The helper is never stuck -/

/-- Any environment does. -/
def someEnv : Env F := .calm F 0

theorem ready_caller (closing : c.Closing n t) (inside : c.closing t ≠ .out)
    (step : (c.closeStep t).isSome) : c.Ready t :=
  ⟨.inr (.inl inside), .close t, rfl, by simpa [Shutdown.step, closing.user inside] using step⟩

theorem ready_worker (step : (c.loopStep someEnv).isSome) : c.Ready worker :=
  ⟨.inl rfl, .loop someEnv, rfl, step⟩

/-- The holder of the pass lock, the background thread or a caller. -/
theorem ready_holder (closing : c.Closing n t) {u : Nat} (holds : c.threads.passOwner = some u) :
    c.Ready u := by
  have inside := closing.pass.owner u holds
  have step := fun op => Threads.step_holder closing.pass holds someEnv op
  by_cases same : u = worker
  · subst same
    apply ready_worker
    have busy : c.threads.pc worker ≠ .idle := by
      intro idle
      rw [idle] at inside
      exact inside
    simpa [loopStep, closing.passing.mpr busy, passStep] using step .backgroundPass
  · have busy : c.threads.pc u ≠ .idle := by
      intro idle
      rw [idle] at inside
      exact inside
    have out : c.closing u = .out := by
      by_contra inside'
      exact busy (closing.idle u inside')
    exact ⟨.inr (.inr busy), .call u someEnv .getStats, rfl,
      by simpa [Shutdown.step, same, out] using step .getStats⟩

omit [FloatArith F] in
/-- Nobody but the background thread and the caller can hold the mutex. -/
theorem free_mutex (closing : c.Closing n t) (caller : (c.closing t).holds = false)
    (outside : c.loop.holds = false) : c.mutex = none := by
  by_contra held
  obtain ⟨u, held⟩ := Option.ne_none_iff_exists'.mp held
  obtain ⟨-, holds⟩ | holds := (closing.mutex u).mp held
  · rw [outside] at holds
    cases holds
  · by_cases same : u = t
    · rw [same, caller] at holds
      cases holds
    · simp [closing.only u same, ClosePc.holds] at holds

/-- While the caller joins, the background thread can move, or waits for a pass. -/
theorem ready_joining (closing : c.Closing n t) (at_ : c.closing t = .joining)
    (alive : c.loop ≠ .done) : c.Ready (helper t c) := by
  have awake := closing.awake t (.inr at_)
  have free := free_mutex closing (by rw [at_]; rfl)
  have idle (outside : c.loop ≠ .passing) (step : (c.loopStep someEnv).isSome) :
      c.Ready (helper t c) := by
    simp only [helper, at_, outside, alive, if_false]
    exact ready_worker step
  cases loop : c.loop with
  | passing =>
    simp only [helper, at_, loop, if_true]
    cases owner : c.threads.passOwner with
    | some u => exact ready_holder closing owner
    | none =>
      apply ready_worker
      have waits : (c.threads.pc worker).waits = true := by
        obtain idle | waits | inside := Pc.background_cases closing.background
        · exact (closing.passing.mp loop idle).elim
        · exact waits
        · have holds := closing.pass.locked worker inside
          rw [owner] at holds
          cases holds
      simpa [loopStep, loop, passStep] using
        Threads.step_waiting waits owner someEnv .backgroundPass
  | asleep => exact (awake.1 loop).elim
  | sleeping => exact (awake.2 loop).elim
  | done => exact (alive loop).elim
  | locking =>
    exact idle (by simp [loop]) (by simp [loopStep, loop, free (by rw [loop]; rfl)])
  | waking timedOut =>
    exact idle (by simp [loop]) (by simp [loopStep, loop, free (by rw [loop]; rfl)])
  | testing => exact idle (by simp [loop]) (by simp [loopStep, loop])
  | asking => exact idle (by simp [loop]) (by simp [loopStep, loop])
  | leaving => exact idle (by simp [loop]) (by simp [loopStep, loop])
  | retesting => exact idle (by simp [loop]) (by simp [loopStep, loop])

theorem ready_helper (closing : c.Closing n t) (inside : c.closing t ≠ .out) :
    c.Ready (helper t c) := by
  have caller (self : helper t c = t) (step : (c.closeStep t).isSome) : c.Ready (helper t c) := by
    rw [self]
    exact ready_caller closing inside step
  cases at_ : c.closing t with
  | out => exact (inside at_).elim
  | storing => exact caller (by simp [helper, at_]) (by simp [closeStep, at_])
  | notifying => exact caller (by simp [helper, at_]) (by simp [closeStep, at_])
  | unlocking => exact caller (by simp [helper, at_]) (by simp [closeStep, at_])
  | joining =>
    by_cases done : c.loop = .done
    · exact caller (by simp [helper, at_, done]) (by simp [closeStep, at_, done])
    · exact ready_joining closing at_ done
  | locking =>
    cases holds : c.loop.holds with
    | true =>
      have held : c.mutex = some worker := (closing.mutex worker).mpr (.inl ⟨rfl, holds⟩)
      simp only [helper, at_, held, if_true]
      apply ready_worker
      cases loop : c.loop with
      | asking | sleeping | leaving => simp [loopStep, loop]
      | _ =>
        rw [loop] at holds
        cases holds
    | false =>
      have free := free_mutex closing (by rw [at_]; rfl) holds
      exact caller (by simp [helper, at_, free]) (by simp [closeStep, at_, free])

/-! ## The theorem -/

/-- **`Close` returns.** In a fair run of the engine every call of `Close` comes
back, and the background thread is gone by then. Fair means that no thread that is
inside a call and can move is passed over forever. No timeout and no wake-up
without a reason has to come. -/
theorem close_returns {e : Engine F} (opened : e.closed = false)
    (run : Runs.Endless (step (F := F))) (starts : run.state 0 = start e)
    (fair : run.Fair Act.actor Ready) {m : Nat} (inside : (run.state m).closing t ≠ .out) :
    ∃ m', m ≤ m' ∧ (run.state m').closing t = .out ∧ (run.state m').loop = .done := by
  have sound : (run.state m).Sound :=
    run.always (fun _ _ _ sound stepped => (step_cases stepped).sound sound)
      (starts ▸ start_sound opened) (Nat.zero_le m)
  obtain ⟨n, few⟩ := sound.few
  have closing : (run.state m).Closing (max n (worker + 1)) t := by
    refine ⟨sound, sound.closed t inside, fun u => sound.others_out inside, by omega, ?_⟩
    intro u above
    rw [few u (by omega)]
    rfl
  obtain ⟨m', later, out⟩ := Runs.Endless.eventually (fun c => c.closing t = .out) fair
    (fun _ _ _ closing stepped => (step_cases stepped).closing closing)
    (fun _ closing inside => ready_helper closing inside)
    (fun _ _ _ closing inside stepped => .inr ((step_cases stepped).lowers closing inside)) closing
  refine ⟨m', later, out, ?_⟩
  have closing' : (run.state m').Closing (max n (worker + 1)) t :=
    run.always (fun _ _ _ closing stepped => (step_cases stepped).closing closing) closing later
  apply closing'.gone closing'.up
  intro u
  by_cases same : u = t
  · rw [same]
    exact out
  · exact closing'.only u same

/-! ## A run in which `Close` returns -/

omit [FloatArith F] in
/-- Nobody waits in a closed engine without calls. -/
theorem calm_after {c : Shutdown ℚ} (done : c.loop = .done) (out : ∀ u, c.closing u = .out)
    (idle : ∀ u, c.threads.pc u = .idle) (u : Nat) : ¬ c.Ready u := by
  rintro ⟨rfl | inside | inside, a, actor, step⟩
  · cases a with
    | call t env op =>
      cases actor
      cases op <;> simp [Shutdown.step] at step
    | close t =>
      cases actor
      simp [Shutdown.step] at step
    | loop env => simp [Shutdown.step, loopStep, done] at step
    | wake => cases actor
  · exact inside (out u)
  · exact inside (idle u)

theorem again_joined : joined.step (.close 1) = some joined := rfl

/-- The engine is closed, and another call of `Close` comes again and again. -/
def closedRun : Runs.Endless (step (F := ℚ)) := .settle run_joined again_joined

theorem closedRun_returns :
    ∃ m, 5 ≤ m ∧ (closedRun.state m).closing 1 = .out ∧ (closedRun.state m).loop = .done :=
  close_returns (e := smallEngine) rfl closedRun rfl
    (Runs.Endless.settle_fair _ _ (calm_after rfl joined_out fun _ => rfl)) (by decide +kernel)

end Shutdown

end ChronosVector
