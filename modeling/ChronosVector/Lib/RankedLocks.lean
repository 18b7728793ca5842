import Mathlib.Algebra.BigOperators.Fin
import Mathlib.Algebra.Order.BigOperators.Group.Finset
import Mathlib.Data.Fintype.Basic

/-!
# Locks taken in the order of their ranks

Threads that take shared and exclusive locks in scopes. Which waiter a lock lets
in is left to a policy.

* `Code`, `Code.Fits`: nested scopes, and that every lock ranks above those held
  around it;
* `goes_on`: whatever the policy, a system whose code fits is never stuck;
* `every_run_ends`: it can only stop when all threads are done, and it stops;
* `self_blocked`: a thread that waits for a lock it holds never gets done.
-/

namespace RankedLocks

inductive Mode
  | shared
  | exclusive
  deriving DecidableEq

/-- Two holders of one lock that exclude each other. -/
def Mode.conflicts (m k : Mode) : Prop := m = .exclusive ∨ k = .exclusive

instance (m k : Mode) : Decidable (m.conflicts k) :=
  inferInstanceAs (Decidable (m = .exclusive ∨ k = .exclusive))

/-- A `release` gives up the lock taken last. -/
inductive Act (L : Type)
  | acquire (l : L) (m : Mode)
  | release

/-- Code as its locking, a scope for each guard. -/
inductive Code (L : Type)
  | skip
  | seq (a b : Code L)
  | scope (l : L) (m : Mode) (body : Code L)

section
variable {L : Type}

namespace Code

def acts : Code L → List (Act L)
  | skip => []
  | seq a b => a.acts ++ b.acts
  | scope l m body => .acquire l m :: (body.acts ++ [.release])

/-- One code after the other. -/
def all : List (Code L) → Code L
  | [] => skip
  | c :: rest => c.seq (all rest)

/-- Code that takes no lock. -/
def Lockless : Code L → Prop
  | skip => True
  | seq a b => a.Lockless ∧ b.Lockless
  | scope .. => False

theorem all_lockless {codes : List (Code L)} (h : ∀ c ∈ codes, c.Lockless) :
    (all codes).Lockless := by
  induction codes with
  | nil => trivial
  | cons c rest ih =>
    obtain ⟨first, rest⟩ := List.forall_mem_cons.mp h
    exact ⟨first, ih rest⟩

end Code

structure Thread (L : Type) where
  held : List (L × Mode)
  todo : List (Act L)

namespace Thread

def Waits (t : Thread L) (l : L) (m : Mode) : Prop := ∃ rest, t.todo = .acquire l m :: rest

def Holds (t : Thread L) (l : L) (m : Mode) : Prop := (l, m) ∈ t.held

end Thread

variable {T : Type}

/-- Which waiters a lock lets in. No waiter that its holders exclude, and where
nobody holds the lock one of the waiters. -/
structure Policy (T L : Type) where
  grants : (T → Thread L) → T → L → Prop
  safe : ∀ {c t l m}, grants c t l → (c t).Waits l m →
    ∀ u k, (c u).Holds l k → ¬ m.conflicts k
  serves : ∀ {c t l m}, (c t).Waits l m → (∀ u k, ¬ (c u).Holds l k) →
    ∃ u k, (c u).Waits l k ∧ grants c u l

/-- Whoever the holders do not exclude. -/
def Policy.eager : Policy T L where
  grants c t l := ∀ m, (c t).Waits l m → ∀ u k, (c u).Holds l k → ¬ m.conflicts k
  safe granted waits := granted _ waits
  serves := fun {_ t _ m} waits free =>
    ⟨t, m, waits, fun _ _ u k holds => absurd holds (free u k)⟩

/-- The same, but a reader lets the waiting writers go first. -/
def Policy.writersFirst : Policy T L where
  grants c t l := (∀ m, (c t).Waits l m → ∀ u k, (c u).Holds l k → ¬ m.conflicts k) ∧
    ((c t).Waits l .exclusive ∨ ∀ u, ¬ (c u).Waits l .exclusive)
  safe granted waits := granted.1 _ waits
  serves := by
    intro c t l m waits free
    by_cases writer : ∃ u, (c u).Waits l .exclusive
    · obtain ⟨u, exclusive⟩ := writer
      exact ⟨u, _, exclusive, fun _ _ v k holds => absurd holds (free v k), .inl exclusive⟩
    · exact ⟨t, m, waits, fun _ _ v k holds => absurd holds (free v k), .inr (not_exists.mp writer)⟩

section
variable [DecidableEq T] (P : Policy T L)

/-- A step of thread `t`. -/
inductive Step (c : T → Thread L) (t : T) : (T → Thread L) → Prop
  | acquire (l : L) (m : Mode) (rest : List (Act L)) (next : (c t).todo = .acquire l m :: rest)
      (granted : P.grants c t l) : Step c t (Function.update c t ⟨(l, m) :: (c t).held, rest⟩)
  | release (k : L × Mode) (held : List (L × Mode)) (rest : List (Act L))
      (holds : (c t).held = k :: held) (next : (c t).todo = .release :: rest) :
      Step c t (Function.update c t ⟨held, rest⟩)

/-- `n` steps. -/
inductive Run : (T → Thread L) → Nat → (T → Thread L) → Prop
  | refl (c) : Run c 0 c
  | snoc {c c' c'' n t} (run : Run c n c') (step : Step P c' t c'') : Run c (n + 1) c''

end

/-! ## Ranks -/

section
variable (rank : L → Nat)

/-- Each lock is taken above those held, and all are given up in the end. -/
def Ranked : List L → List (Act L) → Prop
  | held, [] => held = []
  | held, .acquire l _ :: rest => (∀ k ∈ held, rank k < rank l) ∧ Ranked (l :: held) rest
  | [], .release :: _ => False
  | _ :: held, .release :: rest => Ranked held rest

/-- The same of code that runs with the locks in `held`. -/
def Code.Fits : List L → Code L → Prop
  | _, .skip => True
  | held, .seq a b => a.Fits held ∧ b.Fits held
  | held, .scope l _ body => (∀ k ∈ held, rank k < rank l) ∧ body.Fits (l :: held)

instance Code.decidableFits : ∀ (held : List L) (c : Code L), Decidable (c.Fits rank held)
  | _, .skip => isTrue trivial
  | held, .seq a b =>
    have := decidableFits held a
    have := decidableFits held b
    inferInstanceAs (Decidable (a.Fits rank held ∧ b.Fits rank held))
  | held, .scope l _ body =>
    have := decidableFits (l :: held) body
    inferInstanceAs (Decidable ((∀ k ∈ held, rank k < rank l) ∧ body.Fits rank (l :: held)))

variable {rank} {held : List L}

theorem Code.Fits.ranked {code : Code L} {rest : List (Act L)} (h : code.Fits rank held)
    (later : Ranked rank held rest) : Ranked rank held (code.acts ++ rest) := by
  induction code generalizing held rest with
  | skip => exact later
  | seq a b iha ihb =>
    rw [Code.acts, List.append_assoc]
    exact iha h.1 (ihb h.2 later)
  | scope l m body ih =>
    rw [Code.acts, List.cons_append, List.append_assoc]
    exact ⟨h.1, ih h.2 later⟩

theorem Code.all_fits {codes : List (Code L)} (h : ∀ c ∈ codes, c.Fits rank held) :
    (Code.all codes).Fits rank held := by
  induction codes with
  | nil => trivial
  | cons c rest ih =>
    obtain ⟨first, rest⟩ := List.forall_mem_cons.mp h
    exact ⟨first, ih rest⟩

theorem Code.Lockless.fits {code : Code L} (h : code.Lockless) : code.Fits rank held := by
  induction code with
  | skip => trivial
  | seq a b iha ihb => exact ⟨iha h.1, ihb h.2⟩
  | scope => cases h

/-- Every thread keeps to the ranks. -/
def Orderly (rank : L → Nat) (c : T → Thread L) : Prop :=
  ∀ t, Ranked rank ((c t).held.map Prod.fst) (c t).todo

variable [DecidableEq T] {P : Policy T L} {c c' : T → Thread L} {t : T} {n : Nat}

theorem step_orderly (h : Orderly rank c) (step : Step P c t c') : Orderly rank c' := by
  intro u
  have own := h t
  cases step with
  | acquire l m rest next =>
    by_cases same : u = t
    · subst same
      rw [next] at own
      simpa using own.2
    · rw [Function.update_of_ne same]
      exact h u
  | release k held rest holds next =>
    by_cases same : u = t
    · subst same
      rw [next, holds] at own
      simpa [Ranked] using own
    · rw [Function.update_of_ne same]
      exact h u

theorem run_orderly (h : Orderly rank c) (run : Run P c n c') : Orderly rank c' := by
  induction run with
  | refl => exact h
  | snoc _ step ih => exact step_orderly ih step

/-- A thread that is not waiting has its lock to give up. -/
theorem release_step (h : Orderly rank c) {rest : List (Act L)}
    (next : (c t).todo = .release :: rest) : ∃ c', Step P c t c' := by
  have own := h t
  rw [next] at own
  cases holds : (c t).held with
  | nil =>
    rw [holds] at own
    exact own.elim
  | cons k held => exact ⟨_, .release k held rest holds next⟩

/-- **Waiting is not for ever.** Where a thread waits, some thread can step: the
induction is on how far the lock is from the highest rank, since its holder can
only wait for a higher one. -/
theorem waiting_step {top : Nat} (bound : ∀ l, rank l ≤ top) (h : Orderly rank c) {l : L}
    {m : Mode} (waits : (c t).Waits l m) : ∃ u c', Step P c u c' := by
  induction far : top - rank l using Nat.strong_induction_on generalizing t l m with
  | _ far ih =>
  by_cases free : ∀ u k, ¬ (c u).Holds l k
  · obtain ⟨u, k, ⟨rest, next⟩, granted⟩ := P.serves waits free
    exact ⟨u, _, .acquire l k rest next granted⟩
  · push Not at free
    obtain ⟨u, k, holds⟩ := free
    have own := h u
    have mem : l ∈ (c u).held.map Prod.fst := List.mem_map_of_mem (f := Prod.fst) holds
    cases todo : (c u).todo with
    | nil =>
      rw [todo] at own
      have none : (c u).held.map Prod.fst = [] := own
      rw [none] at mem
      cases mem
    | cons a rest =>
      cases a with
      | release =>
        obtain ⟨c', step⟩ := release_step (P := P) h todo
        exact ⟨u, c', step⟩
      | acquire l' m' =>
        rw [todo] at own
        have higher : rank l < rank l' := own.1 l mem
        have below := bound l'
        exact ih (top - rank l') (by omega) ⟨rest, todo⟩ rfl

/-- **No deadlock.** Under every policy, as long as a thread is not done, some
thread can step. -/
theorem goes_on {top : Nat} (bound : ∀ l, rank l ≤ top) (h : Orderly rank c)
    (working : (c t).todo ≠ []) : ∃ u c', Step P c u c' := by
  cases todo : (c t).todo with
  | nil => exact absurd todo working
  | cons a rest =>
    cases a with
    | acquire l m => exact waiting_step bound h ⟨rest, todo⟩
    | release =>
      obtain ⟨c', step⟩ := release_step (P := P) h todo
      exact ⟨t, c', step⟩

variable [Fintype T]

/-- What is left to do. -/
def work (c : T → Thread L) : Nat := ∑ t, (c t).todo.length

theorem work_update (c : T → Thread L) (t : T) (x : Thread L)
    (less : x.todo.length + 1 = (c t).todo.length) : work (Function.update c t x) + 1 = work c := by
  have rest : ∀ u ∈ Finset.univ.erase t,
      (Function.update c t x u).todo.length = (c u).todo.length := by
    intro u mem
    rw [Function.update_of_ne (Finset.ne_of_mem_erase mem)]
  rw [work, work, ← Finset.add_sum_erase _ _ (Finset.mem_univ t),
    ← Finset.add_sum_erase _ _ (Finset.mem_univ t), Finset.sum_congr rfl rest,
    Function.update_self]
  omega

theorem step_work (step : Step P c t c') : work c' + 1 = work c := by
  cases step with
  | acquire l m rest next => exact work_update c t _ (by rw [next]; rfl)
  | release k held rest holds next => exact work_update c t _ (by rw [next]; rfl)

theorem run_work (run : Run P c n c') : n + work c' = work c := by
  induction run with
  | refl => exact Nat.zero_add _
  | snoc _ step ih =>
    have last := step_work step
    omega

/-- **Every run ends**, after at most as many steps as there were to do, and where
it cannot go on everybody is done. -/
theorem every_run_ends {top : Nat} (bound : ∀ l, rank l ≤ top) (h : Orderly rank c)
    (run : Run P c n c') :
    n ≤ work c ∧ ((∀ u c'', ¬ Step P c' u c'') → ∀ t, (c' t).todo = [] ∧ (c' t).held = []) := by
  have total := run_work run
  have orderly := run_orderly h run
  refine ⟨by omega, fun stuck t => ?_⟩
  have done : (c' t).todo = [] := by
    by_contra working
    obtain ⟨u, c'', step⟩ := goes_on (P := P) bound orderly working
    exact stuck u c'' step
  have own := orderly t
  rw [done] at own
  exact ⟨done, List.map_eq_nil_iff.mp own⟩

end

/-! ## A thread in its own way -/

/-- Some lock is asked for by a thread that already holds it, and one of the two
is exclusive. -/
def SelfBlocks : List (L × Mode) → List (Act L) → Prop
  | _, [] => False
  | held, .acquire l m :: rest =>
    (∃ k, (l, k) ∈ held ∧ m.conflicts k) ∨ SelfBlocks ((l, m) :: held) rest
  | [], .release :: _ => False
  | _ :: held, .release :: rest => SelfBlocks held rest

/-- The same of code that runs with the locks in `held`. -/
def Code.Reenters : List (L × Mode) → Code L → Prop
  | _, .skip => False
  | held, .seq a b => a.Reenters held ∨ b.Reenters held
  | held, .scope l m body =>
    (∃ k, (l, k) ∈ held ∧ m.conflicts k) ∨ body.Reenters ((l, m) :: held)

theorem Code.all_reenters {held : List (L × Mode)} {codes : List (Code L)} {c : Code L}
    (mem : c ∈ codes) (h : c.Reenters held) : (Code.all codes).Reenters held := by
  induction codes with
  | nil => cases mem
  | cons d rest ih =>
    obtain rfl | mem := List.mem_cons.mp mem
    · exact .inl h
    · exact .inr (ih mem)

theorem Code.selfBlocks_rest {held : List (L × Mode)} {rest : List (Act L)} (code : Code L)
    (h : SelfBlocks held rest) : SelfBlocks held (code.acts ++ rest) := by
  induction code generalizing held rest with
  | skip => exact h
  | seq a b iha ihb =>
    rw [Code.acts, List.append_assoc]
    exact iha (ihb h)
  | scope l m body ih =>
    rw [Code.acts, List.cons_append, List.append_assoc]
    exact .inr (ih h)

theorem Code.Reenters.selfBlocks {held : List (L × Mode)} {code : Code L} (h : code.Reenters held)
    (rest : List (Act L)) : SelfBlocks held (code.acts ++ rest) := by
  induction code generalizing held rest with
  | skip => cases h
  | seq a b iha ihb =>
    rw [Code.acts, List.append_assoc]
    obtain h | h := h
    · exact iha h _
    · exact a.selfBlocks_rest (ihb h rest)
  | scope l m body ih =>
    rw [Code.acts, List.cons_append, List.append_assoc]
    obtain h | h := h
    · exact .inl h
    · exact .inr (ih h _)

variable [DecidableEq T] {P : Policy T L} {c c' : T → Thread L} {t : T} {n : Nat}

theorem step_selfBlocks {u : T} (h : SelfBlocks (c t).held (c t).todo) (step : Step P c u c') :
    SelfBlocks (c' t).held (c' t).todo := by
  by_cases same : t = u
  · subst same
    cases step with
    | acquire l m rest next granted =>
      rw [next] at h
      rw [Function.update_self]
      obtain ⟨k, holds, conflicts⟩ | later := h
      · exact absurd conflicts (P.safe granted ⟨rest, next⟩ t k holds)
      · exact later
    | release k held rest holds next =>
      rw [next, holds] at h
      rw [Function.update_self]
      exact h
  · cases step with
    | acquire => rwa [Function.update_of_ne same]
    | release => rwa [Function.update_of_ne same]

/-- **Never done.** Under no policy does such a thread come to its end. -/
theorem self_blocked (h : SelfBlocks (c t).held (c t).todo) (run : Run P c n c') :
    (c' t).todo ≠ [] := by
  have still : SelfBlocks (c' t).held (c' t).todo := by
    induction run with
    | refl => exact h
    | snoc _ step ih => exact step_selfBlocks ih step
  intro done
  rw [done] at still
  unfold SelfBlocks at still
  cases held : (c' t).held <;> exact still

end

end RankedLocks
