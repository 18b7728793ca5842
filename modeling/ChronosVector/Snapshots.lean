import ChronosVector.Exact
import ChronosVector.Lib.Runs

/-!
# Snapshots under concurrency

A ring with its producer, the eviction passes and any number of readers, at the
grain of every load and store of `head_` and `tail_`. A snapshot loads the tail
first and the head later, and a pass moves the tail to a place it found in a
snapshot of its own.

* `SensorRing.append_steps`: the producer's steps on its own are `append`;
* `Roles`: the ring, where each role stands, and what was returned so far;
* `RolesInv`: every tail that a role has loaded is behind the tail;
* `snapshots_sane`: every snapshot is an interval of appended indices no longer
  than the ring.
-/

namespace ChronosVector

variable {F : Type}

/-! ## The steps of an append -/

/-- The arguments of `Append`. -/
structure AppendArgs (F : Type) where
  ts : Int64
  vec : Nat → Elem F
  norm : F
  payload : Option (Nat → UInt8)
  scale : F

namespace SensorRing

variable (r : SensorRing F)

/-- The overwrite check, with the head and the tail that were loaded. -/
def countLapped (h t : Nat) : SensorRing F :=
  { r with
    overwriteEvents :=
      if r.shape.capacity ≤ h - t then r.overwriteEvents + 1 else r.overwriteEvents
    overwrittenEntries :=
      if r.shape.capacity ≤ h - t then r.overwrittenEntries + 1 else r.overwrittenEntries }

/-- The writes to the columns at index `h`. -/
def fill (h : Nat) (a : AppendArgs F) : SensorRing F :=
  { r with
    toColumns := (({ r with head := h } : SensorRing F).append a.ts a.vec a.norm a.payload a.scale).toColumns }

/-- The store that publishes index `h`. -/
def publish (h : Nat) : SensorRing F := { r with head := h + 1 }

/-- **Append, step by step.** With nobody in between it is the append as a whole. -/
theorem append_steps (a : AppendArgs F) :
    ((r.countLapped r.head r.tail).fill r.head a).publish r.head =
      r.append a.ts a.vec a.norm a.payload a.scale := rfl

/-- `[begin, end)` for a tail and a head loaded one after the other. -/
def clampBegin (t h : Nat) : Nat := if r.shape.capacity < h - t then h - r.shape.capacity else t

theorem snapshot_steps : r.snapshot = (r.clampBegin r.tail r.head, r.head) := rfl

end SensorRing

/-! ## The three roles -/

inductive ProducerPoint (F : Type)
  | idle
  | headLoaded (a : AppendArgs F) (h : Nat)
  | tailLoaded (a : AppendArgs F) (h : Nat)
  | filled (a : AppendArgs F) (h : Nat)

/-- Where a pass stands in `EvictSensor`. The resizes and the copy loop, which
store to neither index, are between `ready` and `AdvanceTail`. -/
inductive EvictPoint
  | idle
  | tailLoaded (t : Nat) (windowMs : Int64)
  | scanning (b e i : Nat) (maxTs windowMs : Int64)
  | advancing (b e newTail : Nat) (cutoff : Int64)
  | ready (b newTail : Nat)

/-- A snapshot that was returned: the tail it loaded, its bounds, and how many
appends had been published by then. -/
structure Taken where
  tail : Nat
  b : Nat
  e : Nat
  published : Nat
  deriving DecidableEq

structure Roles (F : Type) where
  ring : SensorRing F
  producer : ProducerPoint F
  pass : EvictPoint
  /-- The tail that each reader within a snapshot has loaded. -/
  reader : Nat → Option Nat
  log : List (AppendArgs F)
  taken : List Taken

inductive RolesAction (F : Type)
  | loadHead (a : AppendArgs F)
  | loadTail
  | fill
  | publish
  | passTail (windowMs : Int64)
  | passHead
  | passRead
  | passGiveUp
  | passAdvance
  | readTail (i : Nat)
  | readHead (i : Nat)

namespace Roles

/-- A ring nobody has used. -/
def start (sh : RingShape) (mem : Columns F) : Roles F :=
  ⟨.new sh mem, .idle, .idle, fun _ => none, [], []⟩

/-- The snapshot that a role returns when it loads the head. -/
def take (c : Roles F) (t : Nat) : Taken where
  tail := t
  b := c.ring.clampBegin t c.ring.head
  e := c.ring.head
  published := c.log.length

def step (c : Roles F) : RolesAction F → Option (Roles F)
  | .loadHead a =>
    match c.producer with
    | .idle => some { c with producer := .headLoaded a c.ring.head }
    | _ => none
  | .loadTail =>
    match c.producer with
    | .headLoaded a h =>
      some { c with ring := c.ring.countLapped h c.ring.tail, producer := .tailLoaded a h }
    | _ => none
  | .fill =>
    match c.producer with
    | .tailLoaded a h => some { c with ring := c.ring.fill h a, producer := .filled a h }
    | _ => none
  | .publish =>
    match c.producer with
    | .filled a h => some { c with ring := c.ring.publish h, producer := .idle, log := c.log ++ [a] }
    | _ => none
  | .passTail windowMs =>
    match c.pass with
    | .idle => some { c with pass := .tailLoaded c.ring.tail windowMs }
    | _ => none
  | .passHead =>
    match c.pass with
    | .tailLoaded t windowMs =>
      let x := c.take t
      let taken := { c with taken := c.taken ++ [x] }
      if x.b = x.e then some { taken with pass := .idle }
      else if windowMs = 0 then some { taken with pass := .ready x.b x.e }
      else some { taken with pass := .scanning x.b x.e x.b Int64.minValue windowMs }
    | _ => none
  | .passRead =>
    match c.pass with
    | .scanning b e i maxTs windowMs =>
      if i < e then
        let t := c.ring.timestampAt i
        some { c with pass := .scanning b e (i + 1) (if maxTs < t then t else maxTs) windowMs }
      else some { c with pass := .advancing b e b (maxTs - windowMs) }
    | .advancing b e newTail cutoff =>
      if newTail < e ∧ c.ring.timestampAt newTail < cutoff then
        some { c with pass := .advancing b e (newTail + 1) cutoff }
      else if newTail = b then some { c with pass := .idle }
      else some { c with pass := .ready b newTail }
    | _ => none
  -- the allocator refuses the scratch
  | .passGiveUp =>
    match c.pass with
    | .ready _ _ => some { c with pass := .idle }
    | _ => none
  | .passAdvance =>
    match c.pass with
    | .ready _ newTail => some { c with ring := c.ring.advanceTail newTail, pass := .idle }
    | _ => none
  | .readTail i =>
    match c.reader i with
    | none => some { c with reader := Function.update c.reader i (some c.ring.tail) }
    | some _ => none
  | .readHead i =>
    match c.reader i with
    | none => none
    | some t =>
      some { c with reader := Function.update c.reader i none, taken := c.taken ++ [c.take t] }

abbrev run (c : Roles F) (acts : List (RolesAction F)) : Option (Roles F) := Runs.run step c acts

/-! ## The invariant -/

/-- What holds of a returned snapshot, of a ring of `cap` entries. -/
structure Sane (cap : Nat) (x : Taken) : Prop where
  loaded : x.tail ≤ x.e
  ordered : x.b ≤ x.e
  short : x.e ≤ x.b + cap
  appended : x.e ≤ x.published

/-- The index that a producer within an append has loaded is the head. -/
def HeadHeld (c : Roles F) : Prop :=
  match c.producer with
  | .idle => True
  | .headLoaded _ h => h = c.ring.head
  | .tailLoaded _ h => h = c.ring.head
  | .filled _ h => h = c.ring.head

/-- Where the pass may move the tail: not back, and not past the head. -/
def TailHeld (c : Roles F) : Prop :=
  match c.pass with
  | .idle => True
  | .tailLoaded t _ => t = c.ring.tail
  | .scanning b e _ _ _ => c.ring.tail ≤ b ∧ b ≤ e ∧ e ≤ c.ring.head
  | .advancing b e newTail _ => c.ring.tail ≤ b ∧ b ≤ newTail ∧ newTail ≤ e ∧ e ≤ c.ring.head
  | .ready b newTail => c.ring.tail ≤ b ∧ b ≤ newTail ∧ newTail ≤ c.ring.head

structure RolesInv (sh : RingShape) (c : Roles F) : Prop where
  shape : c.ring.shape = sh
  ok : c.ring.Ok
  published : c.log.length = c.ring.head
  producer : c.HeadHeld
  pass : c.TailHeld
  readers : ∀ i t, c.reader i = some t → t ≤ c.ring.tail
  taken : ∀ x ∈ c.taken, Sane sh.capacity x

theorem start_inv (sh : RingShape) (mem : Columns F) : RolesInv sh (start sh mem) where
  shape := rfl
  ok := SensorRing.new_ok sh mem
  published := rfl
  producer := trivial
  pass := trivial
  readers := by
    intro i t loaded
    cases loaded
  taken := by
    intro x hx
    cases hx

variable {sh : RingShape} {c c' : Roles F} {t : Nat}

/-- **A snapshot is sane** although its tail may be stale and its head fresh. -/
theorem RolesInv.take_sane (inv : RolesInv sh c) (ht : t ≤ c.ring.tail) :
    Sane sh.capacity (c.take t) := by
  have behind : c.ring.tail ≤ c.ring.head := inv.ok
  have appended := inv.published
  have shape := inv.shape
  subst shape
  simp only [take, SensorRing.clampBegin]
  constructor
  · exact Nat.le_trans ht behind
  · dsimp only
    split <;> omega
  · dsimp only
    split <;> omega
  · exact Nat.le_of_eq appended.symm

theorem RolesInv.taken_more (inv : RolesInv sh c) (ht : t ≤ c.ring.tail) :
    ∀ x ∈ c.taken ++ [c.take t], Sane sh.capacity x := by
  intro x hx
  obtain hx | hx := List.mem_append.mp hx
  · exact inv.taken x hx
  · rw [List.mem_singleton.mp hx]
    exact inv.take_sane ht

/-- The head grows; what is loaded stays where it was. -/
theorem RolesInv.publish (inv : RolesInv sh c) {args : AppendArgs F} {h : Nat}
    (at_ : c.producer = .filled args h) :
    RolesInv sh { c with ring := c.ring.publish h, producer := .idle, log := c.log ++ [args] } := by
  have held := inv.producer
  simp only [HeadHeld, at_] at held
  subst held
  have behind : c.ring.tail ≤ c.ring.head := inv.ok
  have pass := inv.pass
  refine { inv with ok := ?_, published := ?_, producer := trivial, pass := ?_ }
  · exact Nat.le_succ_of_le behind
  · simp only [List.length_append, List.length_singleton, inv.published]
    rfl
  · simp only [TailHeld, SensorRing.publish] at pass ⊢
    cases at_ : c.pass with
    | idle => trivial
    | tailLoaded t w => simpa only [at_] using pass
    | scanning b e i m w =>
      simp only [at_] at pass
      exact ⟨pass.1, pass.2.1, Nat.le_succ_of_le pass.2.2⟩
    | advancing b e newTail cutoff =>
      simp only [at_] at pass
      exact ⟨pass.1, pass.2.1, pass.2.2.1, Nat.le_succ_of_le pass.2.2.2⟩
    | ready b newTail =>
      simp only [at_] at pass
      exact ⟨pass.1, pass.2.1, Nat.le_succ_of_le pass.2.2⟩

/-- The pass returns its snapshot, whose bounds are where it may move the tail. -/
theorem RolesInv.passHead (inv : RolesInv sh c) {w : Int64} (at_ : c.pass = .tailLoaded t w)
    (h : c.step .passHead = some c') : RolesInv sh c' ∧ c'.ring = c.ring := by
  have held := inv.pass
  simp only [TailHeld, at_] at held
  subst held
  have ordered := (inv.take_sane (Nat.le_refl _)).ordered
  have fresh : c.ring.tail ≤ (c.take c.ring.tail).b := by
    have behind : c.ring.tail ≤ c.ring.head := inv.ok
    simp only [take, SensorRing.clampBegin]
    split <;> omega
  have taken := inv.taken_more (Nat.le_refl _)
  simp only [step, at_] at h
  split at h
  · cases h
    exact ⟨{ inv with pass := trivial, taken := taken }, rfl⟩
  split at h
  · cases h
    exact ⟨{ inv with pass := ⟨fresh, ordered, Nat.le_refl _⟩, taken := taken }, rfl⟩
  · cases h
    exact ⟨{ inv with pass := ⟨fresh, ordered, Nat.le_refl _⟩, taken := taken }, rfl⟩

/-- The two loops move the new tail within the snapshot. -/
theorem RolesInv.passRead (inv : RolesInv sh c) (h : c.step .passRead = some c') :
    RolesInv sh c' ∧ c'.ring = c.ring := by
  have held := inv.pass
  simp only [step] at h
  cases at_ : c.pass with
  | scanning b e i m w =>
    simp only [TailHeld, at_] at h held
    split at h
    · cases h
      exact ⟨{ inv with pass := held }, rfl⟩
    · cases h
      exact ⟨{ inv with pass := ⟨held.1, Nat.le_refl b, held.2.1, held.2.2⟩ }, rfl⟩
  | advancing b e newTail cutoff =>
    simp only [TailHeld, at_] at h held
    obtain ⟨front, low, high, last⟩ := held
    split at h
    · rename_i more
      cases h
      exact ⟨{ inv with pass := ⟨front, Nat.le_succ_of_le low, more.1, last⟩ }, rfl⟩
    split at h
    · cases h
      exact ⟨{ inv with pass := trivial }, rfl⟩
    · cases h
      exact ⟨{ inv with pass := ⟨front, low, Nat.le_trans high last⟩ }, rfl⟩
  | _ => simp [at_] at h

/-- The tail moves forward, so every loaded tail stays behind it. -/
theorem RolesInv.passAdvance (inv : RolesInv sh c) {b newTail : Nat}
    (at_ : c.pass = .ready b newTail) :
    RolesInv sh { c with ring := c.ring.advanceTail newTail, pass := .idle } ∧
      c.ring.tail ≤ newTail := by
  have held := inv.pass
  simp only [TailHeld, at_] at held
  have forward : c.ring.tail ≤ newTail := Nat.le_trans held.1 held.2.1
  refine ⟨{ inv with ok := held.2.2, pass := trivial, readers := ?_ }, forward⟩
  intro i t loaded
  exact Nat.le_trans (inv.readers i t loaded) forward

theorem readers_update (inv : RolesInv sh c) (i : Nat) {x : Option Nat}
    (hx : ∀ t, x = some t → t ≤ c.ring.tail) :
    ∀ j t, Function.update c.reader i x j = some t → t ≤ c.ring.tail := by
  intro j t loaded
  by_cases eq : j = i
  · subst eq
    rw [Function.update_self] at loaded
    exact hx t loaded
  · rw [Function.update_of_ne eq] at loaded
    exact inv.readers j t loaded

/-- **One step** of any role keeps the invariant and does not move the tail back. -/
theorem step_inv (inv : RolesInv sh c) {a : RolesAction F} (h : c.step a = some c') :
    RolesInv sh c' ∧ c.ring.tail ≤ c'.ring.tail := by
  cases a with
  | loadHead args =>
    simp only [step] at h
    split at h <;> cases h
    exact ⟨{ inv with producer := rfl }, Nat.le_refl _⟩
  | loadTail | fill =>
    have held := inv.producer
    simp only [step] at h
    split at h <;> cases h
    rename_i at_
    simp only [HeadHeld, at_] at held
    exact ⟨{ inv with producer := held }, Nat.le_refl _⟩
  | publish =>
    simp only [step] at h
    split at h <;> cases h
    rename_i at_
    exact ⟨inv.publish at_, Nat.le_refl _⟩
  | passTail w =>
    simp only [step] at h
    split at h <;> cases h
    exact ⟨{ inv with pass := rfl }, Nat.le_refl _⟩
  | passHead =>
    cases at_ : c.pass with
    | tailLoaded t w =>
      obtain ⟨inv', same⟩ := inv.passHead at_ h
      exact ⟨inv', Nat.le_of_eq (congrArg SensorRing.tail same).symm⟩
    | _ => simp [step, at_] at h
  | passRead =>
    obtain ⟨inv', same⟩ := inv.passRead h
    exact ⟨inv', Nat.le_of_eq (congrArg SensorRing.tail same).symm⟩
  | passGiveUp =>
    simp only [step] at h
    split at h <;> cases h
    exact ⟨{ inv with pass := trivial }, Nat.le_refl _⟩
  | passAdvance =>
    simp only [step] at h
    split at h <;> cases h
    rename_i at_
    exact inv.passAdvance at_
  | readTail i =>
    simp only [step] at h
    split at h <;> cases h
    refine ⟨{ inv with readers := readers_update inv i ?_ }, Nat.le_refl _⟩
    rintro t ⟨⟩
    exact Nat.le_refl _
  | readHead i =>
    simp only [step] at h
    split at h <;> cases h
    rename_i t loaded
    refine ⟨{ inv with readers := readers_update inv i ?_, taken := ?_ }, Nat.le_refl _⟩
    · rintro t ⟨⟩
    · exact inv.taken_more (inv.readers i t loaded)

theorem run_inv {acts : List (RolesAction F)} (inv : RolesInv sh c) (h : c.run acts = some c') :
    RolesInv sh c' ∧ c.ring.tail ≤ c'.ring.tail := by
  apply Runs.run_preserves (I := fun c' => RolesInv sh c' ∧ c.ring.tail ≤ c'.ring.tail) ?_
    ⟨inv, Nat.le_refl _⟩ h
  intro c₁ a c₂ inv stepped
  obtain ⟨inv', forward⟩ := step_inv inv.1 stepped
  exact ⟨inv', Nat.le_trans inv.2 forward⟩

/-- **Snapshots are sane** in every run of the three roles: every one returned is
an interval of indices that were appended by then, no longer than the ring; the
tail is never past the head, and it never moves back. -/
theorem snapshots_sane (sh : RingShape) (mem : Columns F) {acts more : List (RolesAction F)}
    (h : (start sh mem).run acts = some c) (h' : c.run more = some c') :
    (∀ x ∈ c.taken, x.tail ≤ x.e ∧ x.b ≤ x.e ∧ x.e ≤ x.b + sh.capacity ∧ x.e ≤ x.published) ∧
      c.ring.head = c.log.length ∧ c.ring.tail ≤ c.ring.head ∧ c.ring.tail ≤ c'.ring.tail := by
  obtain ⟨inv, -⟩ := run_inv (start_inv sh mem) h
  refine ⟨?_, inv.published.symm, inv.ok, (run_inv inv h').2⟩
  intro x hx
  have sane := inv.taken x hx
  exact ⟨sane.loaded, sane.ordered, sane.short, sane.appended⟩

/-- One append, without a step of another role in between. -/
def appendWhole (ts : Int64) : List (RolesAction ℚ) :=
  [.loadHead ⟨ts, fun _ => default, 0, none, 0⟩, .loadTail, .fill, .publish]

/-- The ring of 64 is lapped between the two loads of a reader. -/
theorem lapped_reader_sane :
    ∃ c, (start smallValid.shape (.zero ℚ)).run
        (.readTail 0 :: (List.replicate 65 (appendWhole 1)).flatten ++ [.readHead 0]) = some c ∧
      c.taken = [⟨0, 1, 65, 65⟩] ∧ ∀ x ∈ c.taken, x.e ≤ x.published := by
  have seen : ((start smallValid.shape (.zero ℚ)).run
      (.readTail 0 :: (List.replicate 65 (appendWhole 1)).flatten ++ [.readHead 0])).map
        (fun c => c.taken) = some [⟨0, 1, 65, 65⟩] := by
    decide +kernel
  obtain ⟨c, reached, taken⟩ := Option.map_eq_some_iff.mp seen
  refine ⟨c, reached, taken, ?_⟩
  have still : c.run [] = some c := rfl
  intro x hx
  exact ((snapshots_sane smallValid.shape (.zero ℚ) reached still).1 x hx).2.2.2

end Roles

end ChronosVector
