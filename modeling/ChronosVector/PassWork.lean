import Mathlib.Data.Finset.Card
import ChronosVector.DroppedSensor

/-!
# The work of a pass

Who holds `eviction_pass_mu_` can always go on, and has a bounded number of steps
left. On a closed engine nobody new begins to wait for it.

* `PassSound`: the holder is in a pass, at sensors that have rings;
* `step_holder`: the holder is never stuck;
* `waiting`, `passWork`: who may still take the lock, and what its holder has
  left to do;
* `Step.pays`: what one step does to the two.
-/

namespace ChronosVector

variable {F : Type}

/-- Before `eviction_pass_mu_`. -/
def Pc.waits : Pc F → Bool
  | .entering _ _ => true
  | _ => false

theorem Pc.eq_entering {p : Pc F} (h : p.waits = true) : ∃ w flush, p = .entering w flush := by
  cases p with
  | entering w flush => exact ⟨w, flush, rfl⟩
  | _ => cases h

/-- The steps that a pass has left, and one more. -/
def Pc.work : Pc F → Nat
  | .visiting p => 4 * p.rest.length + 1
  | .snapped p _ _ _ => 4 * p.rest.length + 4
  | .copied p _ _ _ => 4 * p.rest.length + 3
  | .moved p _ _ _ => 4 * p.rest.length + 2
  | _ => 0

/-- Outside the calls that change the engine. -/
def Pc.quiet : Pc F → Bool
  | .idle | .reading _ | .summing _ => true
  | _ => false

/-- Between `entering` and the end of a pass that is not that of a `Flush`. -/
def Pc.background : Pc F → Bool
  | .idle | .entering _ none => true
  | .visiting p | .snapped p _ _ _ | .copied p _ _ _ | .moved p _ _ _ => p.flush.isNone
  | _ => false

/-- A pass of the background thread is in front of the lock or inside. -/
theorem Pc.background_cases {p : Pc F} (background : p.background = true) :
    p = .idle ∨ p.waits = true ∨ p.inPass := by
  cases p with
  | idle => exact .inl rfl
  | entering => exact .inr (.inl rfl)
  | visiting | snapped | copied | moved => exact .inr (.inr trivial)
  | _ => cases background

theorem Pc.work_pos {p : Pc F} (h : p.inPass) : 0 < p.work := by
  cases p with
  | visiting | snapped | copied | moved => exact Nat.succ_pos _
  | _ => exact h.elim

namespace Threads

structure PassSound (c : Threads F) : Prop where
  locked : c.Locked
  owner : ∀ u, c.passOwner = some u → (c.pc u).inPass
  ring : ∀ u s, (c.pc u).evicting = some s → (c.engine.ring s).isSome

theorem start_sound (e : Engine F) : (start e).PassSound where
  locked := start_locked e
  owner := nofun
  ring := nofun

/-- The threads below `n` that wait for the pass lock. -/
def waiting (c : Threads F) (n : Nat) : Nat :=
  ((Finset.range n).filter fun u => (c.pc u).waits = true).card

/-- What the holder of the pass lock has left to do. -/
def passWork (c : Threads F) : Nat :=
  match c.passOwner with
  | none => 0
  | some u => (c.pc u).work

section
variable [FloatArith F] {c c' : Threads F} {t : Nat} {env : Env F} {op : ThreadOp F}

/-- On a closed engine no call begins that would change it. -/
theorem quiet_of_closed (closed : c.engine.closed = true) (quiet : (c.pc t).quiet = true)
    (h : c.step t env op = some c') : c'.engine = c.engine ∧ (c'.pc t).quiet = true := by
  have at_ : c.pc t = .idle ∨ ∃ call, c.pc t = .reading call ∨ c.pc t = .summing call := by
    cases pc : c.pc t with
    | idle => exact .inl rfl
    | reading call => exact .inr ⟨call, .inl rfl⟩
    | summing call => exact .inr ⟨call, .inr rfl⟩
    | _ =>
      rw [pc] at quiet
      cases quiet
  obtain idle | ⟨call, reading | summing⟩ := at_
  · simp only [step, idle] at h
    cases op with
    | getStats =>
      cases h
      exact ⟨rfl, by simp [Pc.quiet]⟩
    | _ =>
      simp only [begin, closed, if_true] at h
      cases h
      exact ⟨rfl, quiet⟩
  · simp only [step, reading] at h
    cases h
    exact ⟨rfl, by simp [Pc.quiet]⟩
  · simp only [step, summing] at h
    cases h
    exact ⟨rfl, by simp [Pc.quiet]⟩

/-- While a pass runs, no ring goes away. -/
theorem Step.ring_stays (h : Step c t env op c') (busy : c.passOwner ≠ none) {s : SensorId}
    (ring : (c.engine.ring s).isSome) : (c'.engine.ring s).isSome := by
  have drops : c'.drops = c.drops := by
    cases h with
    | erase _ _ free => exact (busy free).elim
    | _ => rfl
  obtain ⟨r, ring⟩ := Option.isSome_iff_exists.mp ring
  obtain ⟨-, r', ring', -⟩ := (h.map.kept s).ring (congrFun drops s) r ring
  simp [ring']

omit [FloatArith F] in
@[simp] theorem passOwner_goto (p : Pc F) : (c.goto t p).passOwner = c.passOwner := rfl

/-- What a step of thread `t` does to the pass lock. -/
inductive PassStep (c : Threads F) (t : Nat) (c' : Threads F) : Prop
  | outside (before : ¬ (c.pc t).inPass) (after : ¬ (c'.pc t).inPass)
    (owner : c'.passOwner = c.passOwner) (calm : (c.pc t).waits = false)
    (begins : (c'.pc t).waits = true → c.pc t = .idle)
  | enter (at_ : (c.pc t).waits = true) (free : c.passOwner = none)
    (owner : c'.passOwner = some t) (inside : (c'.pc t).inPass)
    (early : (c'.pc t).evicting = none)
  | inside (before : (c.pc t).inPass) (after : (c'.pc t).inPass)
    (owner : c'.passOwner = c.passOwner) (less : (c'.pc t).work < (c.pc t).work)
  | leave (before : (c.pc t).inPass) (after : ¬ (c'.pc t).inPass)
    (owner : c'.passOwner = none) (onward : (c'.pc t).waits = false)

theorem Step.pass (h : Step c t env op c') : PassStep c t c' := by
  cases h with
  | refused at_ =>
    exact .outside (by simp [at_, Pc.inPass]) (by simp [at_, Pc.inPass]) rfl
      (by simp [at_, Pc.waits]) (fun _ => at_)
  | beginFlush at_ =>
    exact .outside (by simp [at_, Pc.inPass]) (by simp [Pc.inPass]) rfl
      (by simp [at_, Pc.waits]) (fun _ => at_)
  | retune at_ =>
    exact .outside (by simp [at_, Pc.inPass]) (by simp [Pc.inPass]) rfl
      (by simp [at_, Pc.waits]) (fun _ => at_)
  | beginPass at_ =>
    exact .outside (by simp [at_, Pc.inPass]) (by simp [Pc.inPass]) rfl
      (by simp [at_, Pc.waits]) (fun _ => at_)
  | enter at_ free =>
    exact .enter (by simp [at_, Pc.waits]) free rfl (by simp [Pc.inPass]) (by simp [Pc.evicting])
  | @leave p at_ =>
    refine .leave (by simp [at_, Pc.inPass]) ?_ rfl ?_
    · cases p.flush <;> simp [Pc.inPass]
    · cases p.flush <;> simp [Pc.waits]
  | skip at_ next =>
    refine .inside (by simp [at_, Pc.inPass]) (by simp [Pc.inPass]) rfl ?_
    simp [at_, next, Pc.work]
  | snap at_ next =>
    refine .inside (by simp [at_, Pc.inPass]) (by simp [Pc.inPass]) rfl ?_
    simp only [pc_goto_self, at_, next, Pc.work, List.length_cons]
    omega
  | copyFailed at_ =>
    refine .inside (by simp [at_, Pc.inPass]) (by simp [Pc.inPass]) rfl ?_
    simp [at_, Pc.work]
  | copy at_ =>
    refine .inside (by simp [at_, Pc.inPass]) (by simp [Pc.inPass]) rfl ?_
    simp [at_, Pc.work]
  | move at_ =>
    refine .inside (by simp [at_, Pc.inPass]) (by simp [Pc.inPass]) rfl ?_
    simp [at_, Pc.work]
  | write at_ =>
    refine .inside (by simp [at_, Pc.inPass]) (by simp [Pc.inPass]) rfl ?_
    simp [at_, Pc.work]
  | found at_ =>
    obtain at_ | at_ := at_
    · exact .outside (by simp [at_, Pc.inPass]) (by simp [Pc.inPass]) rfl
        (by simp [at_, Pc.waits]) (by simp [Pc.waits])
    · exact .outside (by simp [at_, Pc.inPass]) (by simp [Pc.inPass]) rfl
        (by simp [at_, Pc.waits]) (by simp [Pc.waits])
  | ingest at_ | erase at_ | readEvents at_ | missed at_ | failed at_ | attach at_ | stale at_
  | store at_ | counted at_ | delete at_ | sync at_ | readEntries at_ | report at_ =>
    exact .outside (by simp [at_, Pc.inPass]) (by simp [Pc.inPass]) rfl
      (by simp [at_, Pc.waits]) (by simp [Pc.waits])

theorem Step.sound (h : Step c t env op c') (sound : c.PassSound) : c'.PassSound where
  locked := h.locked sound.locked
  owner := by
    intro u holds
    have stays (owner : c'.passOwner = c.passOwner) (mine : u = t → (c'.pc t).inPass) :
        (c'.pc u).inPass := by
      by_cases same : u = t
      · rw [same]
        exact mine same
      · rw [h.pc_of_ne same]
        exact sound.owner u (owner ▸ holds)
    cases h.pass with
    | outside before _ owner =>
      refine stays owner ?_
      rintro rfl
      exact (before (sound.owner _ (owner ▸ holds))).elim
    | enter _ _ owner inside _ =>
      rw [owner, Option.some.injEq] at holds
      exact holds ▸ inside
    | inside _ after owner => exact stays owner fun _ => after
    | leave _ _ owner =>
      rw [owner] at holds
      cases holds
  ring := by
    intro u s at_
    have busy : c.passOwner ≠ none := by
      by_cases same : u = t
      · have before : (c.pc t).inPass := by
          subst same
          cases h.pass with
          | outside _ after => exact (after (evicting_inPass at_)).elim
          | enter _ _ _ _ early =>
            rw [early] at at_
            cases at_
          | inside before => exact before
          | leave before => exact before
        simp [sound.locked t before]
      · rw [h.pc_of_ne same] at at_
        simp [sound.locked u (evicting_inPass at_)]
    obtain before | ring := h.evicting at_
    · exact h.ring_stays busy (sound.ring u s before)
    · exact h.ring_stays busy ring

/-- The holder of the pass lock is never stuck. -/
theorem step_holder (sound : c.PassSound) (holds : c.passOwner = some t) (env : Env F)
    (op : ThreadOp F) : (c.step t env op).isSome := by
  have inside := sound.owner t holds
  have ring {s : SensorId} (at_ : (c.pc t).evicting = some s) :
      ∃ r next, c.engine.sensors.lookup s = some ⟨some r, next⟩ := by
    obtain ⟨r, ring⟩ := Option.isSome_iff_exists.mp (sound.ring t s at_)
    obtain ⟨⟨_, next⟩, found, rfl⟩ := Option.bind_eq_some_iff.mp ring
    exact ⟨r, next, found⟩
  cases at_ : c.pc t with
  | visiting p =>
    cases rest : p.rest with
    | nil => simp [step, at_, rest]
    | cons => simp [step, at_, rest]
  | snapped =>
    obtain ⟨r, next, found⟩ := ring (by rw [at_]; rfl)
    simp [step, at_, ring_of_lookup found]
  | copied =>
    obtain ⟨r, next, found⟩ := ring (by rw [at_]; rfl)
    simp [step, at_, found]
  | moved =>
    obtain ⟨r, next, found⟩ := ring (by rw [at_]; rfl)
    simp [step, at_, found]
  | _ => simp [at_, Pc.inPass] at inside

/-- While nobody holds the pass lock, a thread in front of it is not stuck. -/
theorem step_waiting (at_ : (c.pc t).waits = true) (free : c.passOwner = none) (env : Env F)
    (op : ThreadOp F) : (c.step t env op).isSome := by
  obtain ⟨w, flush, pc⟩ := Pc.eq_entering at_
  simp [step, pc, free]

/-! ## What is left to do -/

theorem begins_at_idle (h : Step c t env op c') (waits : (c'.pc t).waits = true)
    (early : (c.pc t).waits = false) : c.pc t = .idle := by
  cases h.pass with
  | outside _ _ _ _ begins => exact begins waits
  | enter at_ =>
    rw [early] at at_
    cases at_
  | inside _ after =>
    obtain ⟨w, flush, pc⟩ := Pc.eq_entering waits
    simp [pc, Pc.inPass] at after
  | leave _ _ _ onward =>
    rw [onward] at waits
    cases waits

/-- On a closed engine nobody new comes to the pass lock. -/
theorem waits_before (h : c.step t env op = some c') (closed : c.engine.closed = true) {u : Nat}
    (waits : (c'.pc u).waits = true) : (c.pc u).waits = true := by
  by_cases same : u = t
  · subst same
    by_contra early
    have idle := begins_at_idle (step_cases h) waits (by simpa using early)
    have quiet := (quiet_of_closed closed (by rw [idle]; rfl) h).2
    obtain ⟨w, flush, pc⟩ := Pc.eq_entering waits
    rw [pc] at quiet
    cases quiet
  · rwa [(step_cases h).pc_of_ne same] at waits

omit [FloatArith F] in
theorem waiting_le {n : Nat} (fewer : ∀ u, (c'.pc u).waits = true → (c.pc u).waits = true) :
    c'.waiting n ≤ c.waiting n :=
  Finset.card_le_card (Finset.monotone_filter_right _ fun u _ => fewer u)

omit [FloatArith F] in
theorem waiting_lt {n : Nat} (fewer : ∀ u, (c'.pc u).waits = true → (c.pc u).waits = true)
    (early : t < n) (before : (c.pc t).waits = true) (after : (c'.pc t).waits = false) :
    c'.waiting n < c.waiting n := by
  apply Finset.card_lt_card
  refine Finset.ssubset_iff_subset_ne.mpr
    ⟨Finset.monotone_filter_right _ fun u _ => fewer u, ?_⟩
  intro same
  have mem : t ∈ (Finset.range n).filter fun u => (c'.pc u).waits = true := by
    rw [same]
    simp [early, before]
  simp [after] at mem

/-- **Progress of the pass lock.** On a closed engine a step lets somebody through
to the lock, or brings its holder nearer to the end, or is that of a thread that
neither holds the lock nor waits for it. -/
theorem step_pays (h : c.step t env op = some c') (closed : c.engine.closed = true)
    (sound : c.PassSound) {n : Nat} (few : ∀ u, n ≤ u → (c.pc u).waits = false) :
    c'.waiting n < c.waiting n ∨ c'.waiting n = c.waiting n ∧
      (c'.passWork < c.passWork ∨ c'.passWork = c.passWork ∧ c'.passOwner = c.passOwner ∧
        c.passOwner ≠ some t ∧ (c.pc t).waits = false) := by
  have fewer := fun u => waits_before h closed (u := u)
  have held (inside : (c.pc t).inPass) : c.passWork = (c.pc t).work := by
    simp [passWork, sound.locked t inside]
  cases (step_cases h).pass with
  | enter at_ free owner inside =>
    refine .inl (waiting_lt fewer ?_ at_ ?_)
    · by_contra late
      rw [few t (by omega)] at at_
      cases at_
    · by_contra waits
      obtain ⟨w, flush, pc⟩ := Pc.eq_entering (by simpa using waits)
      simp [pc, Pc.inPass] at inside
  | inside before _ owner less =>
    refine (Nat.lt_or_eq_of_le (waiting_le fewer)).imp id fun same => ⟨same, .inl ?_⟩
    rw [held before, passWork, owner, sound.locked t before]
    exact less
  | leave before _ owner =>
    refine (Nat.lt_or_eq_of_le (waiting_le fewer)).imp id fun same => ⟨same, .inl ?_⟩
    rw [held before, passWork, owner]
    exact Pc.work_pos before
  | outside before _ owner calm =>
    refine (Nat.lt_or_eq_of_le (waiting_le fewer)).imp id fun same => ⟨same, .inr ?_⟩
    have notMine : c.passOwner ≠ some t := fun holds => before (sound.owner t holds)
    refine ⟨?_, owner, notMine, calm⟩
    rw [passWork, passWork, owner]
    split
    · rfl
    · rename_i u holds
      have other : u ≠ t := by
        rintro rfl
        exact notMine holds
      rw [(step_cases h).pc_of_ne other]

end

end Threads

end ChronosVector
