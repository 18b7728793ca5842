import ChronosVector.RowPlaces

/-!
# The invariant of a sensor's present life

Along a settled schedule every row of the present life that was not overwritten
is accounted for, and every flush pays for the rows it answers for.

* `Inv`: the invariant, of one sensor and all threads;
* `placed_step`, `pending_step`, `pass_step`: what a change of the view keeps;
* `Step.pass_own`, `Step.flush_own`: what the moving thread knows and owes;
* `Step.inv`: one step.
-/

namespace ChronosVector

variable {F : Type}

namespace Threads

open View

section
variable [FloatArith F] {c c' : Threads F} {t : Nat} {s : SensorId} {v v' : View F}

/-- An index that a pass has moved the tail past but not written. -/
def HeldBy (pc : Nat → Pc F) (s : SensorId) (idx : Nat) : Prop :=
  ∃ u p b n, pc u = .moved p s b n ∧ b ≤ idx ∧ idx < n

structure Inv (s : SensorId) (c : Threads F) : Prop where
  persists : c.engine.backend.persists = true
  locked : c.Locked
  ring : ∀ r next, (c.view s).slot = some ⟨some r, next⟩ → r.Ok
  known : ∀ x, (c.view s).rows x → (c.view s).Known x
  placed : ∀ x, (c.view s).rows x → x.ring.life = (c.view s).drops →
    ∀ r next, (c.view s).slot = some ⟨some r, next⟩ → (c.view s).Placed (HeldBy c.pc s) x r
  pending : ∀ u, (c.pc u).dropping = some s → ∀ slot, (c.view s).slot = some slot →
    slot.nextBlockId = 0
  pass : ∀ u, (c.view s).PassOk s (c.pc u)
  flush : ∀ u, (c.view s).FlushOk s (c.pc u)
  flushed : (c.view s).Owed s [] 0 c.flushed

omit [FloatArith F] in
theorem HeldBy.step {pc pc' : Nat → Pc F} {idx : Nat} (h : HeldBy pc s idx)
    (others : ∀ u, u ≠ t → pc' u = pc u) (stays : ∀ p b n, pc t ≠ .moved p s b n) :
    HeldBy pc' s idx := by
  obtain ⟨u, p, b, n, at_, range⟩ := h
  have other : u ≠ t := by
    rintro rfl
    exact stays p b n at_
  exact ⟨u, p, b, n, (others u other).trans at_, range⟩

omit [FloatArith F] in
/-- Only the holder of the pass lock holds rows. -/
theorem HeldBy.mine {idx : Nat} (h : HeldBy c.pc s idx) (locked : c.Locked)
    (inside : (c.pc t).inPass) : ∃ p b n, c.pc t = .moved p s b n ∧ b ≤ idx ∧ idx < n := by
  obtain ⟨u, p, b, n, at_, range⟩ := h
  have owner := locked u (by rw [at_]; trivial)
  rw [locked t inside, Option.some.injEq] at owner
  exact ⟨p, b, n, owner ▸ at_, range⟩

theorem ViewStep.ring (h : ViewStep s c t v v') (pass : v.PassOk s (c.pc t))
    (ok : ∀ r next, v.slot = some ⟨some r, next⟩ → r.Ok) :
    ∀ r next, v'.slot = some ⟨some r, next⟩ → r.Ok := by
  intro r' next' slot'
  cases h with
  | erase => cases slot'
  | attach =>
    cases slot'
    exact SensorRing.new_ok _ _
  | store _ slot =>
    cases slot'
    exact SensorRing.ingest_ok (ok _ _ slot) _ _ _ _
  | move at_ slot =>
    cases slot'
    rw [at_] at pass
    obtain ⟨r, next, slot₂, -, -, hi, -⟩ := (pass rfl).1
    cases slot.symm.trans slot₂
    exact SensorRing.advanceTail_ok hi
  | write _ slot =>
    cases slot'
    exact ok _ _ slot
  | _ => exact ok r' next' slot'

theorem ViewStep.known (h : ViewStep s c t v v') (keeps : Keeps v v')
    (known : ∀ x, v.rows x → v.Known x) : ∀ x, v'.rows x → v'.Known x := by
  intro x mem
  cases h with
  | @store p rows count r next dim row _ slot =>
    obtain ⟨old, -⟩ | rfl := mem
    · exact keeps.known x (known x old)
    · refine ⟨Nat.le_refl _, fun _ => ⟨rfl, _, next, rfl, ?_⟩⟩
      rw [SensorRing.ingest_head]
      exact Nat.lt_succ_self _
  | _ => exact keeps.known x (known x mem)

omit [FloatArith F] in
/-- A row the step does not touch. -/
theorem Inv.placed_still (inv : Inv s c) (keeps : Keeps (c.view s) v') {pc' : Nat → Pc F}
    (others : ∀ u, u ≠ t → pc' u = c.pc u) (stays : ∀ p b n, c.pc t ≠ .moved p s b n)
    {x : Appended F} {r : SensorRing F} {next : Nat} (mem : (c.view s).rows x)
    (life : x.ring.life = v'.drops) (slot : (c.view s).slot = some ⟨some r, next⟩) :
    v'.Placed (HeldBy pc' s) x r := by
  have known := inv.known x mem
  have place := inv.placed x mem (keeps.life x known life) r next slot
  exact place.mono (fun held => held.step others stays) (keeps.cold x known life)

/-- Rows stay placed. -/
theorem Inv.placed_step (inv : Inv s c) (h : ViewStep s c t (c.view s) v')
    (keeps : Keeps (c.view s) v') {pc' : Nat → Pc F} (others : ∀ u, u ≠ t → pc' u = c.pc u)
    (moves : ∀ p b n, c.pc t = .copied p s b n → pc' t = .moved p s b n) :
    ∀ x, v'.rows x → x.ring.life = v'.drops → ∀ r next, v'.slot = some ⟨some r, next⟩ →
      v'.Placed (HeldBy pc' s) x r := by
  intro x mem life r' next' slot'
  cases h with
  | same stays => exact inv.placed_still keeps others stays mem life slot'
  | erase => cases slot'
  | attach _ _ bare =>
    obtain ⟨-, r, next, slot, -⟩ := (inv.known x mem).ring life
    obtain bare | ⟨bare, -⟩ := bare
    · cases slot.symm.trans bare
    · cases slot.symm.trans bare
  | @store p rows count r next dim row at_ slot =>
    cases slot'
    have stays : ∀ p b n, c.pc t ≠ .moved p s b n := by simp [at_]
    have ok := inv.ring r next' slot
    obtain ⟨old, kept⟩ | rfl := mem
    · obtain ⟨ring, r₂, next₂, slot₂, index⟩ := (inv.known x old).ring life
      cases slot.symm.trans slot₂
      have place := inv.placed_still keeps others stays old life slot
      refine place.ingest index fun full => kept ⟨?_, full⟩
      exact congr (congr (congrArg RingPtr.mk old.2) ring) life
    · exact placed_ingested ok rfl rfl
  | delete at_ => exact inv.placed_still keeps others (by simp [at_]) mem life slot'
  | reserve _ at_ => exact inv.placed_still keeps others (by simp [at_]) mem life slot'
  | copy at_ => exact inv.placed_still keeps others (by simp [at_]) mem life slot'
  | @move p b n r next at_ slot =>
    cases slot'
    have place := inv.placed_still keeps others (by simp [at_]) mem life slot
    have pass := inv.pass t
    rw [at_] at pass
    obtain ⟨r₂, next₂, slot₂, lo, le, hi, start⟩ := (pass rfl).1
    cases slot.symm.trans slot₂
    refine ⟨fun hot => place.hot (Nat.le_trans (Nat.le_trans lo le) hot), ?_⟩
    intro past
    obtain before | here := Nat.lt_or_ge x.index r.tail
    · exact place.out before
    · -- rows below the range were overwritten, the others are in it
      obtain ⟨near, -⟩ := place.hot here
      refine .inl ⟨t, p, b, n, moves p b n at_, ?_, past⟩
      omega
  | @write p b n r next at_ slot whole =>
    cases slot'
    have pass := inv.pass t
    rw [at_] at pass
    obtain ⟨⟨r₂, next₂, slot₂, tail, -⟩, copy⟩ := pass rfl
    cases slot.symm.trans slot₂
    have place := inv.placed x mem life r' next slot
    refine ⟨place.hot, ?_⟩
    intro past
    obtain held | cold := place.out past
    · obtain ⟨p', b', n', at_', lo, hi⟩ := held.mine inv.locked (by rw [at_]; trivial)
      rw [at_] at at_'
      cases at_'
      exact .inr (cold_of_write slot copy whole mem life lo hi)
    · exact .inr (keeps.cold x (inv.known x mem) life cold)

/-- A delete that is pending finds no id given out. -/
theorem Inv.pending_step (inv : Inv s c) (h : ViewStep s c t (c.view s) v') {u : Nat}
    (dropping : (c.pc u).dropping = some s) :
    ∀ slot, v'.slot = some slot → slot.nextBlockId = 0 := by
  intro slot' found
  cases h with
  | erase => cases found
  | attach _ _ bare =>
    cases found
    obtain bare | ⟨-, rfl⟩ := bare
    · have zero := inv.pending u dropping _ bare
      exact zero
    · rfl
  | store _ slot =>
    cases found
    have zero := inv.pending u dropping _ slot
    exact zero
  | move _ slot =>
    cases found
    have zero := inv.pending u dropping _ slot
    exact zero
  | write _ _ _ alone => exact (alone u dropping).elim
  | _ => exact inv.pending u dropping slot' found

/-- A pass at the sensor is not disturbed by the other threads. -/
theorem Inv.pass_step (inv : Inv s c) (h : ViewStep s c t (c.view s) v') {u : Nat}
    (other : u ≠ t) : v'.PassOk s (c.pc u) := by
  by_cases inside : (c.pc u).inPass
  · have owner := inv.locked u inside
    have mine {p : Pc F} (at_ : c.pc t = p) : ¬ p.inPass := by
      intro inside'
      have owner' := inv.locked t (at_ ▸ inside')
      rw [owner, Option.some.injEq] at owner'
      exact other owner'
    have taken : c.passOwner ≠ none := by
      rw [owner]
      exact Option.some_ne_none u
    have pass := inv.pass u
    cases h with
    | same => exact pass
    | erase _ free => exact (taken free).elim
    | attach _ free => exact (taken free).elim
    | @store p rows count r next dim row _ slot =>
      generalize c.pc u = q at pass
      cases q with
      | snapped _ s' b n => exact fun own => (pass own).store slot
      | copied _ s' b n =>
        intro own
        obtain ⟨range, copy⟩ := pass own
        obtain ⟨r₂, next₂, slot₂, -, -, hi, -⟩ := id range
        cases slot.symm.trans slot₂
        exact ⟨range.store slot, copy.store slot hi⟩
      | moved _ s' b n =>
        intro own
        obtain ⟨⟨r₂, next₂, slot₂, tail, hi⟩, copy⟩ := pass own
        cases slot.symm.trans slot₂
        refine ⟨⟨_, next, rfl, ?_, ?_⟩, copy.store slot hi⟩
        · rw [SensorRing.ingest_tail, tail]
        · rw [SensorRing.ingest_head]
          omega
      | _ => trivial
    | delete =>
      generalize c.pc u = q at pass
      cases q <;> exact pass
    | reserve _ at_ => exact (mine at_ trivial).elim
    | copy at_ => exact (mine at_ trivial).elim
    | move at_ => exact (mine at_ trivial).elim
    | write at_ => exact (mine at_ trivial).elim
  · generalize c.pc u = q at inside
    cases q <;> first | trivial | exact (inside trivial).elim

omit [FloatArith F] in
theorem inRange_of_snapshot {r : SensorRing F} {next : Nat} (w : Int64)
    (slot : v.slot = some ⟨some r, next⟩) (ok : r.Ok) :
    v.InRange r.snapshot.1 (r.newTail w) := by
  have le := SensorRing.snapshot_le ok
  have count := evictCount_le w r.window
  rw [SensorRing.window_length] at count
  unfold SensorRing.Ok at ok
  refine ⟨r, next, slot, ?_, ?_, ?_, ?_⟩
  · simp only [SensorRing.snapshot]
    split <;> omega
  · rw [SensorRing.newTail_eq ok]
    omega
  · rw [SensorRing.newTail_eq ok]
    have head : r.snapshot.2 = r.head := rfl
    omega
  · simp only [SensorRing.snapshot]
    split <;> omega

theorem hasCopy_of_copy {r : SensorRing F} {next b n : Nat} (inv : Inv s c)
    (slot : (c.view s).slot = some ⟨some r, next⟩) (range : (c.view s).InRange b n)
    (sc : EvictScratch F) :
    HasCopy { c.view s with scratch := sc.copyRows r b (n - b) } b n := by
  obtain ⟨r₂, next₂, slot₂, lo, -, -, -⟩ := range
  cases slot.symm.trans slot₂
  intro r' next' slot' x mem life from_ lt
  cases slot.symm.trans slot'
  obtain ⟨-, same⟩ := (inv.placed x mem life r next slot).hot (Nat.le_trans lo from_)
  have holds : (sc.copyRows r b (n - b)).Holds r (b + (x.index - b)) (x.index - b) :=
    EvictScratch.copyRows_holds (by omega)
  rw [Nat.add_sub_cancel' from_] at holds
  exact (EvictScratch.rowAt_of_holds holds).trans same

variable {env : Env F} {op : ThreadOp F}

/-- What the moving thread knows after its step. -/
theorem Step.pass_own (h : Step c t env op c') (inv : Inv s c) :
    (c'.view s).PassOk s (c'.pc t) := by
  cases h with
  | refused => exact inv.pass t
  | @snap p s' rest r at_ _ ring =>
    rw [pc_goto_self]
    intro own
    subst own
    obtain ⟨next, slot⟩ := Engine.slot_of_ring ring
    exact inRange_of_snapshot p.windowMs slot (inv.ring r next slot)
  | @copy p s' b n r at_ ring =>
    rw [pc_goto_self]
    intro own
    subst own
    obtain ⟨next, slot⟩ := Engine.slot_of_ring ring
    have pass := inv.pass t
    rw [at_] at pass
    have range := pass rfl
    exact ⟨range, hasCopy_of_copy inv slot range _⟩
  | @move p s' b n r next at_ slot =>
    rw [pc_goto_self]
    intro own
    subst own
    have pass := inv.pass t
    rw [at_] at pass
    obtain ⟨⟨r₂, next₂, slot₂, -, -, hi, -⟩, copy⟩ := pass rfl
    cases slot.symm.trans slot₂
    refine ⟨⟨_, next, AList.lookup_insert _, rfl, hi⟩, ?_⟩
    intro r' next' slot'
    cases (AList.lookup_insert _).symm.trans slot'
    exact copy r next slot
  | @leave p =>
    rw [pc_goto_self]
    cases p.flush <;> trivial
  | _ =>
    rw [pc_goto_self]
    trivial

omit [FloatArith F] in
/-- Past its last look at the sensor, a flush has left nothing behind the tail
that is not persisted. -/
theorem Inv.cold_of_past (inv : Inv s c) (inside : (c.pc t).inPass)
    (away : ∀ p b n, c.pc t ≠ .moved p s b n) {x : Appended F} (mem : (c.view s).rows x)
    (life : x.ring.life = (c.view s).drops) {r : SensorRing F} {next : Nat}
    (slot : (c.view s).slot = some ⟨some r, next⟩) (past : x.index < r.tail) :
    (c.view s).Cold x := by
  obtain held | cold := (inv.placed x mem life r next slot).out past
  · obtain ⟨p, b, n, at_, -⟩ := held.mine inv.locked inside
    exact (away p b n at_).elim
  · exact cold

omit [FloatArith F] in
/-- A flush that skips the sensor has nothing to do there. -/
theorem Inv.owed_skip (inv : Inv s c) {p : PassRun F} {s' : SensorId} {rest : List SensorId}
    {due : List (Appended F)} (at_ : c.pc t = .visiting p) (next : p.rest = s' :: rest)
    (nothing : ∀ r, c.engine.ring s' = some r →
      r.snapshot.1 = r.snapshot.2 ∨ r.newTail p.windowMs = r.snapshot.1)
    (flush : p.windowMs = 0 ∧ (c.view s).Owed s p.rest 0 due) :
    (c.view s).Owed s rest 0 due := by
  intro x hx own
  obtain ⟨known, where_⟩ := flush.2 x hx own
  refine ⟨known, ?_⟩
  intro life mem
  obtain ahead | cold | near := where_ life mem
  · rw [next] at ahead
    obtain rfl | later := List.mem_cons.mp ahead
    · obtain ⟨-, r, id, slot, index⟩ := known.ring life
      have empty : r.snapshot.1 = r.head := by
        obtain empty | still := nothing r (ring_of_lookup slot)
        · exact empty
        · rw [flush.1] at still
          exact still.symm
      have past : x.index < r.tail := by
        have := r.shape.capacity_pos
        simp only [SensorRing.snapshot] at empty
        split at empty <;> omega
      exact .inr (.inl (inv.cold_of_past (t := t) (by rw [at_]; trivial) (by simp [at_]) mem life
        slot past))
    · exact .inl later
  · exact .inr (.inl cold)
  · exact absurd near (Nat.not_lt_zero _)

theorem ViewStep.written (h : ViewStep s c t v v') {p : PassRun F} {b n : Nat}
    (at_ : c.pc t = .moved p s b n) : ∃ r next, v.slot = some ⟨some r, next⟩ ∧ n - b < 2 ^ 32 ∧
      v' =
        { v with
          slot := some ⟨some r, next + 1⟩
          blocks := v.blocks.put next (v.scratch.block r s next (n - b)).stored } := by
  cases h with
  | same stays => exact (stays p b n at_).elim
  | write at_' slot whole =>
    rw [at_] at at_'
    cases at_'
    exact ⟨_, _, slot, whole, rfl⟩
  | _ => simp_all

/-- The write pays what the flush owes of the range. -/
theorem Inv.owed_write (inv : Inv s c) (h : ViewStep s c t (c.view s) v')
    (keeps : Keeps (c.view s) v') {p : PassRun F} {b n : Nat} (at_ : c.pc t = .moved p s b n)
    {rest : List SensorId} {due : List (Appended F)} (owed : (c.view s).Owed s rest n due) :
    v'.Owed s rest 0 due := by
  intro x hx own
  obtain ⟨known, where_⟩ := owed x hx own
  refine ⟨keeps.known x known, ?_⟩
  intro life mem
  have life₀ := keeps.life x known life
  have mem₀ := keeps.rows x known life mem
  obtain ahead | cold | near := where_ life₀ mem₀
  · exact .inl ahead
  · exact .inr (.inl (keeps.cold x known life cold))
  · obtain ⟨r, next, slot, whole, written⟩ := h.written at_
    have pass := inv.pass t
    rw [at_] at pass
    obtain ⟨⟨r₂, next₂, slot₂, tail, -⟩, copy⟩ := pass rfl
    cases slot.symm.trans slot₂
    obtain held | cold := (inv.placed x mem₀ life₀ r next slot).out (by omega)
    · obtain ⟨p', b', n', at_', lo, hi⟩ := held.mine inv.locked (by rw [at_]; trivial)
      rw [at_] at at_'
      cases at_'
      rw [written]
      exact .inr (.inl (cold_of_write slot copy whole mem₀ life₀ lo hi))
    · exact .inr (.inl (keeps.cold x known life cold))

/-- What the moving thread's flush owes after its step. -/
theorem Step.flush_own (h : Step c t env op c') (inv : Inv s c)
    (changes : ViewStep s c t (c.view s) (c'.view s)) (keeps : Keeps (c.view s) (c'.view s))
    (settled : Settled s c ⟨t, env, op⟩) : (c'.view s).FlushOk s (c'.pc t) := by
  have before := inv.flush t
  cases h with
  | refused => exact before
  | beginFlush =>
    rw [pc_goto_self]
    exact ⟨rfl, fun x hx own => inv.known x ⟨hx, own⟩⟩
  | @enter w flush at_ =>
    rw [pc_goto_self]
    intro due eq
    simp only at eq
    subst eq
    rw [at_] at before
    obtain ⟨rfl, known⟩ := before
    refine ⟨rfl, fun x hx own => ⟨known x hx own, fun life _ => .inl ?_⟩⟩
    obtain ⟨-, r, next, slot, -⟩ := (known x hx own).ring life
    exact (env.order_perm _).mem_iff.mpr (mem_of_lookup slot)
  | @leave p at_ done =>
    rw [pc_goto_self]
    rw [at_] at before
    cases flush : p.flush with
    | none => trivial
    | some due =>
      have owed := (before due flush).2
      rw [done] at owed
      exact owed
  | @skip p s' rest at_ next nothing =>
    rw [pc_goto_self]
    rw [at_] at before
    exact fun due flush => ⟨(before due flush).1, inv.owed_skip at_ next nothing (before due flush)⟩
  | @snap p s' rest r at_ next ring =>
    rw [pc_goto_self]
    rw [at_] at before
    intro due flush
    obtain ⟨window, owed⟩ := before due flush
    refine ⟨window, ?_⟩
    intro x hx own
    obtain ⟨known, where_⟩ := owed x hx own
    refine ⟨known, ?_⟩
    intro life mem
    obtain ahead | cold | near := where_ life mem
    · rw [next] at ahead
      obtain rfl | later := List.mem_cons.mp ahead
      · -- a flush goes up to the head
        obtain ⟨-, r', id, slot, index⟩ := known.ring life
        cases ring.symm.trans (ring_of_lookup slot)
        have whole : r.newTail p.windowMs = r.head := by
          rw [window]
          rfl
        rw [if_pos rfl, whole]
        exact .inr (.inr index)
      · exact .inl later
    · exact .inr (.inl cold)
    · exact absurd near (Nat.not_lt_zero _)
  | @copyFailed p s' b n r at_ _ few =>
    rw [pc_goto_self]
    rw [at_] at before
    have other : s' ≠ s := by
      rintro rfl
      exact absurd (settled.memory p b n at_) (Nat.not_le.mpr few)
    intro due flush
    obtain ⟨window, owed⟩ := before due flush
    rw [if_neg other] at owed
    exact ⟨window, owed.keeps keeps⟩
  | @copy p s' b n r at_ =>
    rw [pc_goto_self]
    rw [at_] at before
    exact fun due flush => ⟨(before due flush).1, (before due flush).2.keeps keeps⟩
  | @move p s' b n r next at_ =>
    rw [pc_goto_self]
    rw [at_] at before
    exact fun due flush => ⟨(before due flush).1, (before due flush).2.keeps keeps⟩
  | @write p s' b n r next at_ =>
    rw [pc_goto_self]
    rw [at_] at before
    intro due flush
    obtain ⟨window, owed⟩ := before due flush
    refine ⟨window, ?_⟩
    by_cases own : s' = s
    · subst own
      rw [if_pos rfl] at owed
      exact inv.owed_write changes keeps at_ owed
    · rw [if_neg own] at owed
      exact owed.keeps keeps
  | _ =>
    rw [pc_goto_self]
    trivial

theorem Step.moves (h : Step c t env op c') (p : PassRun F) (b n : Nat)
    (at_ : c.pc t = .copied p s b n) : c'.pc t = .moved p s b n := by
  cases h with
  | move at_' =>
    rw [at_] at at_'
    cases at_'
    exact pc_goto_self _ _ _
  | _ => simp_all

theorem Step.dropping (h : Step c t env op c') {u : Nat} (dropping : (c'.pc u).dropping = some s) :
    (c.pc u).dropping = some s ∨ (c'.view s).slot = none := by
  by_cases eq : u = t
  · subst eq
    cases h with
    | refused => exact .inl dropping
    | erase =>
      simp only [pc_goto_self, Pc.dropping, Option.some.injEq] at dropping
      subst dropping
      exact .inr (AList.lookup_erase _ _)
    | @leave p => cases flush : p.flush <;> simp [goto, flush, Pc.dropping] at dropping
    | _ => simp [goto, Pc.dropping] at dropping
  · exact .inl (h.pc_of_ne eq ▸ dropping)

theorem Step.flushed (h : Step c t env op c') : c'.flushed = c.flushed ∨
    ∃ due, c.pc t = .syncing due ∧ c'.flushed = c.flushed ++ due := by
  cases h with
  | @sync rows at_ =>
    by_cases ok : c.engine.backend.flush env.storage.flush = .ok
    · exact .inr ⟨rows, at_, by simp [goto, Threads.sync, ok]⟩
    · exact .inl (by simp [goto, Threads.sync, ok])
  | _ => exact .inl rfl

/-- **One step** of a settled schedule. -/
theorem Step.inv (h : Step c t env op c') (settled : Settled s c ⟨t, env, op⟩) (inv : Inv s c) :
    Inv s c' := by
  have changes := h.view inv.persists settled
  have keeps := changes.keeps inv.pending
  refine
    { persists := h.persists inv.persists
      locked := h.locked inv.locked
      ring := changes.ring (inv.pass t) inv.ring
      known := changes.known keeps inv.known
      placed := inv.placed_step changes keeps (fun u other => h.pc_of_ne other) h.moves
      pending := ?_, pass := ?_, flush := ?_, flushed := ?_ }
  · intro u dropping
    obtain before | none := h.dropping dropping
    · exact inv.pending_step changes before
    · intro slot found
      cases none.symm.trans found
  · intro u
    by_cases eq : u = t
    · exact eq ▸ h.pass_own inv
    · rw [h.pc_of_ne eq]
      exact inv.pass_step changes eq
  · intro u
    by_cases eq : u = t
    · exact eq ▸ h.flush_own inv changes keeps settled
    · rw [h.pc_of_ne eq]
      exact (inv.flush u).keeps keeps
  · obtain same | ⟨due, at_, more⟩ := h.flushed
    · rw [same]
      exact inv.flushed.keeps keeps
    · have owed := inv.flush t
      rw [at_] at owed
      rw [more]
      intro x hx
      obtain hx | hx := List.mem_append.mp hx
      · exact inv.flushed.keeps keeps x hx
      · exact Owed.keeps owed keeps x hx

omit [FloatArith F] in
theorem start_inv {e : Engine F} (ok : e.Ok) (persists : e.backend.persists = true)
    (s : SensorId) : Inv s (start e) where
  persists := persists
  locked := start_locked e
  ring := fun r next slot => (ok s r (ring_of_lookup slot)).2
  known := fun x mem => by cases mem.1
  placed := fun x mem => by cases mem.1
  pending := fun u dropping => by cases dropping
  pass := fun _ => trivial
  flush := fun _ => trivial
  flushed := fun x hx => by cases hx

end

end Threads

end ChronosVector
