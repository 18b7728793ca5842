import ChronosVector.Exact
import ChronosVector.ThreadSteps

/-!
# Sensor creation

Any number of threads in `GetOrCreateRing`, against drops and passes.

* `Capped`: the sensor map respects `max_sensors`;
* `Held`: a pointer that a thread holds is that of the attached ring, until its
  sensor is dropped;
* `Kept`: what of a sensor's ring lasts as long as its slot.
-/

namespace ChronosVector

variable {F : Type}

namespace Threads

def Capped (c : Threads F) : Prop :=
  0 < c.engine.cfg.maxSensors.toNat →
    c.engine.sensors.keys.length ≤ c.engine.cfg.maxSensors.toNat

def Held (c : Threads F) : Prop :=
  ∀ u p rows count, c.pc u = .storing p rows count →
    p.life ≤ c.drops p.sensor ∧
      (p.life = c.drops p.sensor → c.attached p.sensor = p.ring ∧ (c.engine.ring p.sensor).isSome)

/-- From `c` to `c'` a sensor that was not dropped kept its ring. -/
structure Kept (s : SensorId) (c c' : Threads F) : Prop where
  drops : c.drops s ≤ c'.drops s
  ring : c'.drops s = c.drops s → ∀ r, c.engine.ring s = some r →
    c'.attached s = c.attached s ∧ ∃ r', c'.engine.ring s = some r' ∧ Grown r r'

theorem Kept.refl (s : SensorId) (c : Threads F) : Kept s c c :=
  ⟨Nat.le_refl _, fun _ r ring => ⟨rfl, r, ring, .refl r⟩⟩

theorem Kept.trans {s : SensorId} {c c' c'' : Threads F} (h : Kept s c c') (h' : Kept s c' c'') :
    Kept s c c'' := by
  refine ⟨Nat.le_trans h.drops h'.drops, ?_⟩
  intro same r ring
  have before := h.drops
  have after := h'.drops
  obtain ⟨attached, r', ring', grown⟩ := h.ring (by omega) r ring
  obtain ⟨attached', r'', ring'', grown'⟩ := h'.ring (by omega) r' ring'
  exact ⟨attached'.trans attached, r'', ring'', grown.trans grown'⟩

section
variable {c c' : Threads F}

theorem length_insert_of_mem {s : SensorId} {slot : SensorSlot F}
    {m : AList fun _ : SensorId => SensorSlot F} (h : s ∈ m) :
    (m.insert s slot).keys.length = m.keys.length := by
  have mem : s ∈ m.keys := h
  have := List.length_pos_of_mem mem
  rw [AList.keys_insert, List.length_cons, List.length_erase_of_mem mem]
  omega

theorem length_insert_le (s : SensorId) (slot : SensorSlot F)
    (m : AList fun _ : SensorId => SensorSlot F) :
    (m.insert s slot).keys.length ≤ m.keys.length + 1 := by
  rw [AList.keys_insert, List.length_cons]
  exact Nat.succ_le_succ List.length_erase_le

theorem mem_of_lookup {s : SensorId} {slot : SensorSlot F}
    {m : AList fun _ : SensorId => SensorSlot F} (h : m.lookup s = some slot) : s ∈ m :=
  AList.lookup_isSome.mp (by rw [h]; rfl)

theorem MapStep.capped (h : MapStep c c')
    (max : c'.engine.cfg.maxSensors = c.engine.cfg.maxSensors) (capped : c.Capped) :
    c'.Capped := by
  unfold Capped at *
  rw [max]
  intro pos
  have before := capped pos
  cases h with
  | same sensors => rwa [sensors]
  | update slot sensors => rwa [sensors, length_insert_of_mem (mem_of_lookup slot)]
  | @attach s mem next slot sensors =>
    rw [sensors]
    obtain slot | ⟨_, room⟩ := slot
    · rwa [length_insert_of_mem (mem_of_lookup slot)]
    · exact Nat.le_trans (length_insert_le _ _ _) (room pos)
  | erase _ sensors =>
    rw [sensors, AList.keys_erase]
    exact Nat.le_trans List.length_erase_le before

theorem ring_of_insert {e e' : Engine F} {s u : SensorId} {slot : SensorSlot F}
    (h : e'.sensors = e.sensors.insert s slot) :
    e'.ring u = if u = s then slot.ring else e.ring u := by
  unfold Engine.ring
  rw [h]
  split
  · rename_i eq
    rw [eq, AList.lookup_insert]
    rfl
  · rename_i ne
    rw [AList.lookup_insert_ne ne]

theorem MapStep.kept (h : MapStep c c') (s : SensorId) : Kept s c c' := by
  cases h with
  | same sensors attached counts =>
    refine ⟨Nat.le_of_eq (congrFun counts.drops s).symm, ?_⟩
    intro _ r ring
    refine ⟨congrFun attached s, r, ?_, .refl r⟩
    unfold Engine.ring at *
    rwa [sensors]
  | @update u r _ _ _ slot sensors grown attached counts =>
    refine ⟨Nat.le_of_eq (congrFun counts.drops s).symm, ?_⟩
    intro _ r₀ ring
    refine ⟨congrFun attached s, ?_⟩
    rw [ring_of_insert sensors]
    split
    · rename_i eq
      rw [eq, ring_of_lookup slot, Option.some.injEq] at ring
      exact ⟨_, rfl, ring ▸ grown⟩
    · exact ⟨r₀, ring, .refl r₀⟩
  | @attach u _ _ slot sensors attached counts =>
    refine ⟨Nat.le_of_eq (congrFun counts.drops s).symm, ?_⟩
    intro _ r ring
    have other : s ≠ u := by
      rintro rfl
      obtain slot | ⟨slot, _⟩ := slot
      · simp [Engine.ring, slot] at ring
      · simp [Engine.ring, slot] at ring
    rw [ring_of_insert sensors, if_neg other, attached, Function.update_of_ne other]
    exact ⟨rfl, r, ring, .refl r⟩
  | @erase u slot _ sensors attached drops =>
    by_cases eq : s = u
    · subst eq
      refine ⟨by rw [drops, Function.update_self]; exact Nat.le_succ _, ?_⟩
      intro same
      rw [drops, Function.update_self] at same
      omega
    · refine ⟨by rw [drops, Function.update_of_ne eq], ?_⟩
      intro _ r ring
      refine ⟨congrFun attached s, r, ?_, .refl r⟩
      unfold Engine.ring at *
      rwa [sensors, AList.lookup_erase_ne eq]

/-! ## Pointers -/

variable [FloatArith F] {t : Nat} {env : Env F} {op : ThreadOp F}

/-- A pointer that a thread holds after a step: it held it before, or it is that
of the attached ring. -/
theorem Step.storing (h : Step c t env op c') {u : Nat} {p : RingPtr}
    {rows : List (Engine.BatchRow F)} {count : Nat} (holds : c'.pc u = .storing p rows count) :
    (∃ rows', c.pc u = .storing p rows' count) ∨
      p = c'.ptr p.sensor ∧ (c'.engine.ring p.sensor).isSome := by
  by_cases eq : u = t
  · subst eq
    cases h with
    | refused => exact .inl ⟨rows, holds⟩
    | found _ ring =>
      simp only [pc_goto_self, Pc.storing.injEq] at holds
      obtain ⟨rfl, -, -⟩ := holds
      exact .inr ⟨rfl, by simp [goto, ptr, ring]⟩
    | attach =>
      simp only [pc_goto_self, Pc.storing.injEq] at holds
      obtain ⟨rfl, -, -⟩ := holds
      refine .inr ⟨rfl, ?_⟩
      simp [goto, ptr, Threads.attach, Engine.ring]
    | stale at_ =>
      simp only [pc_goto_self, Pc.storing.injEq] at holds
      obtain ⟨rfl, -, rfl⟩ := holds
      exact .inl ⟨_, at_⟩
    | store at_ =>
      simp only [pc_goto_self, Pc.storing.injEq] at holds
      obtain ⟨rfl, -, rfl⟩ := holds
      exact .inl ⟨_, at_⟩
    | @leave p' =>
      simp only [pc_goto_self] at holds
      cases flush : p'.flush <;> simp [flush] at holds
    | _ => simp [goto] at holds
  · exact .inl ⟨rows, h.pc_of_ne eq ▸ holds⟩

theorem Step.held (h : Step c t env op c') (held : c.Held) : c'.Held := by
  intro u p rows count holds
  obtain ⟨rows', before⟩ | ⟨fresh, some⟩ := h.storing holds
  · obtain ⟨le, live⟩ := held u p rows' count before
    have kept := h.map.kept p.sensor
    have drops := kept.drops
    refine ⟨by omega, ?_⟩
    intro same
    obtain ⟨attached, some⟩ := live (by omega)
    obtain ⟨r, ring⟩ := Option.isSome_iff_exists.mp some
    obtain ⟨attached', r', ring', -⟩ := kept.ring (by omega) r ring
    exact ⟨attached'.trans attached, by rw [ring']; rfl⟩
  · have life : p.life = c'.drops p.sensor := congrArg RingPtr.life fresh
    have ring : p.ring = c'.attached p.sensor := congrArg RingPtr.ring fresh
    exact ⟨Nat.le_of_eq life, fun _ => ⟨ring.symm, some⟩⟩

theorem Step.maxSensors (h : Step c t env op c') :
    c'.engine.cfg.maxSensors = c.engine.cfg.maxSensors := by
  cases h with
  | @store p row _ _ r =>
    have frame := c.store_frame p.sensor r row
    exact congrArg (fun e => e.cfg.maxSensors) frame
  | _ => rfl

/-! ## Runs -/

theorem run_kept {xs : List (Turn F)} (h : c.run xs = some c') (s : SensorId) : Kept s c c' := by
  apply Runs.run_preserves (I := Kept s c) ?_ (.refl s c) h
  intro c₁ x c₂ kept stepped
  exact kept.trans ((step_cases stepped).map.kept s)

theorem run_held {e : Engine F} {xs : List (Turn F)} (h : (start e).run xs = some c) : c.Held := by
  refine Runs.run_preserves (I := Held) ?_ ?_ h
  · intro c₁ x c₂ held stepped
    exact (step_cases stepped).held held
  · intro u p rows count holds
    cases holds

theorem run_capped {xs : List (Turn F)} (capped : c.Capped) (h : c.run xs = some c') :
    c'.Capped := by
  apply Runs.run_preserves (I := Capped) ?_ capped h
  intro c₁ x c₂ capped stepped
  have step := step_cases stepped
  exact step.map.capped step.maxSensors capped

omit [FloatArith F] in
theorem capped_of_empty (h : c.engine.sensors = ∅) : c.Capped := by
  intro _
  rw [h]
  exact Nat.zero_le _

theorem create_sensors {cfg : Config} {path : Option (ColdTier F)} {e : Engine F}
    (h : Engine.create env cfg path = .ok e) : e.sensors = ∅ := by
  unfold Engine.create at h
  split at h
  · cases h
  · split at h
    · cases h
    · split at h
      · cases h
      · simp only at h
        split at h
        · cases h
        · cases h
          rfl

end

/-- **Creation is race-free.** Whatever the schedule: an engine started by
`Create` respects the cap, a sensor has at most one slot, its ring stays as long
as it is not dropped, and the next row of a thread that got its pointer in the
sensor's present life lands in that ring. -/
theorem creation_race_free [FloatArith F] {e : Engine F} {xs ys : List (Turn F)}
    {c c' : Threads F} (h : (start e).run xs = some c) (h' : c.run ys = some c') :
    (∀ env cfg path, Engine.create env cfg path = .ok e → c.Capped) ∧
      c.engine.sensors.keys.Nodup ∧
      (∀ s r, c.engine.ring s = some r → c'.drops s = c.drops s →
        c'.attached s = c.attached s ∧ ∃ r', c'.engine.ring s = some r' ∧ Grown r r') ∧
      (∀ t env op p row rows count, c.pc t = .storing p (row :: rows) count →
        p.life = c.drops p.sensor → ∃ r, c.engine.ring p.sensor = some r ∧
          c.step t env op = some ((c.store p.sensor r row).goto t (.storing p rows count))) := by
  refine ⟨?_, c.engine.sensors.keys_nodup, ?_, ?_⟩
  · intro env cfg path created
    exact run_capped (capped_of_empty (create_sensors created)) h
  · intro s r ring same
    exact (run_kept h' s).ring same r ring
  · intro t env op p row rows count holds life
    obtain ⟨-, live⟩ := run_held h t p _ _ holds
    obtain ⟨attached, some⟩ := live life
    obtain ⟨r, ring⟩ := Option.isSome_iff_exists.mp some
    refine ⟨r, ring, ?_⟩
    simp only [step, holds, deref, attached, if_true, ring]

/-! ## Two creators -/

/-- A row for `smallConfig`. -/
def smallBatchRow (ts : Int64) (x : ℚ) : Engine.BatchRow ℚ := ⟨ts, fun _ => x, none⟩

/-- Turns of threads in the calm environment. -/
def calmTurns (turns : List (Nat × ThreadOp ℚ)) : List (Turn ℚ) :=
  turns.map fun x => ⟨x.1, .calm ℚ 0, x.2⟩

/-- A thread goes on with the call it is in. -/
def goesOn (t : Nat) : Nat × ThreadOp ℚ := (t, .getStats)

/-- The state of `smallEngine` after a schedule. -/
def stateAfter (xs : List (Turn ℚ)) : Threads ℚ :=
  ((start smallEngine).run xs).getD (start smallEngine)

theorem run_stateAfter (xs ys : List (Turn ℚ))
    (h : ((start smallEngine).run (xs ++ ys)).isSome) :
    (stateAfter xs).run ys = some (stateAfter (xs ++ ys)) := by
  obtain ⟨c', run⟩ := Option.isSome_iff_exists.mp h
  obtain ⟨c, first, second⟩ := Runs.run_append.mp run
  have before : stateAfter xs = c := by simp [stateAfter, Threads.run, first]
  have after : stateAfter (xs ++ ys) = c' := by simp [stateAfter, run]
  rw [before, after]
  exact second

theorem step_stateAfter (xs : List (Turn ℚ)) (x : Nat × ThreadOp ℚ)
    (h : ((start smallEngine).run (xs ++ calmTurns [x])).isSome) :
    (stateAfter xs).step x.1 (.calm ℚ 0) x.2 = some (stateAfter (xs ++ calmTurns [x])) := by
  obtain ⟨next, stepped, rest⟩ := Runs.run_cons.mp (run_stateAfter xs (calmTurns [x]) h)
  cases rest
  exact stepped

/-- Two threads miss the same new sensor before either inserts it. -/
def bothMiss : List (Turn ℚ) :=
  calmTurns [(0, .ingest sensorA [smallBatchRow 1 1]), (1, .ingest sensorA [smallBatchRow 2 2]),
    goesOn 0, goesOn 1, goesOn 0, goesOn 1]

/-- Both then store into the one ring. -/
def bothStore : List (Turn ℚ) := calmTurns [goesOn 0, goesOn 1]

theorem both_creators_share_ring :
    (stateAfter bothMiss).Capped ∧ (stateAfter (bothMiss ++ bothStore)).attached sensorA = 1 := by
  have safe := creation_race_free (run_stateAfter [] bothMiss (by decide +kernel))
    (run_stateAfter bothMiss bothStore (by decide +kernel))
  have some : ((stateAfter bothMiss).engine.ring sensorA).isSome := by decide +kernel
  obtain ⟨r, ring⟩ := Option.isSome_iff_exists.mp some
  refine ⟨safe.1 _ _ _ (smallEngine_created 0), ?_⟩
  have same := (safe.2.2.1 sensorA r ring (by decide +kernel)).1
  exact same.trans (by decide +kernel)

end Threads

end ChronosVector
