import ChronosVector.SensorCreation

/-!
# The data-loss counters

`GetStats` reads the counts of dropped sensors first and sums those of the live
rings later, under the lock. `DropSensor` moves a count from one to the other.

* `Engine.lifetime`: what the two parts add up to, which never goes back;
* `NeverBack`: the property of the reports;
* `never_back`: it holds as long as no drop moves a count while a `GetStats`
  call is between its first read and its sum.
-/

namespace ChronosVector

variable {F : Type}

namespace Engine

/-- Overwrite events and overwritten entries since the engine was created. -/
def lifetime (e : Engine F) : Nat × Nat :=
  (e.droppedOverwriteEvents + e.liveSum lostEvents,
    e.droppedOverwrittenEntries + e.liveSum lostEntries)

theorem liveSum_congr {e e' : Engine F} (h : e'.sensors = e.sensors)
    (f : SensorSlot F → Nat) : e'.liveSum f = e.liveSum f := by
  unfold liveSum
  rw [h]

theorem liveSum_erase {e e' : Engine F} {s : SensorId} {slot : SensorSlot F}
    (found : e.sensors.lookup s = some slot) (h : e'.sensors = e.sensors.erase s)
    (f : SensorSlot F → Nat) : e.liveSum f = f slot + e'.liveSum f := by
  unfold liveSum
  rw [h]
  exact AList.valueSum_erase (fun _ => f) found

theorem liveSum_insert {e e' : Engine F} {s : SensorId} {slot slot' : SensorSlot F}
    (found : e.sensors.lookup s = some slot) (h : e'.sensors = e.sensors.insert s slot')
    (f : SensorSlot F → Nat) : e'.liveSum f + f slot = e.liveSum f + f slot' := by
  unfold liveSum
  rw [h]
  exact AList.valueSum_insert_of_lookup (fun _ => f) found

theorem liveSum_insert_new {e e' : Engine F} {s : SensorId} {slot : SensorSlot F}
    (unknown : e.sensors.lookup s = none) (h : e'.sensors = e.sensors.insert s slot)
    (f : SensorSlot F → Nat) : e'.liveSum f = e.liveSum f + f slot := by
  unfold liveSum
  rw [h]
  exact AList.valueSum_insert_of_notMem (fun _ => f) unknown

end Engine

namespace Threads

variable {c c' : Threads F}

/-- A count that a ring only ever adds to, zero for a new ring or none. -/
structure RingCount (f : SensorSlot F → Nat) : Prop where
  grows : ∀ r r' next next', Grown r r' → f ⟨some r, next⟩ ≤ f ⟨some r', next'⟩
  absent : ∀ next, f ⟨none, next⟩ = 0
  fresh : ∀ sh mem next, f ⟨some (.new sh mem), next⟩ = 0

theorem lostEvents_count : RingCount (F := F) Engine.lostEvents :=
  ⟨fun _ _ _ _ grown => grown.events, fun _ => rfl, fun _ _ _ => rfl⟩

theorem lostEntries_count : RingCount (F := F) Engine.lostEntries :=
  ⟨fun _ _ _ _ grown => grown.entries, fun _ => rfl, fun _ _ _ => rfl⟩

/-- The live sum in a step: it grows, or an erase takes one slot's count. -/
theorem MapStep.liveSum (h : MapStep c c') {f : SensorSlot F → Nat} (count : RingCount f) :
    SameCounts c c' ∧ c.engine.liveSum f ≤ c'.engine.liveSum f ∨
      ∃ slot, c.engine.liveSum f = f slot + c'.engine.liveSum f ∧
        c'.engine.droppedOverwriteEvents =
          c.engine.droppedOverwriteEvents + Engine.lostEvents slot ∧
        c'.engine.droppedOverwrittenEntries =
          c.engine.droppedOverwrittenEntries + Engine.lostEntries slot := by
  cases h with
  | same sensors _ counts =>
    exact .inl ⟨counts, Nat.le_of_eq (Engine.liveSum_congr sensors f).symm⟩
  | @update s r r' next next' slot sensors grown _ counts =>
    have sum := Engine.liveSum_insert slot sensors f
    have grows := count.grows r r' next next' grown
    exact .inl ⟨counts, by omega⟩
  | attach slot sensors _ counts =>
    refine .inl ⟨counts, ?_⟩
    obtain slot | ⟨unknown, _⟩ := slot
    · have sum := Engine.liveSum_insert slot sensors f
      rw [count.absent, count.fresh] at sum
      exact Nat.le_of_eq sum.symm
    · rw [Engine.liveSum_insert_new unknown sensors f]
      exact Nat.le_add_right _ _
  | erase found sensors _ _ events entries =>
    exact .inr ⟨_, Engine.liveSum_erase found sensors f, events, entries⟩

/-- **The counters as they should be read.** Their lifetime values never go back. -/
theorem MapStep.lifetime (h : MapStep c c') :
    c.engine.lifetime.1 ≤ c'.engine.lifetime.1 ∧ c.engine.lifetime.2 ≤ c'.engine.lifetime.2 := by
  constructor
  · show _ + _ ≤ _ + _
    obtain ⟨counts, le⟩ | ⟨slot, sum, events, -⟩ := h.liveSum lostEvents_count
    · rw [counts.events]
      exact Nat.add_le_add_left le _
    · omega
  · show _ + _ ≤ _ + _
    obtain ⟨counts, le⟩ | ⟨slot, sum, -, entries⟩ := h.liveSum lostEntries_count
    · rw [counts.entries]
      exact Nat.add_le_add_left le _
    · omega

/-! ## Reports -/

/-- No report is below one that was complete before its call began. -/
def NeverBack (c : Threads F) : Prop :=
  ∀ r ∈ c.reports, ∀ x ∈ r.earlier, x.1 ≤ r.totals.1 ∧ x.2 ≤ r.totals.2

/-- If this turn drops a sensor with lost entries, no `GetStats` call is between
its first read and its sum. -/
def Undisturbed (c : Threads F) (x : Turn F) : Prop :=
  ∀ s slot, c.pc x.thread = .idle → x.op = .dropSensor s →
    c.engine.sensors.lookup s = some slot →
      (Engine.lostEvents slot = 0 ∧ Engine.lostEntries slot = 0) ∨ ∀ u, ¬ (c.pc u).inStats

/-- Totals are within the present lifetime values. -/
def Within (c : Threads F) (totals : List (Nat × Nat)) : Prop :=
  ∀ x ∈ totals, x.1 ≤ c.engine.lifetime.1 ∧ x.2 ≤ c.engine.lifetime.2

theorem Within.step {totals : List (Nat × Nat)} (h : MapStep c c') (within : c.Within totals) :
    c'.Within totals := by
  intro x hx
  obtain ⟨events, entries⟩ := within x hx
  exact ⟨Nat.le_trans events h.lifetime.1, Nat.le_trans entries h.lifetime.2⟩

/-- Where each call stands: what it has read is still there. -/
structure StatsInv (c : Threads F) : Prop where
  reported : c.Within (c.reports.map StatsReport.totals)
  reading : ∀ u call, c.pc u = .reading call →
    c.Within call.earlier ∧ call.events = c.engine.droppedOverwriteEvents
  summing : ∀ u call, c.pc u = .summing call →
    c.Within call.earlier ∧ call.events = c.engine.droppedOverwriteEvents ∧
      call.entries = c.engine.droppedOverwrittenEntries
  back : c.NeverBack

theorem start_stats (e : Engine F) : (start e).StatsInv where
  reported := by
    intro x hx
    cases hx
  reading := by
    intro u call holds
    cases holds
  summing := by
    intro u call holds
    cases holds
  back := by
    intro r hr
    cases hr

section
variable [FloatArith F] {t : Nat} {env : Env F} {op : ThreadOp F}

/-- An undisturbed step leaves the counters of dropped sensors to a call that is
reading them. -/
theorem Step.dropped (h : Step c t env op c') (calm : c.Undisturbed ⟨t, env, op⟩) {u : Nat}
    (stats : (c.pc u).inStats) :
    c'.engine.droppedOverwriteEvents = c.engine.droppedOverwriteEvents ∧
      c'.engine.droppedOverwrittenEntries = c.engine.droppedOverwrittenEntries := by
  have map := h.map
  cases h with
  | erase at_ call _ found =>
    obtain ⟨events, entries⟩ | none := calm _ _ at_ call found
    · exact ⟨congrArg (_ + ·) events, congrArg (_ + ·) entries⟩
    · exact (none u stats).elim
  | @store p row _ _ r =>
    have frame := c.store_frame p.sensor r row
    have events := congrArg Engine.droppedOverwriteEvents frame
    have entries := congrArg Engine.droppedOverwrittenEntries frame
    exact ⟨events, entries⟩
  | _ => exact ⟨rfl, rfl⟩

theorem Step.reading (h : Step c t env op c') {u : Nat} {call : StatsCall}
    (holds : c'.pc u = .reading call) : c.pc u = .reading call ∨ c'.engine = c.engine ∧
      call = ⟨c.reports.map StatsReport.totals, c.engine.droppedOverwriteEvents, 0⟩ := by
  by_cases eq : u = t
  · subst eq
    cases h with
    | refused => exact .inl holds
    | readEvents =>
      simp only [pc_goto_self, Pc.reading.injEq] at holds
      exact .inr ⟨rfl, holds.symm⟩
    | @leave p => cases flush : p.flush <;> simp [goto, flush] at holds
    | _ => simp [goto] at holds
  · exact .inl (h.pc_of_ne eq ▸ holds)

theorem Step.summing (h : Step c t env op c') {u : Nat} {call : StatsCall}
    (holds : c'.pc u = .summing call) : c.pc u = .summing call ∨ c'.engine = c.engine ∧
      ∃ call₀, c.pc u = .reading call₀ ∧
        call = { call₀ with entries := c.engine.droppedOverwrittenEntries } := by
  by_cases eq : u = t
  · subst eq
    cases h with
    | refused => exact .inl holds
    | readEntries at_ =>
      simp only [pc_goto_self, Pc.summing.injEq] at holds
      exact .inr ⟨rfl, _, at_, holds.symm⟩
    | @leave p => cases flush : p.flush <;> simp [goto, flush] at holds
    | _ => simp [goto] at holds
  · exact .inl (h.pc_of_ne eq ▸ holds)

theorem Step.reports (h : Step c t env op c') : c'.reports = c.reports ∨
    c'.engine = c.engine ∧ ∃ call, c.pc t = .summing call ∧
      c'.reports = c.reports ++ [⟨call.earlier, (call.events + c.engine.liveSum Engine.lostEvents,
        call.entries + c.engine.liveSum Engine.lostEntries)⟩] := by
  cases h with
  | report at_ => exact .inr ⟨rfl, _, at_, rfl⟩
  | _ => exact .inl rfl

theorem Step.stats (h : Step c t env op c') (calm : c.Undisturbed ⟨t, env, op⟩)
    (inv : c.StatsInv) : c'.StatsInv where
  reported := by
    obtain same | ⟨engine, call, at_, more⟩ := h.reports
    · rw [same]
      exact inv.reported.step h.map
    · obtain ⟨-, events, entries⟩ := inv.summing t call at_
      rw [more, List.map_append]
      intro x hx
      obtain hx | hx := List.mem_append.mp hx
      · exact inv.reported.step h.map x hx
      · rw [List.mem_singleton.mp hx, engine, events, entries]
        exact ⟨Nat.le_refl _, Nat.le_refl _⟩
  reading := by
    intro u call holds
    obtain before | ⟨engine, rfl⟩ := h.reading holds
    · obtain ⟨within, events⟩ := inv.reading u call before
      have same := h.dropped calm (u := u) (by rw [before]; rfl)
      exact ⟨within.step h.map, events.trans same.1.symm⟩
    · rw [engine]
      exact ⟨inv.reported.step h.map, rfl⟩
  summing := by
    intro u call holds
    obtain before | ⟨engine, call₀, before, rfl⟩ := h.summing holds
    · obtain ⟨within, events, entries⟩ := inv.summing u call before
      have same := h.dropped calm (u := u) (by rw [before]; rfl)
      exact ⟨within.step h.map, events.trans same.1.symm, entries.trans same.2.symm⟩
    · obtain ⟨within, events⟩ := inv.reading u call₀ before
      rw [engine]
      exact ⟨within.step h.map, events, rfl⟩
  back := by
    obtain same | ⟨engine, call, at_, more⟩ := h.reports
    · unfold NeverBack
      rw [same]
      exact inv.back
    · obtain ⟨within, events, entries⟩ := inv.summing t call at_
      intro r hr
      rw [more] at hr
      obtain hr | hr := List.mem_append.mp hr
      · exact inv.back r hr
      · -- what the call read and what it sums are the lifetime values of one state
        rw [List.mem_singleton.mp hr]
        intro x hx
        show _ ≤ call.events + _ ∧ _ ≤ call.entries + _
        rw [events, entries]
        exact within x hx

/-- **The counters never go back**, as long as no drop moves a count while a
`GetStats` call is between its first read and its sum. -/
theorem never_back {e : Engine F} {xs : List (Turn F)} (calm : (start e).Along Undisturbed xs)
    (h : (start e).run xs = some c) : c.NeverBack := by
  have inv : c.StatsInv := by
    apply Runs.run_invariant (I := StatsInv) ?_ (start_stats e) calm h
    intro c₁ x c₂ inv calm stepped
    exact (step_cases stepped).stats calm inv
  exact inv.back

end

/-! ## A drop between the read and the sum -/

/-- The ring of 64 loses one of 65 rows, and a call reports it. -/
def lostAndReported : List (Nat × ThreadOp ℚ) :=
  (0, .ingest sensorA ((List.range 65).map fun i => smallBatchRow (Int64.ofNat i) 0)) ::
    (List.replicate 68 (goesOn 0) ++ [(1, .getStats), goesOn 1, goesOn 1])

/-- A drop, and then another call. -/
def dropThenStats : List (Nat × ThreadOp ℚ) :=
  [(0, .dropSensor sensorA), (1, .getStats), goesOn 0, goesOn 1, goesOn 1]

/-- `Undisturbed`, evaluated for two threads. -/
def undisturbed (c : Threads ℚ) (x : Turn ℚ) : Bool :=
  match x.op with
  | .dropSensor s =>
    match c.engine.sensors.lookup s with
    | none => true
    | some slot =>
      Engine.lostEvents slot = 0 && Engine.lostEntries slot = 0 ||
        !((c.pc 0).inStats || (c.pc 1).inStats)
  | _ => true

theorem undisturbed_of_eval (c : Threads ℚ) (x : Turn ℚ) (few : c.Few 2)
    (h : undisturbed c x = true) : Undisturbed c x := by
  intro s slot _ call found
  simp only [undisturbed, call, found, Bool.or_eq_true, Bool.and_eq_true, decide_eq_true_eq,
    Bool.not_eq_true', Bool.or_eq_false_iff] at h
  apply h.imp id ?_
  intro quiet u stats
  match u with
  | 0 => exact absurd stats (by rw [quiet.1]; exact Bool.false_ne_true)
  | 1 => exact absurd stats (by rw [quiet.2]; exact Bool.false_ne_true)
  | u + 2 =>
    rw [few (u + 2) (Nat.le_add_left 2 u)] at stats
    cases stats

theorem drop_then_stats :
    (stateAfter (calmTurns (lostAndReported ++ dropThenStats))).reports =
        [⟨[], (1, 1)⟩, ⟨[(1, 1)], (1, 1)⟩] ∧
      (stateAfter (calmTurns (lostAndReported ++ dropThenStats))).NeverBack := by
  refine ⟨by decide +kernel, ?_⟩
  exact never_back (along_of_few undisturbed_of_eval (fun _ _ => rfl) (by decide +kernel))
    (run_stateAfter [] _ (by decide +kernel))

/-- The drop comes between the reads of the next call and its sum. -/
def dropInside : List (Nat × ThreadOp ℚ) :=
  [(1, .getStats), goesOn 1, (0, .dropSensor sensorA), goesOn 1]

theorem report_goes_back :
    (start smallEngine).run (calmTurns (lostAndReported ++ dropInside)) =
        some (stateAfter (calmTurns (lostAndReported ++ dropInside))) ∧
      ¬ (stateAfter (calmTurns (lostAndReported ++ dropInside))).NeverBack := by
  refine ⟨run_stateAfter [] _ (by decide +kernel), ?_⟩
  have reports : (stateAfter (calmTurns (lostAndReported ++ dropInside))).reports =
      [⟨[], (1, 1)⟩, ⟨[(1, 1)], (0, 0)⟩] := by
    decide +kernel
  intro back
  have second := back ⟨[(1, 1)], (0, 0)⟩ (by rw [reports]; simp) (1, 1) (by simp)
  exact absurd second.1 (by decide)

end Threads

end ChronosVector
