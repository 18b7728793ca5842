import ChronosVector.Isolation

/-!
# The time bounds of a block

The `Block` contract calls `t_start_ms` and `t_end_ms` the bounds of the block's
timestamps. `EvictSensor` takes them from the two ends of the shared scratch.

* `Block.Bounded`: the bounds are the least and the greatest timestamp;
* `SensorSlot.Framed`: when the ends of the scratch are, before the eviction;
* `bounded_iff`: for every run, all blocks are bounded exactly when every
  eviction of the run was framed.
-/

namespace ChronosVector

variable {F : Type}

/-- A timestamp of the list that none falls below. -/
def IsEarliest (ts : List Int64) (t : Int64) : Prop := t ∈ ts ∧ ∀ u ∈ ts, t ≤ u

/-- A timestamp of the list that none exceeds. -/
def IsLatest (ts : List Int64) (t : Int64) : Prop := t ∈ ts ∧ ∀ u ∈ ts, u ≤ t

-- the instances go through the list, not through all timestamps there are
instance (ts : List Int64) (t : Int64) : Decidable (IsEarliest ts t) :=
  have := List.decidableBAll (fun u => t ≤ u) ts
  inferInstanceAs (Decidable (_ ∧ _))

instance (ts : List Int64) (t : Int64) : Decidable (IsLatest ts t) :=
  have := List.decidableBAll (fun u => u ≤ t) ts
  inferInstanceAs (Decidable (_ ∧ _))

/-- The `count` timestamps of a block. -/
def Block.times (b : Block F) : List Int64 := (List.range b.count.toNat).map b.timestamps

/-- The contract of `t_start_ms` and `t_end_ms`. -/
def Block.Bounded (b : Block F) : Prop := IsEarliest b.times b.tStartMs ∧ IsLatest b.times b.tEndMs

instance (b : Block F) : Decidable b.Bounded := inferInstanceAs (Decidable (_ ∧ _))

namespace SensorSlot

/-- The timestamps due for eviction that a 32-bit count leaves in the block. -/
def dueTimes (slot : SensorSlot F) (windowMs : Int64) : List Int64 :=
  (List.range (slot.due windowMs % 2 ^ 32)).map slot.dueTimestamps

/-- The first timestamp due is the earliest. The last one due is the latest, or,
where the scratch is longer, what an earlier eviction left at its end is. -/
def Framed (slot : SensorSlot F) (windowMs : Int64) (scratch : GrowVec Int64) : Prop :=
  IsEarliest (slot.dueTimes windowMs) (slot.dueTimestamps 0) ∧
  if scratch.size ≤ slot.due windowMs then
    IsLatest (slot.dueTimes windowMs) (slot.dueTimestamps (slot.due windowMs - 1))
  else IsLatest (slot.dueTimes windowMs) scratch.back

instance (slot : SensorSlot F) (windowMs : Int64) (scratch : GrowVec Int64) :
    Decidable (slot.Framed windowMs scratch) := by
  unfold Framed
  infer_instance

end SensorSlot

/-! ## One eviction -/

theorem GrowVec.reuse_back {α : Type} {v : GrowVec α} {memory n : Nat} (pos : 0 < n)
    (enough : 4 ≤ memory) (zero : α) (src : Nat → α) :
    (v.reuse memory n zero src).back = if v.size ≤ n then src (n - 1) else v.back := by
  split
  · rename_i fits
    have written : v.EndWritten memory n := by
      obtain less | same := Nat.lt_or_eq_of_le fits
      · exact ⟨pos, .inl ⟨less, by omega⟩⟩
      · exact ⟨pos, .inr ⟨same, enough⟩⟩
    rw [(reuse_written written zero src).2, if_neg (by omega)]
  · rename_i longer
    have kept : ¬ v.EndWritten memory n := by
      rintro ⟨-, ⟨less, -⟩ | ⟨same, -⟩⟩ <;> omega
    exact (reuse_kept kept zero src).2

/-- The block that an eviction of `n` entries copies out of the ring. -/
theorem copied_bounded [FloatArith F] (sc : EvictScratch F) {r : SensorRing F} {next n memory : Nat}
    {w : Int64} (s : SensorId) (count : SensorSlot.due ⟨some r, next⟩ w = n) (pos : 0 < n)
    (enough : 4 ≤ memory) :
    (((sc.reserve r.shape n memory).copyRows r r.snapshot.1 n).block r s next n).Bounded ↔
      SensorSlot.Framed ⟨some r, next⟩ w sc.timestamps := by
  have times : (((sc.reserve r.shape n memory).copyRows r r.snapshot.1 n).block r s next n).times =
      SensorSlot.dueTimes ⟨some r, next⟩ w := by
    have cut : (UInt32.ofNat n).toNat = n % 2 ^ 32 := UInt32.toNat_ofNat'
    simp only [Block.times, SensorSlot.dueTimes, EvictScratch.block, cut, count]
    apply List.map_congr_left
    intro i hi
    have inside : i < n := Nat.lt_of_lt_of_le (List.mem_range.mp hi) (Nat.mod_le n _)
    exact (EvictScratch.copyRows_holds inside).ts
  have start : ((sc.reserve r.shape n memory).copyRows r r.snapshot.1 n).timestamps.data 0 =
      SensorSlot.dueTimestamps ⟨some r, next⟩ 0 := (EvictScratch.copyRows_holds pos).ts
  have ends : ((sc.reserve r.shape n memory).copyRows r r.snapshot.1 n).timestamps.back =
      if sc.timestamps.size ≤ n then SensorSlot.dueTimestamps ⟨some r, next⟩ (n - 1)
      else sc.timestamps.back := by
    rw [EvictScratch.copied_timestamps sc r _ n enough, GrowVec.reuse_back pos enough]
    rfl
  rw [Block.Bounded, times, SensorSlot.Framed, count]
  simp only [EvictScratch.block, start, ends]
  split <;> rfl

namespace Engine

variable [FloatArith F] {e : Engine F} {env : Env F} {s : SensorId} {slot : SensorSlot F}
  {w : Int64}

/-- **The block of an eviction** is bounded exactly when the eviction is framed. -/
theorem evictSensor_bounded (ok : ∀ r, slot.ring = some r → r.Ok) :
    (∀ b ∈ (e.evictSensor env s slot w).2, b.Bounded) ↔
      (0 < slot.due w → 4 ≤ env.scratchMemory s →
        slot.Framed w e.evictScratch.timestamps) := by
  obtain none | pos := Nat.eq_zero_or_pos (slot.due w)
  · rw [evictSensor_nothing none ok, none]
    simp
  obtain ⟨ring, next⟩ := slot
  cases ring with
  | none => cases pos
  | some r =>
    rw [evictSensor_due (ok r rfl) rfl pos]
    by_cases starved : env.scratchMemory s < 4
    · rw [if_pos starved]
      simp [Nat.not_le.mpr starved]
    · have enough : 4 ≤ env.scratchMemory s := Nat.not_lt.mp starved
      rw [if_neg starved, ← copied_bounded e.evictScratch s rfl pos enough]
      simp [persistEvicted, pos, enough]

end Engine

/-! ## Whole runs -/

namespace Watched

variable [FloatArith F] {x : Watched F} {env : Env F} {w : Int64} {s : SensorId}

/-- A turn of the loop that hands over a block is framed. -/
def FramedTurn (env : Env F) (w : Int64) (x : Watched F) (s : SensorId) : Prop :=
  match x.engine.sensors.lookup s with
  | none => True
  | some slot =>
    0 < slot.due w → 4 ≤ env.scratchMemory s → slot.Framed w x.engine.evictScratch.timestamps

instance (env : Env F) (w : Int64) (x : Watched F) (s : SensorId) :
    Decidable (x.FramedTurn env w s) :=
  decidable_of_iff (∀ slot ∈ x.engine.sensors.lookup s, 0 < slot.due w →
    4 ≤ env.scratchMemory s → slot.Framed w x.engine.evictScratch.timestamps) (by
      unfold FramedTurn
      cases x.engine.sensors.lookup s <;> simp)

/-- Every turn of the call's pass is. -/
def FramedCall (x : Watched F) (step : Env F × Call F) : Prop :=
  match x.engine.pass step.2 with
  | none => True
  | some (e', w) =>
    Runs.Each (evict step.1 w) (FramedTurn step.1 w) { x with engine := e' }
      (step.1.order e'.sensors.keys)

instance (x : Watched F) (step : Env F × Call F) : Decidable (x.FramedCall step) :=
  decidable_of_iff (∀ p ∈ x.engine.pass step.2, Runs.Each (evict step.1 p.2) (FramedTurn step.1 p.2)
    { x with engine := p.1 } (step.1.order p.1.sensors.keys)) (by
      unfold FramedCall
      cases x.engine.pass step.2 <;> simp)

def AlwaysFramed (steps : List (Env F × Call F)) (e : Engine F) : Prop :=
  Runs.Each call FramedCall (start e) steps

instance (steps : List (Env F × Call F)) (e : Engine F) : Decidable (AlwaysFramed steps e) := by
  unfold AlwaysFramed
  infer_instance

/-- Every block handed over so far is bounded. -/
def AllBounded (x : Watched F) : Prop := ∀ b ∈ x.handed, b.Bounded

theorem evict_ok (env : Env F) (w : Int64) (s : SensorId) (ok : x.engine.Ok) :
    (x.evict env w s).engine.Ok := by
  cases found : x.engine.sensors.lookup s with
  | none =>
    rw [evict_unknown found]
    exact ok
  | some slot => exact (evict_frame env w ok found).1

theorem evict_bounded (ok : x.engine.Ok) :
    (x.evict env w s).AllBounded ↔ x.AllBounded ∧ x.FramedTurn env w s := by
  cases found : x.engine.sensors.lookup s with
  | none => simp only [evict_unknown found, FramedTurn, found, and_true]
  | some slot =>
    have rings (r : SensorRing F) (hr : slot.ring = some r) : r.Ok :=
      (ok s r ((Engine.ring_eq found).trans hr)).2
    simp only [evict_known found, FramedTurn, found, ← Engine.evictSensor_bounded rings, AllBounded,
      List.mem_append, Option.mem_toList, Option.mem_def, or_imp, forall_and]

/-- **One pass.** -/
theorem turns_bounded (ok : x.engine.Ok) (ids : List SensorId) :
    (ids.foldl (evict env w) x).AllBounded ↔
      x.AllBounded ∧ Runs.Each (evict env w) (FramedTurn env w) x ids :=
  Runs.foldl_iff (I := fun x => x.engine.Ok) (fun _ s => evict_ok env w s)
    (fun _ _ => evict_bounded) ok ids

/-- **One call.** -/
theorem call_bounded (ok : x.engine.Ok) (step : Env F × Call F) :
    (x.call step).AllBounded ↔ x.AllBounded ∧ x.FramedCall step := by
  cases pass : x.engine.pass step.2 with
  | none => simp only [call, FramedCall, pass, and_true, AllBounded]
  | some p =>
    simp only [call, FramedCall, pass]
    exact turns_bounded (Engine.ok_of_pass pass ok) _

end Watched

/-- **The bounds of every block.** Over any run of calls, all blocks handed to
`WriteBlock` have their least and greatest timestamp in the header exactly when
every eviction of the run was framed. -/
theorem bounded_iff [FloatArith F] {e : Engine F} (ok : e.Ok) (steps : List (Env F × Call F)) :
    (∀ b ∈ Engine.writesAll steps e, b.Bounded) ↔ Watched.AlwaysFramed steps e := by
  have keeps (x : Watched F) (step : Env F × Call F) (ok : x.engine.Ok) : (x.call step).engine.Ok := by
    rw [(Watched.call_spec x step).1]
    exact (Engine.call_frame ok step.1 step.2).ok
  have whole := Runs.foldl_iff (I := fun x => x.engine.Ok) keeps
    (fun _ step ok => Watched.call_bounded ok step) (show (Watched.start e).engine.Ok from ok) steps
  have none : (Watched.start e).AllBounded := by
    intro b hb
    cases hb
  rw [← (Watched.run_spec steps e).2]
  exact whole.trans (and_iff_right none)

/-- One row of each sensor, flushed together. -/
theorem short_blocks_bounded : (Engine.writesAll (shortThenShort 9) smallEngine).length = 2 ∧
    ∀ b ∈ Engine.writesAll (shortThenShort 9) smallEngine, b.Bounded := by
  refine ⟨by decide +kernel, ?_⟩
  exact (bounded_iff (Engine.reachable_ok (.created (smallEngine_created 0))) _).mpr
    (by decide +kernel)

/-- Rows of one sensor that arrive out of order. -/
def unordered : List (Env ℚ × Call ℚ) :=
  calmly 0 [.appendBatch (some sensorA.bytes) (some fun i => if i = 0 then 5 else 1)
    (some fun _ => 1) 2 1 none, .flush]

/-- The block of unordered rows is bounded by its first and last, and that of a
row flushed after a longer block ends where the longer one did. -/
theorem blocks_unbounded :
    (Engine.writesAll unordered smallEngine).map (fun b => (b.tStartMs, b.tEndMs, b.times)) =
        [(5, 1, [5, 1])] ∧
      (Engine.writesAll (longThenShort 5) smallEngine).map (fun b => (b.tStartMs, b.tEndMs, b.times)) =
        [(1, 5, [1, 5]), (3, 5, [3])] ∧
      ¬ (∀ b ∈ Engine.writesAll unordered smallEngine, b.Bounded) ∧
      ¬ ∀ b ∈ Engine.writesAll (longThenShort 5) smallEngine, b.Bounded := by
  refine ⟨by decide +kernel, by decide +kernel, by decide +kernel, by decide +kernel⟩

end ChronosVector
