import ChronosVector.LifeInvariant

/-!
# A drop against the sensor's next life

`DropSensor` erases the sensor first and deletes its blocks later. In between
the sensor can be registered again, under the same block ids.

* `flushed_rows_kept`: what a completed flush answered for is in the cold tier,
  as long as no block of the sensor is written while a delete is pending;
* `drop_late_loses`: the delete of a drop takes the blocks of the next life.
-/

namespace ChronosVector

variable {F : Type}

namespace Threads

/-- **What a flush answered for stays**, while no block of the sensor is written
between the erase and the delete of a drop. A row that was appended in the
sensor's present life before a flush began that has returned `ok`, and that the
ring has not overwritten, is in a block of the cold tier. -/
theorem flushed_rows_kept [FloatArith F] {e : Engine F} (ok : e.Ok)
    (persists : e.backend.persists = true) {s : SensorId} {xs : List (Turn F)}
    (settled : (start e).Along (Settled s) xs) {c : Threads F} (h : (start e).run xs = some c) :
    ∀ x ∈ c.flushed, x.ring.sensor = s → x.ring.life = c.drops s → x ∈ c.appended →
      ∃ id blk, (c.engine.backend.cold.blocks s).get id = some blk ∧ x.row ∈ blk.rows := by
  have inv : Inv s c := by
    apply Runs.run_invariant (I := Inv s) ?_ (start_inv ok persists s) settled h
    intro c₁ x c₂ inv settled stepped
    exact (step_cases stepped).inv settled inv
  intro x hx own life mem
  obtain ⟨-, where_⟩ := inv.flushed x hx own
  obtain ahead | cold | near := where_ life ⟨mem, own⟩
  · cases ahead
  · obtain ⟨-, -, id, blk, -, get, row⟩ := cold
    exact ⟨id, blk, get, row⟩
  · exact absurd near (Nat.not_lt_zero _)

/-! ## The next life in the gap -/

/-- `Settled`, evaluated for two threads. -/
def settledFor (s : SensorId) (c : Threads ℚ) (x : Turn ℚ) : Bool :=
  match c.pc x.thread with
  | .snapped _ s' _ _ => s' ≠ s || 4 ≤ x.env.scratchMemory s
  | .moved _ s' b n =>
    s' ≠ s || x.env.storage.writeBlock s = .ok && n - b < 2 ^ 32 &&
      (c.pc 0).dropping ≠ some s && (c.pc 1).dropping ≠ some s
  | _ => true

theorem settled_of_eval (s : SensorId) (c : Threads ℚ) (x : Turn ℚ) (few : c.Few 2)
    (h : settledFor s c x = true) : Settled s c x := by
  have moved (p : PassRun ℚ) (b n : Nat) (at_ : c.pc x.thread = .moved p s b n) :
      x.env.storage.writeBlock s = .ok ∧ n - b < 2 ^ 32 ∧ ∀ u, (c.pc u).dropping ≠ some s := by
    simp only [settledFor, at_, ne_eq, not_true_eq_false, decide_false, Bool.false_or,
      Bool.and_eq_true, decide_eq_true_eq] at h
    obtain ⟨⟨⟨rc, whole⟩, first⟩, second⟩ := h
    refine ⟨rc, whole, ?_⟩
    intro u dropping
    match u with
    | 0 => exact absurd dropping (by simpa using first)
    | 1 => exact absurd dropping (by simpa using second)
    | u + 2 =>
      rw [few (u + 2) (Nat.le_add_left 2 u)] at dropping
      cases dropping
  refine ⟨?_, fun p b n at_ => (moved p b n at_).1, fun p b n at_ => (moved p b n at_).2.1,
    fun p b n at_ => (moved p b n at_).2.2⟩
  intro p b n at_
  simpa [settledFor, at_] using h

/-- One row appended to `sensorA`, and a whole flush, by thread 0. -/
def appendRow (x : ℚ) : List (Nat × ThreadOp ℚ) :=
  (0, .ingest sensorA [smallBatchRow 1 x]) :: List.replicate 4 (goesOn 0)

def flushAll : List (Nat × ThreadOp ℚ) := (0, .flush) :: List.replicate 7 (goesOn 0)

/-- Thread 1 drops the sensor; the next life begins when the drop is complete. -/
def dropFirst : List (Turn ℚ) :=
  calmTurns (appendRow 1 ++ [(1, .dropSensor sensorA), goesOn 1] ++ appendRow 2 ++ flushAll)

/-- The next life begins, and is flushed, before the drop deletes. -/
def dropLate : List (Turn ℚ) :=
  calmTurns (appendRow 1 ++ [(1, .dropSensor sensorA)] ++ appendRow 2 ++ flushAll ++ [goesOn 1])

/-- The row of the second life. -/
def secondRow : Appended ℚ := ⟨⟨sensorA, 2, 1⟩, 0, smallRow 1 2⟩

theorem drop_first_kept : ∃ id blk,
    ((stateAfter dropFirst).engine.backend.cold.blocks sensorA).get id = some blk ∧
      secondRow.row ∈ blk.rows :=
  flushed_rows_kept (Engine.create_spec (smallEngine_created 0)).ok rfl
    (along_of_few (settled_of_eval sensorA) (fun _ _ => rfl) (by decide +kernel))
    (run_stateAfter [] dropFirst (by decide +kernel)) secondRow (by decide +kernel) rfl
    (by decide +kernel) (by decide +kernel)

/-- Both calls are done, every write succeeded, the sensor is registered and the
row was not overwritten. -/
theorem drop_late_loses :
    (start smallEngine).run dropLate = some (stateAfter dropLate) ∧
      ((stateAfter dropLate).pc 0).isIdle ∧ ((stateAfter dropLate).pc 1).isIdle ∧
      ((stateAfter dropLate).engine.ring sensorA).isSome ∧
      secondRow.ring = (stateAfter dropLate).ptr sensorA ∧
      secondRow ∈ (stateAfter dropLate).appended ∧ secondRow ∈ (stateAfter dropLate).flushed ∧
      ¬ ∃ id blk, ((stateAfter dropLate).engine.backend.cold.blocks sensorA).get id = some blk ∧
        secondRow.row ∈ blk.rows := by
  refine ⟨run_stateAfter [] dropLate (by decide +kernel), by decide +kernel, by decide +kernel,
    by decide +kernel, by decide +kernel, by decide +kernel, by decide +kernel, ?_⟩
  rintro ⟨id, blk, get, -⟩
  have none : ((stateAfter dropLate).engine.backend.cold.blocks sensorA).keys = [] := by
    decide +kernel
  have absent := SortedMap.get_eq_none.mpr (show id ∉ _ by rw [none]; exact List.not_mem_nil)
  cases absent.symm.trans get

end Threads

end ChronosVector
