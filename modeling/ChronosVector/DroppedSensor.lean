import ChronosVector.SensorCreation

/-!
# A dropped sensor stays gone

The erase of `DropSensor` waits for a running pass, and later passes do not find
the sensor. So the range delete that follows is the last word on its blocks.

* `Gone`: the sensor has no slot and no pass is at it;
* `dropped_stays_gone`: what that gives once `DeleteSensor` has succeeded.
-/

namespace ChronosVector

variable {F : Type}

namespace Threads

variable {c c' : Threads F}

structure Gone (s : SensorId) (c : Threads F) : Prop where
  unknown : c.engine.sensors.lookup s = none
  away : ∀ u, (c.pc u).evicting ≠ some s

/-- Nobody is in `GetOrCreateRing` of `s` in this turn. -/
def NotCreating (s : SensorId) (c : Threads F) (x : Turn F) : Prop := (c.pc x.thread).creating ≠ some s

section
variable [FloatArith F] {t : Nat} {env : Env F} {op : ThreadOp F} {s : SensorId}

theorem Step.unknown (h : Step c t env op c') (unknown : c.engine.sensors.lookup s = none)
    (absent : (c.pc t).creating ≠ some s) : c'.engine.sensors.lookup s = none := by
  have registered {s' : SensorId} {slot : SensorSlot F}
      (found : c.engine.sensors.lookup s' = some slot) : s ≠ s' := by
    rintro rfl
    rw [unknown] at found
    cases found
  cases h with
  | erase _ _ _ found => exact (AList.lookup_erase_ne (registered found)).trans unknown
  | @attach s' rows mem next at_ =>
    have other : s ≠ s' := by
      rintro rfl
      exact absent (by rw [at_]; rfl)
    exact (AList.lookup_insert_ne other).trans unknown
  | @store p row _ _ _ _ live =>
    obtain ⟨next, found⟩ := lookup_of_deref live
    have sensors := congrArg Engine.sensors (store_engine found row)
    simp only [goto]
    rw [sensors]
    exact (AList.lookup_insert_ne (registered found)).trans unknown
  | move _ slot => exact (AList.lookup_insert_ne (registered slot)).trans unknown
  | write _ slot => exact (AList.lookup_insert_ne (registered slot)).trans unknown
  | _ => exact unknown

theorem Step.evicting (h : Step c t env op c') {u : Nat} (at_ : (c'.pc u).evicting = some s) :
    (c.pc u).evicting = some s ∨ (c.engine.ring s).isSome := by
  by_cases eq : u = t
  · subst eq
    cases h with
    | refused => exact .inl at_
    | snap _ _ ring =>
      simp only [pc_goto_self, Pc.evicting, Option.some.injEq] at at_
      exact .inr (by rw [← at_, ring]; rfl)
    | copy before =>
      simp only [pc_goto_self] at at_
      exact .inl (by rw [before]; exact at_)
    | move before =>
      simp only [pc_goto_self] at at_
      exact .inl (by rw [before]; exact at_)
    | @leave p => cases flush : p.flush <;> simp [goto, flush, Pc.evicting] at at_
    | _ => simp [goto, Pc.evicting] at at_
  · exact .inl (h.pc_of_ne eq ▸ at_)

theorem Step.gone (h : Step c t env op c') (absent : (c.pc t).creating ≠ some s) (gone : c.Gone s) :
    c'.Gone s where
  unknown := h.unknown gone.unknown absent
  away := by
    intro u at_
    obtain before | ring := h.evicting at_
    · exact gone.away u before
    · simp [Engine.ring, gone.unknown] at ring

/-! ## Blocks -/

omit [FloatArith F] in
theorem deleteSensor_ok (bk : Backend F) (s : SensorId) :
    (bk.deleteSensor .ok s).2.cold.blocks s = .empty := by
  cases bk with
  | null => rfl
  | rocksdb db => exact db.blocks_erase_self s

/-- A step of a thread whose pass is not at `s` writes no block of `s`. -/
theorem Step.blocks (h : Step c t env op c') (away : (c.pc t).evicting ≠ some s) :
    c'.engine.backend.cold.blocks s = c.engine.backend.cold.blocks s ∨
      c'.engine.backend.cold.blocks s = .empty := by
  cases h with
  | @delete s' =>
    obtain ⟨others, own, -, -⟩ := Engine.deleteSensor_blocks (env.storage.deleteSensor s')
      c.engine.backend s'
    by_cases eq : s = s'
    · subst eq
      exact own.symm
    · exact .inl (others s eq)
  | @write p s' b newTail r next at_ =>
    have other : s ≠ s' := by
      rintro rfl
      exact away (by rw [at_]; rfl)
    exact .inl (Backend.writeBlock_blocks_ne (by exact other) _ _)
  | @store p row _ _ r =>
    have backend := congrArg Engine.backend (c.store_frame p.sensor r row)
    exact .inl (congrArg (fun bk => bk.cold.blocks s) backend)
  | _ => exact .inl rfl

/-- The sensor is gone, from the cold tier too. -/
structure Erased (s : SensorId) (c : Threads F) : Prop extends c.Gone s where
  blocks : c.engine.backend.cold.blocks s = .empty

theorem Step.erased (h : Step c t env op c') (absent : (c.pc t).creating ≠ some s)
    (erased : Erased s c) : Erased s c' where
  toGone := h.gone absent erased.toGone
  blocks := by
    obtain same | empty := h.blocks (erased.away t)
    · exact same.trans erased.blocks
    · exact empty

theorem run_gone {xs : List (Turn F)} (absent : c.Along (NotCreating s) xs)
    (h : c.run xs = some c') (gone : c.Gone s) : c'.Gone s := by
  apply Runs.run_invariant (I := Gone s) ?_ gone absent h
  intro c₁ x c₂ gone absent stepped
  exact (step_cases stepped).gone absent gone

theorem run_erased {xs : List (Turn F)} (absent : c.Along (NotCreating s) xs)
    (h : c.run xs = some c') (erased : Erased s c) : Erased s c' := by
  apply Runs.run_invariant (I := Erased s) ?_ erased absent h
  intro c₁ x c₂ erased absent stepped
  exact (step_cases stepped).erased absent erased

theorem run_locked {e : Engine F} {xs : List (Turn F)} (h : (start e).run xs = some c) :
    c.Locked := by
  apply Runs.run_preserves (I := Locked) ?_ (start_locked e) h
  intro c₁ x c₂ locked stepped
  exact (step_cases stepped).locked locked

omit [FloatArith F] in
theorem evicting_inPass {p : Pc F} (h : p.evicting = some s) : p.inPass := by
  cases p <;> trivial

/-- The erase finds no pass at the sensor. -/
theorem gone_of_drop (locked : c.Locked) (idle : c.pc t = .idle)
    (h : c.step t env (.dropSensor s) = some c') (erased : c'.pc t = .deleting s) :
    c'.Gone s := by
  have steps := step_cases h
  cases steps with
  | @erase s' slot _ call free found =>
    cases call
    refine ⟨AList.lookup_erase _ _, ?_⟩
    intro u at_
    by_cases eq : u = t
    · subst eq
      rw [erased] at at_
      cases at_
    · simp only [goto, Function.update_of_ne eq] at at_
      exact locked.alone free (evicting_inPass at_)
  | refused at_ =>
    rw [at_] at erased
    cases erased
  | _ => simp_all [goto]

end

/-- **A dropped sensor does not come back.** Thread `t` erases `s`, nobody is in
`GetOrCreateRing` of `s` from then on, and the backend's `DeleteSensor` of `t`
succeeds. Whatever passes run before, between and after: the cold tier has no
block of `s` in any later state, no thread is about to write one, and an `Open`
of the directory does not find `s`. -/
theorem dropped_stays_gone [FloatArith F] {e : Engine F} {xs ys zs : List (Turn F)}
    {c c₁ c₂ c₃ c₄ : Threads F} {t : Nat} {s : SensorId} {env env' : Env F} {op : ThreadOp F}
    (before : (start e).run xs = some c) (idle : c.pc t = .idle)
    (erase : c.step t env (.dropSensor s) = some c₁) (erased : c₁.pc t = .deleting s)
    (absent : c₁.Along (NotCreating s) ys) (between : c₁.run ys = some c₂)
    (pending : c₂.pc t = .deleting s) (ok : env'.storage.deleteSensor s = .ok)
    (delete : c₂.step t env' op = some c₃)
    (absent' : c₃.Along (NotCreating s) zs) (after : c₃.run zs = some c₄) :
    c₄.engine.backend.cold.blocks s = .empty ∧ (∀ u, (c₄.pc u).evicting ≠ some s) ∧
      ∀ envOpen e', Engine.openPath envOpen (some c₄.engine.backend.cold) = .ok e' →
        e'.sensors.lookup s = none := by
  have gone : c₂.Gone s := run_gone absent between (gone_of_drop (run_locked before) idle erase erased)
  have deleted : Erased s c₃ := by
    refine ⟨(step_cases delete).gone (by rw [pending]; simp [Pc.creating]) gone, ?_⟩
    simp only [step, pending, Option.some.injEq] at delete
    rw [← delete]
    show (c₂.engine.backend.deleteSensor (env'.storage.deleteSensor s) s).2.cold.blocks s = .empty
    rw [ok]
    exact deleteSensor_ok _ s
  have final : Erased s c₄ := run_erased absent' after deleted
  refine ⟨final.blocks, final.away, ?_⟩
  intro envOpen e' opened
  refine (Engine.openPath_spec opened).unlisted s ?_
  rw [final.blocks]
  rfl

/-! ## A flush against a drop -/

/-- Thread 0 appends a row and flushes it; thread 1 begins a flush. -/
def flushedRow : List (Turn ℚ) :=
  calmTurns ((0, .ingest sensorA [smallBatchRow 1 1]) :: List.replicate 4 (goesOn 0) ++
    (0, .flush) :: List.replicate 7 (goesOn 0) ++ [(1, .flush)])

def dropTurn : List (Turn ℚ) := calmTurns [(0, .dropSensor sensorA)]

/-- The flush of thread 1 runs its pass between the erase and the delete. -/
def passBetween : List (Turn ℚ) := calmTurns [goesOn 1, goesOn 1]

/-- It ends after them, and another one follows. -/
def passAfter : List (Turn ℚ) := calmTurns (goesOn 1 :: (1, .flush) :: List.replicate 3 (goesOn 1))

theorem flushed_row_dropped :
    ((stateAfter flushedRow).engine.backend.cold.blocks sensorA).keys = [0] ∧
    let c := stateAfter (flushedRow ++ dropTurn ++ passBetween ++ calmTurns [goesOn 0] ++ passAfter)
    c.engine.backend.cold.blocks sensorA = .empty ∧ (∀ u, (c.pc u).evicting ≠ some sensorA) ∧
      ∀ envOpen e', Engine.openPath envOpen (some c.engine.backend.cold) = .ok e' →
        e'.sensors.lookup sensorA = none := by
  refine ⟨by decide +kernel, ?_⟩
  have absent {c : Threads ℚ} {xs : List (Turn ℚ)}
      (h : Runs.check (fun c x => c.step x.thread x.env x.op)
        (fun c x => decide ((c.pc x.thread).creating ≠ some sensorA)) c xs = true) :
      c.Along (NotCreating sensorA) xs :=
    Runs.along_of_check (I := fun _ => True) (fun _ _ _ _ _ _ => trivial)
      (fun _ _ _ h => by unfold NotCreating; exact of_decide_eq_true h) trivial h
  exact dropped_stays_gone (t := 0)
    (run_stateAfter [] flushedRow (by decide +kernel))
    (Pc.eq_idle (by decide +kernel))
    (step_stateAfter flushedRow (0, .dropSensor sensorA) (by decide +kernel))
    (Pc.eq_deleting (by decide +kernel))
    (absent (by decide +kernel))
    (run_stateAfter (flushedRow ++ dropTurn) passBetween (by decide +kernel))
    (Pc.eq_deleting (by decide +kernel)) (by rfl)
    (step_stateAfter (flushedRow ++ dropTurn ++ passBetween) (goesOn 0) (by decide +kernel))
    (absent (by decide +kernel))
    (run_stateAfter _ passAfter (by decide +kernel))

end Threads

end ChronosVector
