import ChronosVector.Copies
import ChronosVector.Overwrites
import ChronosVector.Restart
import ChronosVector.StoreLog
import ChronosVector.Lib.Runs

/-!
# Crashes

A cold path whose host can lose power. `SyncWAL` makes RocksDB's log durable: of
what came after the last sync a crash keeps some first part.

* `Machine`, `Machine.step`: the path, its engine, and a crash at any moment,
  also in the middle of a call;
* `flushed_rows_survive`, `crash_keeps_prefix`: the rows that are left;
* `identity_survives_crash`: the engine that is found.
-/

namespace ChronosVector

variable {F : Type}

section
variable [FloatArith F]

structure Machine (F : Type) where
  wal : Wal (ColdTier F) (StoreWrite F)
  engine : Option (Engine F)

inductive MachineOp (F : Type)
  | create (cfg : Config)
  | openPath
  | call (c : Call F)
  | destroy
  /-- Power is lost, with a call under way or not. -/
  | crash (during : Option (Call F)) (kept : Nat)

omit [FloatArith F] in
/-- The call an operation makes, to its end or not. -/
def MachineOp.calls : MachineOp F → Option (Call F)
  | .call c => some c
  | .crash during _ => during
  | _ => none

namespace Machine

def fresh : Machine F := ⟨⟨.empty, []⟩, none⟩

/-- What the next read finds at the path. -/
def disk (m : Machine F) : ColdTier F := m.wal.view ColdTier.apply

/-- A `Flush` syncs the log when it returns `ok`. -/
def synced (e : Engine F) (env : Env F) (c : Call F) : Bool :=
  match c with
  | .flush => (e.call env c).1 = .ok
  | _ => false

/-- The log with the writes of a call that is under way. -/
def underWay (m : Machine F) (env : Env F) (during : Option (Call F)) :
    Wal (ColdTier F) (StoreWrite F) :=
  match m.engine, during with
  | some e, some c => m.wal.write (e.logged env c)
  | _, _ => m.wal

def step (env : Env F) (op : MachineOp F) (m : Machine F) : Machine F :=
  match m.engine, op with
  | none, .create cfg =>
    match Engine.create env cfg (some m.disk) with
    | .error _ => m
    | .ok e => ⟨m.wal.write (e.createLogged env), some e⟩
  | none, .openPath =>
    match Engine.openPath env (some m.disk) with
    | .error _ => m
    | .ok e => ⟨m.wal, some e⟩
  | some e, .call c =>
    let wal := m.wal.write (e.logged env c)
    ⟨if synced e env c then wal.sync ColdTier.apply else wal, some (e.call env c).2⟩
  | some _, .destroy => ⟨m.wal, none⟩
  | _, .crash during kept => ⟨(m.underWay env during).crash ColdTier.apply kept, none⟩
  | _, _ => m

theorem step_crash (m : Machine F) (env : Env F) (during : Option (Call F)) (kept : Nat) :
    m.step env (.crash during kept) =
      ⟨(m.underWay env during).crash ColdTier.apply kept, none⟩ := by
  cases up : m.engine with
  | none => simp only [step, up]
  | some e => simp only [step, up]

/-- One operation in its environment. -/
def next (m : Machine F) (x : Env F × MachineOp F) : Machine F := m.step x.1 x.2

def run (steps : List (Env F × MachineOp F)) (m : Machine F) : Machine F := steps.foldl next m

end Machine

/-! ## What every operation keeps -/

namespace Machine

variable {m : Machine F} {s : SensorId} {env : Env F} {op : MachineOp F} {e : Engine F}

section
omit [FloatArith F]

/-- The operation leaves the blocks of `s` to recovery and eviction: it does not
drop the sensor, and `Create` is for a path without blocks of it. -/
structure Spares (s : SensorId) (m : Machine F) (x : Env F × MachineOp F) : Prop where
  kept : ∀ c ∈ x.2.calls, c.drops s = false
  first : ∀ cfg, x.2 = .create cfg → m.disk.blocks s = .empty

structure Sound (s : SensorId) (m : Machine F) : Prop where
  ok : ∀ e, m.engine = some e → e.Ok
  backend : ∀ e, m.engine = some e → e.backend = .rocksdb m.disk
  past : ∀ e, m.engine = some e → (e.tier s).Past
  steady : m.wal.Steady ColdTier.apply (ColdTier.Extends s)

theorem fresh_sound (s : SensorId) : (fresh : Machine F).Sound s :=
  ⟨nofun, nofun, nofun, trivial⟩

/-- A state with no engine needs its log only. -/
theorem sound_down {wal : Wal (ColdTier F) (StoreWrite F)}
    (steady : wal.Steady ColdTier.apply (ColdTier.Extends s)) : Sound s ⟨wal, none⟩ :=
  ⟨nofun, nofun, nofun, steady⟩

theorem sound_up {wal : Wal (ColdTier F) (StoreWrite F)} (ok : e.Ok)
    (backend : e.backend = .rocksdb (wal.view ColdTier.apply)) (past : (e.tier s).Past)
    (steady : wal.Steady ColdTier.apply (ColdTier.Extends s)) : Sound s ⟨wal, some e⟩ where
  ok := by
    rintro _ ⟨⟩
    exact ok
  backend := by
    rintro _ ⟨⟩
    exact backend
  past := by
    rintro _ ⟨⟩
    exact past
  steady := steady

/-- What was durable stays, and what is new comes later. -/
def Kept (s : SensorId) (m m' : Machine F) : Prop :=
  m'.Sound s ∧ ColdTier.Extends s m.wal.durable m'.wal.durable

theorem kept_same {m' : Machine F} (sound : m'.Sound s) (same : m'.wal.durable = m.wal.durable) :
    Kept s m m' := ⟨sound, by rw [same]; exact refl_of _ _⟩

end

theorem created_kept {cfg : Config} (h : m.Sound s)
    (created : Engine.create env cfg (some m.disk) = .ok e) (first : m.disk.blocks s = .empty) :
    Kept s m ⟨m.wal.write (e.createLogged env), some e⟩ := by
  have spec := Engine.create_spec created
  have moves : Wal.Moves ColdTier.apply (ColdTier.Extends s) m.disk (e.createLogged env) := by
    unfold Engine.createLogged
    split
    · exact ⟨extends_of_same rfl, trivial⟩
    · trivial
  refine kept_same (sound_up spec.ok ?_ ?_ (h.steady.write moves)) rfl
  · rw [Wal.view_write]
    exact Engine.create_logged created
  · intro id hid
    rw [spec.tier s, first] at hid
    cases hid

theorem opened_kept (h : m.Sound s) (opened : Engine.openPath env (some m.disk) = .ok e) :
    Kept s m ⟨m.wal, some e⟩ := by
  have spec := Engine.openPath_spec opened
  refine kept_same (sound_up spec.ok spec.backend ?_ h.steady) rfl
  obtain ⟨next, blocks, -⟩ := spec.tier s
  intro id hid
  rw [blocks] at hid
  rw [next]
  exact Engine.lt_seedBlockId _ hid

/-- The log after a call. -/
theorem Sound.logged (env : Env F) (h : m.Sound s) (up : m.engine = some e) {c : Call F}
    (kept : c.drops s = false) :
    (m.wal.write (e.logged env c)).Steady ColdTier.apply (ColdTier.Extends s) :=
  h.steady.write (Engine.call_moves (h.ok e up) (h.backend e up) (h.past e up) kept)

theorem called_kept (env : Env F) (h : m.Sound s) (up : m.engine = some e) {c : Call F}
    (kept : c.drops s = false) : Kept s m (m.step env (.call c)) := by
  have ok := h.ok e up
  have steady := h.logged env up kept
  have backend := Engine.call_logged env ok (h.backend e up) c
  rw [disk, ← Wal.view_write] at backend
  have past := Engine.call_past env ok (h.past e up) c kept
  have ok' := (Engine.call_frame ok env c).ok
  simp only [step, up]
  split
  · exact ⟨sound_up ok' backend past (Wal.steady_sync _), steady.durable_view⟩
  · exact kept_same (sound_up ok' backend past steady) rfl

theorem Sound.underWay (env : Env F) (h : m.Sound s) {during : Option (Call F)}
    (kept : ∀ c ∈ during, c.drops s = false) :
    (m.underWay env during).Steady ColdTier.apply (ColdTier.Extends s) ∧
      (m.underWay env during).durable = m.wal.durable := by
  unfold Machine.underWay
  split
  · rename_i e c up
    exact ⟨h.logged env up (kept c rfl), rfl⟩
  · exact ⟨h.steady, rfl⟩

theorem crashed_kept (h : m.Sound s) {during : Option (Call F)} {kept : Nat}
    (spares : ∀ c ∈ during, c.drops s = false) :
    Kept s m (m.step env (.crash during kept)) := by
  obtain ⟨steady, durable⟩ := h.underWay env spares
  rw [step_crash]
  refine ⟨sound_down (Wal.steady_crash _ _), ?_⟩
  rw [← durable]
  exact (steady.between kept).1

/-- **One operation.** -/
theorem step_kept (h : m.Sound s) (spares : m.Spares s (env, op)) : Kept s m (m.step env op) := by
  have stays : Kept s m m := kept_same h rfl
  cases up : m.engine with
  | none =>
    cases op with
    | create cfg =>
      cases created : Engine.create env cfg (some m.disk) with
      | error err =>
        simp only [step, up, created]
        exact stays
      | ok e =>
        simp only [step, up, created]
        exact created_kept h created (spares.first cfg rfl)
    | openPath =>
      cases opened : Engine.openPath env (some m.disk) with
      | error err =>
        simp only [step, up, opened]
        exact stays
      | ok e =>
        simp only [step, up, opened]
        exact opened_kept h opened
    | call | destroy =>
      simp only [step, up]
      exact stays
    | crash during kept => exact crashed_kept h spares.kept
  | some e =>
    cases op with
    | create | openPath =>
      simp only [step, up]
      exact stays
    | call c => exact called_kept env h up (spares.kept c rfl)
    | destroy =>
      simp only [step, up]
      exact kept_same (sound_down h.steady) rfl
    | crash during kept => exact crashed_kept h spares.kept

/-- A whole run. -/
theorem run_kept {steps : List (Env F × MachineOp F)} (h : m.Sound s)
    (spares : Runs.Each next (Spares s) m steps) : Kept s m (run steps m) := by
  apply spares.preserves (I := Kept s m) ?_ (kept_same h rfl)
  intro m' x kept spares
  obtain ⟨sound, later⟩ := step_kept kept.1 spares
  exact ⟨sound, trans_of (ColdTier.Extends s) kept.2 later⟩

end Machine

/-! ## What is left after a crash -/

/-- The persisted rows of a sensor, in block order. -/
def ColdTier.rows (db : ColdTier F) (s : SensorId) : List (Row F) :=
  (db.blocks s).values.flatMap StoredBlock.rows

omit [FloatArith F] in
theorem ColdTier.Extends.rows {s : SensorId} {db db' : ColdTier F} (h : ColdTier.Extends s db db') :
    db.rows s <+: db'.rows s := by
  obtain ⟨later, eq⟩ := h
  rw [ColdTier.rows, ColdTier.rows, SortedMap.values, SortedMap.values, ← eq, List.map_append,
    List.flatMap_append]
  exact List.prefix_append _ _

/-- A flush whose write succeeds puts the window behind the persisted rows. -/
theorem Tier.Evicts.flushed_rows {t t' : Tier F} {env : Env F} {sh : RingShape} {s : SensorId}
    {own : List (Block F)} (h : t.Evicts env true sh 0 s t' own) (past : t.Past)
    (fits : t.hot.items.length < 2 ^ 32) (written : env.storage.writeBlock s = .ok)
    (memory : 4 ≤ env.scratchMemory s) : t'.coldRows = t.coldRows ++ t.hotRows := by
  have all : t.evictedCount env 0 s = t.hot.items.length := by
    rw [Tier.evictedCount, if_neg (by omega), evictCount_zero]
  cases h with
  | idle zero =>
    rw [all, List.length_eq_zero_iff] at zero
    rw [Tier.hotRows, zero, List.map_nil, List.append_nil]
  | wrote k blk count pos sensor id cut =>
    have whole : k = t.hotRows.length := by
      rw [← count, all, Tier.hotRows, List.length_map]
    simp only [WriteOutcome.of, written, if_true, Bool.true_eq_false, if_false]
    rw [coldRows_put past, cut.rows_eq (by omega), whole, List.take_length]

namespace Machine

variable {m : Machine F} {s : SensorId} {env : Env F} {e : Engine F}

omit [FloatArith F] in
theorem Sound.cold (h : m.Sound s) (up : m.engine = some e) :
    (e.tier s).coldRows = m.disk.rows s := by
  simp only [Tier.coldRows, Engine.tier, h.backend e up]
  rfl

/-- A flush that returns `ok` makes all rows durable. -/
theorem flushed_durable (h : m.Sound s) (up : m.engine = some e)
    (small : e.cfg.shape.capacity < 2 ^ 31) (returned : (e.call env .flush).1 = .ok)
    (written : env.storage.writeBlock s = .ok) (memory : 4 ≤ env.scratchMemory s) :
    (m.step env (.call .flush)).wal.durable.rows s = (e.tier s).coldRows ++ (e.tier s).hotRows := by
  have ok := h.ok e up
  have opened : e.closed = false := by
    cases closed : e.closed with
    | false => rfl
    | true => simp [Engine.call, Engine.flush, closed] at returned
  have pass : e.pass .flush = some (e, 0) := by simp [Engine.pass, opened]
  obtain ⟨own, evicts, -⟩ := Engine.call_pass_evicts pass ok env s
  have persists : e.backend.persists = true := by
    rw [h.backend e up]
    rfl
  rw [persists] at evicts
  have fits := Engine.window_fits ok s
  rw [← evicts.flushed_rows (h.past e up) (by omega) written memory]
  have sound := (called_kept env h up (rfl : Call.drops s .flush = false)).1
  have after : (m.step env (.call .flush)).engine = some (e.call env .flush).2 := by
    simp only [step, up]
  rw [sound.cold after]
  simp only [step, up, synced, returned, decide_true, if_true, disk]
  rfl

/-- **What a flush has saved survives.** In every run whose lifetimes, after the
first, begin with `Open`, and that does not drop the sensor: from a flush that
returned `ok` on, the persisted rows of a sensor begin with those that were
persisted or in its window when the flush began, in their order, whatever
crashes follow. -/
theorem flushed_rows_survive {before later : List (Env F × MachineOp F)}
    (spares : Runs.Each next (Spares s) fresh (before ++ (env, .call .flush) :: later))
    (up : (run before fresh).engine = some e) (small : e.cfg.shape.capacity < 2 ^ 31)
    (returned : (e.call env .flush).1 = .ok) (written : env.storage.writeBlock s = .ok)
    (memory : 4 ≤ env.scratchMemory s) :
    (e.tier s).coldRows ++ (e.tier s).hotRows <+:
      (run (before ++ (env, .call .flush) :: later) fresh).disk.rows s := by
  obtain ⟨first, flushed, rest⟩ := Runs.each_append.mp spares
  have sound := (run_kept (fresh_sound s) first).1
  obtain ⟨sound', -⟩ := step_kept sound flushed
  obtain ⟨last, kept⟩ := run_kept sound' rest
  have done : run (before ++ (env, .call .flush) :: later) fresh =
      run later ((run before fresh).step env (.call .flush)) := List.foldl_append
  rw [← flushed_durable sound up small returned written memory, done]
  exact (trans_of (ColdTier.Extends s) kept last.steady.durable_view).rows

/-- One row of `sensorA`. -/
def rowCall (ts : Int64) : Call ℚ := .append (some sensorA.bytes) ts (some fun _ => 1) 1 none

def firstRow : List (Env ℚ × MachineOp ℚ) := calmly 0 [.create smallConfig, .call (rowCall 1)]

/-- Power is lost in the middle of the second flush. -/
def powerCut : List (Env ℚ × MachineOp ℚ) :=
  calmly 0 [.call (rowCall 2), .crash (some .flush) 0]

theorem powerCut_spares : Runs.Each next (Spares sensorA) fresh
    (firstRow ++ (.calm ℚ 0, .call .flush) :: powerCut) := by
  refine ⟨⟨by simp [MachineOp.calls], fun _ _ => rfl⟩, ?_, ?_, ?_, ?_, trivial⟩
  · exact ⟨by simp [MachineOp.calls, rowCall, Call.drops], by simp⟩
  · exact ⟨by simp [MachineOp.calls, Call.drops], by simp⟩
  · exact ⟨by simp [MachineOp.calls, rowCall, Call.drops], by simp⟩
  · exact ⟨by simp [MachineOp.calls, Call.drops], by simp⟩

theorem powerCut_survived :
    (smallAppended.tier sensorA).coldRows ++ (smallAppended.tier sensorA).hotRows <+:
      (run (firstRow ++ (.calm ℚ 0, .call .flush) :: powerCut) fresh).disk.rows sensorA :=
  flushed_rows_survive powerCut_spares rfl (by decide) rfl rfl (Nat.le_refl 4)

/-- **A crash cuts the end off.** Whenever power is lost, also in the middle of a
pass, the rows of a sensor that are left are a first part of those that the call
under way would have left, with all that were durable. -/
theorem crash_keeps_prefix {steps : List (Env F × MachineOp F)} {during : Option (Call F)}
    {kept : Nat} (spares : Runs.Each next (Spares s) fresh (steps ++ [(env, .crash during kept)])) :
    let m := run steps fresh
    let left := (m.step env (.crash during kept)).disk.rows s
    m.wal.durable.rows s <+: left ∧
      left <+: ((m.underWay env during).view ColdTier.apply).rows s := by
  intro m left
  obtain ⟨first, ⟨⟨drops, -⟩, -⟩⟩ := Runs.each_append.mp spares
  obtain ⟨steady, durable⟩ := (run_kept (fresh_sound s) first).1.underWay env drops
  obtain ⟨before, after⟩ := steady.between kept
  rw [durable] at before
  simp only [left, step_crash]
  exact ⟨before.rows, after.rows⟩

/-- Of the second flush nothing is left. -/
theorem powerCut_prefix :
    let m := run (firstRow ++ [(.calm ℚ 0, .call .flush), (.calm ℚ 0, .call (rowCall 2))]) fresh
    let left := (m.step (.calm ℚ 0) (.crash (some .flush) 0)).disk.rows sensorA
    m.wal.durable.rows sensorA <+: left ∧
      left <+: ((m.underWay (.calm ℚ 0) (some .flush)).view ColdTier.apply).rows sensorA := by
  have spares : Runs.Each next (Spares sensorA) fresh
      ((firstRow ++ [(.calm ℚ 0, .call .flush), (.calm ℚ 0, .call (rowCall 2))]) ++
        [(.calm ℚ 0, .crash (some .flush) 0)]) := powerCut_spares
  exact crash_keeps_prefix spares

example : (run (firstRow ++ (.calm ℚ 0, .call .flush) :: powerCut) fresh).disk.rows sensorA =
    [smallRow 1 1] := by decide +kernel

/-! ## The metadata -/

/-- The metadata `bytes` is at the path and stays there, whatever is lost. -/
structure Identified (bytes : List UInt8) (m : Machine F) : Prop where
  durable : m.wal.durable.metadata = some bytes
  steady : m.wal.Steady ColdTier.apply SameMetadata

variable {m : Machine F} {bytes : List UInt8} {env : Env F} {op : MachineOp F}

omit [FloatArith F] in
theorem Identified.disk (h : Identified bytes m) : m.disk.metadata = some bytes :=
  h.steady.durable_view.trans h.durable

theorem Identified.step (h : Identified bytes m) (later : ∀ cfg, op ≠ .create cfg) :
    Identified bytes (m.step env op) := by
  have logged (e : Engine F) (c : Call F) :
      (m.wal.write (e.logged env c)).Steady ColdTier.apply SameMetadata :=
    h.steady.write (same_metadata_moves _ (logged_no_metadata e env c))
  cases op with
  | create cfg => exact absurd rfl (later cfg)
  | crash during kept =>
    have underWay : (m.underWay env during).Steady ColdTier.apply SameMetadata ∧
        (m.underWay env during).durable = m.wal.durable := by
      unfold Machine.underWay
      split
      · exact ⟨logged _ _, rfl⟩
      · exact ⟨h.steady, rfl⟩
    obtain ⟨steady, durable⟩ := underWay
    rw [step_crash]
    refine ⟨(steady.between kept).1.trans ?_, Wal.steady_crash _ _⟩
    rw [durable, h.durable]
  | openPath =>
    cases up : m.engine with
    | some e =>
      simp only [Machine.step, up]
      exact h
    | none =>
      cases opened : Engine.openPath env (some m.disk) with
      | error err =>
        simp only [Machine.step, up, opened]
        exact h
      | ok e =>
        simp only [Machine.step, up, opened]
        exact ⟨h.durable, h.steady⟩
  | call c =>
    cases up : m.engine with
    | none =>
      simp only [Machine.step, up]
      exact h
    | some e =>
      simp only [Machine.step, up]
      split
      · exact ⟨(logged e c).durable_view.trans h.durable, Wal.steady_sync _⟩
      · exact ⟨h.durable, logged e c⟩
  | destroy =>
    cases up : m.engine with
    | none =>
      simp only [Machine.step, up]
      exact h
    | some e =>
      simp only [Machine.step, up]
      exact ⟨h.durable, h.steady⟩

theorem Identified.run {later : List (Env F × MachineOp F)} (h : Identified bytes m)
    (opens : ∀ x ∈ later, ∀ cfg, x.2 ≠ .create cfg) : Identified bytes (run later m) :=
  Runs.Each.preserves (Runs.each_of_forall fun _ => opens) (fun _ _ h later => h.step later) h

/-- The calls of one lifetime. -/
def ofCalls (calls : List (Env F × Call F)) : List (Env F × MachineOp F) :=
  calls.map fun x => (x.1, .call x.2)

theorem run_calls {e : Engine F} (calls : List (Env F × Call F)) (up : m.engine = some e)
    (metadata : m.disk.metadata = some bytes) :
    (run (ofCalls calls) m).engine = some (Engine.run calls e) ∧
      (run (ofCalls calls) m).disk.metadata = some bytes := by
  induction calls generalizing m e with
  | nil => exact ⟨up, metadata⟩
  | cons x rest ih =>
    have next : (m.step x.1 (.call x.2)).engine = some (e.call x.1 x.2).2 := by
      simp only [step, up]
    have disk : (m.step x.1 (.call x.2)).disk = (e.logged x.1 x.2).foldl ColdTier.apply m.disk := by
      simp only [step, up, Machine.disk]
      split
      · rw [Wal.view_sync, Wal.view_write]
      · rw [Wal.view_write]
    have same := (same_metadata_moves m.disk (logged_no_metadata e x.1 x.2)).foldl
    rw [← disk] at same
    exact ih next (same.trans metadata)

/-- **Identity and schema survive crashes.** After a `Create` on an empty path
whose engine has returned `ok` from a flush, `Open` succeeds on what is at the
path at every later moment, whatever crashes came between, and finds the created
engine's identity and every persisted field. -/
theorem identity_survives_crash {env₀ env env' : Env F} {c : Config} {e₀ : Engine F}
    (created : Engine.create env₀ c (some .empty) = .ok e₀)
    (stored : env₀.storage.writeMetadata = .ok) {calls : List (Env F × Call F)}
    (returned : ((Engine.run calls e₀).call env .flush).1 = .ok)
    {later : List (Env F × MachineOp F)} (opens : ∀ x ∈ later, ∀ cfg, x.2 ≠ .create cfg)
    (succeeds : env'.storage.Succeeds) :
    ∃ e', Engine.openPath env' (some (run ((env₀, .create c) :: ofCalls calls ++
        (env, .call .flush) :: later) fresh).disk) = .ok e' ∧
      e'.cfg.metadata e'.uuid = c.withDefaults.metadata e₀.uuid := by
  have spec := Engine.create_spec created
  let made : Machine F := ⟨(fresh : Machine F).wal.write (e₀.createLogged env₀), some e₀⟩
  have start : (fresh : Machine F).step env₀ (.create c) = made := by
    have empty : (fresh : Machine F).disk = .empty := rfl
    simp only [step, fresh] at empty ⊢
    rw [empty, created]
    rfl
  have metadata : made.disk.metadata =
      some (serializeEngineMetadata (e₀.cfg.metadata e₀.uuid)) := by
    simp only [made, disk, Wal.view_write, Engine.createLogged, stored, if_true]
    rfl
  obtain ⟨up, found⟩ := run_calls calls (m := made) rfl metadata
  have flushed : Identified (serializeEngineMetadata (e₀.cfg.metadata e₀.uuid))
      ((run (ofCalls calls) made).step env (.call .flush)) := by
    have same := (same_metadata_moves (run (ofCalls calls) made).disk
      (logged_no_metadata (Engine.run calls e₀) env .flush)).foldl
    simp only [step, up, synced, returned, decide_true, if_true]
    refine ⟨?_, Wal.steady_sync _⟩
    simp only [Wal.sync, Wal.view_write]
    exact same.trans found
  have done : run ((env₀, .create c) :: ofCalls calls ++ (env, .call .flush) :: later) fresh =
      run later ((run (ofCalls calls) made).step env (.call .flush)) := by
    rw [← start]
    exact List.foldl_append
  rw [done]
  exact Engine.openPath_succeeds succeeds spec.cfg (flushed.run opens).disk

theorem powerCut_identified : ∃ e' : Engine ℚ, Engine.openPath (.calm ℚ 0)
    (some (run ((.calm ℚ 0, .create smallConfig) :: ofCalls [(.calm ℚ 0, rowCall 1)] ++
      (.calm ℚ 0, .call .flush) :: powerCut) fresh).disk) = .ok e' ∧
    e'.cfg.metadata e'.uuid = smallConfig.withDefaults.metadata smallConfig.uuid :=
  identity_survives_crash (smallEngine_created 0) rfl rfl
    (by simp [powerCut, calmly]) (Env.calm_succeeds ℚ 0)

/-- Without the flush, a crash may take the metadata too, and `Open` falls back
to its defaults. -/
example : (Machine.run (calmly 0 [.create smallConfig, .crash none 0, .openPath])
    (fresh : Machine ℚ)).engine.map (fun e => e.cfg.dim) = some 128 := by decide +kernel

end Machine

end

end ChronosVector
