import ChronosVector.Factories

/-!
# Lifetimes on one cold path

What can happen to one cold-tier directory: engines are created or opened on it,
called, and destroyed.

* `World`: the directory, with or without a live engine, and a ledger;
* `World.step`, `World.run`: one operation, any sequence of them.

The ledger records what the statements talk about and the program does not
keep: what was appended, how the lifetime began, what recovery put in the
windows. No operation reads it.
-/

namespace ChronosVector

variable {F : Type} [FloatArith F]

/-- What has happened so far. -/
structure Ledger (F : Type) where
  /-- Every row ever appended to a sensor. -/
  appended : SensorId → List (Row F)
  /-- Whether the current lifetime began with `Open`. -/
  opened : Bool
  /-- The directory when it began. -/
  inherited : ColdTier F
  /-- How many rows recovery put in a sensor's window. -/
  recovered : SensorId → Nat
  /-- Whether rows were appended since the lifetime began or the sensor was last
  flushed whole. -/
  unflushed : SensorId → Bool

def Ledger.empty : Ledger F := ⟨fun _ => [], false, .empty, fun _ => 0, fun _ => false⟩

inductive Session (F : Type)
  | down (disk : ColdTier F)
  | up (e : Engine F)

structure World (F : Type) where
  session : Session F
  ledger : Ledger F

/-- Operations on the path. While an engine is up it holds the directory's lock. -/
inductive Op (F : Type)
  | create (cfg : Config)
  | openPath
  | call (c : Call F)
  | destroy

namespace Ledger

variable (l : Ledger F)

/-- The ledger at the start of a lifetime. -/
def start (opened : Bool) (disk : ColdTier F) (e : Engine F) : Ledger F :=
  { l with
    opened := opened
    inherited := disk
    recovered := fun s => (e.tier s).hot.items.length
    unflushed := fun _ => false }

/-- The ledger after a call. A pass with window zero flushes a sensor whole if
the scratch could be allocated; a drop leaves nothing to flush. -/
def record (env : Env F) (e : Engine F) (c : Call F) : Ledger F :=
  { l with
    appended := fun s => l.appended s ++ (e.appended env c s).map Entry.toRow
    recovered := fun s => if c.drops s && !e.closed then 0 else l.recovered s
    unflushed := fun s =>
      if (e.appended env c s).isEmpty = false then true
      else if c.drops s && !e.closed then false
      else
        match e.pass c with
        | none => l.unflushed s
        | some (_, w) => if w = 0 ∧ 4 ≤ env.scratchMemory s then false else l.unflushed s }

end Ledger

def Op.isDrop : Op F → Bool
  | .call (.dropSensor _) => true
  | _ => false

def Op.isCreate : Op F → Bool
  | .create _ => true
  | _ => false

omit [FloatArith F] in
theorem Op.not_drops {c : Call F} (h : (Op.call c).isDrop = false) (s : SensorId) :
    c.drops s = false := by
  cases c <;> first | rfl | cases h

namespace World

/-- An empty directory with no engine. -/
def fresh : World F := ⟨.down .empty, .empty⟩

/-- The content of the directory. -/
def disk (w : World F) : ColdTier F :=
  match w.session with
  | .down disk => disk
  | .up e => e.backend.cold

def step (env : Env F) (op : Op F) (w : World F) : World F :=
  match w.session, op with
  | .down disk, .create cfg =>
    match Engine.create env cfg (some disk) with
    | .error _ => w
    | .ok e => ⟨.up e, w.ledger.start false disk e⟩
  | .down disk, .openPath =>
    match Engine.openPath env (some disk) with
    | .error _ => w
    | .ok e => ⟨.up e, w.ledger.start true disk e⟩
  | .up e, .call c => ⟨.up (e.call env c).2, w.ledger.record env e c⟩
  | .up e, .destroy => ⟨.down e.backend.cold, w.ledger⟩
  | _, _ => w

def run : List (Env F × Op F) → World F → World F
  | [], w => w
  | (env, op) :: rest, w => run rest (w.step env op)

/-- Some property of a step holds of every step of a run. -/
def EveryStep (P : World F → Env F → Op F → Prop) : List (Env F × Op F) → World F → Prop
  | [], _ => True
  | (env, op) :: rest, w => P w env op ∧ EveryStep P rest (w.step env op)

/-- The blocks an operation hands to `WriteBlock`. -/
def writes (w : World F) (env : Env F) : Op F → List (Block F)
  | .call c =>
    match w.session with
    | .down _ => []
    | .up e => e.writes env c
  | _ => []

/-- A property of each step that follows from an invariant. -/
theorem everyStep_of (Inv : World F → Prop) {A P : World F → Env F → Op F → Prop}
    (hp : ∀ w env op, Inv w → A w env op → P w env op)
    (hstep : ∀ w env op, Inv w → A w env op → Inv (w.step env op))
    {ops : List (Env F × Op F)} {w : World F} (h : Inv w) (ha : EveryStep A ops w) :
    EveryStep P ops w := by
  induction ops generalizing w with
  | nil => trivial
  | cons x rest ih => exact ⟨hp _ _ _ h ha.1, ih (hstep _ _ _ h ha.1) ha.2⟩

/-- Under an assumption `A` on the steps of a run, two conditions hold of all of
them equally, when the second keeps the invariant that their equivalence at one
step rests on. -/
theorem everyStep_iff {A P Q : World F → Env F → Op F → Prop} {Inv : World F → Prop}
    (hiff : ∀ w env op, Inv w → A w env op → (P w env op ↔ Q w env op))
    (hstep : ∀ w env op, Inv w → A w env op → Q w env op → Inv (w.step env op))
    {ops : List (Env F × Op F)} {w : World F} (h : Inv w) (ha : EveryStep A ops w) :
    EveryStep P ops w ↔ EveryStep Q ops w := by
  induction ops generalizing w with
  | nil => exact Iff.rfl
  | cons x rest ih =>
    simp only [EveryStep, hiff _ _ _ h ha.1, and_congr_right_iff]
    intro hq
    exact ih (hstep _ _ _ h ha.1 hq) ha.2

theorem everyStep_append {P : World F → Env F → Op F → Prop} {xs ys : List (Env F × Op F)}
    {w : World F} (h : EveryStep P (xs ++ ys) w) : EveryStep P ys (run xs w) := by
  induction xs generalizing w with
  | nil => exact h
  | cons x rest ih => exact ih h.2

theorem EveryStep.and {P Q : World F → Env F → Op F → Prop} {ops : List (Env F × Op F)}
    {w : World F} (hp : EveryStep P ops w) (hq : EveryStep Q ops w) :
    EveryStep (fun w env op => P w env op ∧ Q w env op) ops w := by
  induction ops generalizing w with
  | nil => trivial
  | cons x rest ih => exact ⟨⟨hp.1, hq.1⟩, ih hp.2 hq.2⟩

/-! ## What a step can be -/

/-- The world after a step. -/
inductive StepKind (w : World F) (env : Env F) (op : Op F) : World F → Prop
  | stays (writes : w.writes env op = [])
      (noCall : ∀ e c, w.session = .up e → op ≠ .call c) : StepKind w env op w
  | created (cfg : Config) (disk : ColdTier F) (e : Engine F) (session : w.session = .down disk)
      (isOp : op = .create cfg) (spec : Engine.Created env cfg disk e) :
      StepKind w env op ⟨.up e, w.ledger.start false disk e⟩
  | opened (disk : ColdTier F) (e : Engine F) (session : w.session = .down disk)
      (isOp : op = .openPath) (spec : Engine.Opened env disk e) :
      StepKind w env op ⟨.up e, w.ledger.start true disk e⟩
  | called (e : Engine F) (c : Call F) (session : w.session = .up e) (isOp : op = .call c) :
      StepKind w env op ⟨.up (e.call env c).2, w.ledger.record env e c⟩
  | destroyed (e : Engine F) (session : w.session = .up e) (isOp : op = .destroy) :
      StepKind w env op ⟨.down e.backend.cold, w.ledger⟩

theorem step_kind (w : World F) (env : Env F) (op : Op F) : StepKind w env op (w.step env op) := by
  cases hs : w.session with
  | down disk =>
    have noCall : ∀ e c, w.session = .up e → op ≠ .call c := by simp [hs]
    cases op with
    | create cfg =>
      cases hc : Engine.create env cfg (some disk) with
      | error err =>
        simp only [step, hs, hc]
        exact .stays rfl noCall
      | ok e =>
        simp only [step, hs, hc]
        exact .created cfg disk e hs rfl (Engine.create_spec hc)
    | openPath =>
      cases ho : Engine.openPath env (some disk) with
      | error err =>
        simp only [step, hs, ho]
        exact .stays rfl noCall
      | ok e =>
        simp only [step, hs, ho]
        exact .opened disk e hs rfl (Engine.openPath_spec ho)
    | call c =>
      simp only [step, hs]
      exact .stays (by simp only [writes, hs]) noCall
    | destroy =>
      simp only [step, hs]
      exact .stays rfl noCall
  | up e =>
    cases op with
    | create cfg =>
      simp only [step, hs]
      exact .stays rfl fun _ _ _ h => by cases h
    | openPath =>
      simp only [step, hs]
      exact .stays rfl fun _ _ _ h => by cases h
    | call c =>
      simp only [step, hs]
      exact .called e c hs rfl
    | destroy =>
      simp only [step, hs]
      exact .destroyed e hs rfl

/-- A live engine is one of this directory's. -/
def Ok (w : World F) : Prop := ∀ e, w.session = .up e → e.Ok ∧ e.backend.persists = true

theorem step_ok {w : World F} (h : w.Ok) (env : Env F) (op : Op F) : (w.step env op).Ok := by
  have kind := step_kind w env op
  generalize w.step env op = w' at kind
  cases kind with
  | stays => exact h
  | created cfg disk e _ _ spec =>
    rintro _ ⟨⟩
    exact ⟨spec.ok, spec.persists⟩
  | opened disk e _ _ spec =>
    rintro _ ⟨⟩
    exact ⟨spec.ok, by rw [spec.backend]; rfl⟩
  | called e c session =>
    rintro _ ⟨⟩
    obtain ⟨ok, per⟩ := h e session
    have frame := Engine.call_frame ok env c
    exact ⟨frame.ok, by rw [frame.persists]; exact per⟩
  | destroyed => exact fun _ h => by cases h

omit [FloatArith F] in
theorem disk_of_up {w : World F} {e : Engine F} (h : w.session = .up e) :
    w.disk = e.backend.cold := by
  simp only [disk, h]

omit [FloatArith F] in
theorem disk_of_down {w : World F} {d : ColdTier F} (h : w.session = .down d) : w.disk = d := by
  simp only [disk, h]

end World

end ChronosVector
