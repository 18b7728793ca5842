import Mathlib.Data.Rat.Floor
import Mathlib.Data.Rat.Sqrt
import ChronosVector.Lifecycle

/-!
# Exact arithmetic and a calm environment

Floats as rational numbers, and the environment in which everything outside the
engine goes well. Concrete runs are evaluated in them.
-/

namespace ChronosVector

/-- IEEE-754 single precision, for the bit patterns of finite numbers. -/
def ratOfBits (b : UInt32) : ℚ :=
  let n := b.toNat
  let frac : ℚ := (n % 2 ^ 23 : ℕ)
  let expo := n / 2 ^ 23 % 2 ^ 8
  let sign : ℚ := if n < 2 ^ 31 then 1 else -1
  if expo = 0 then sign * frac / 2 ^ 149
  else sign * (1 + frac / 2 ^ 23) * (2 ^ expo / 2 ^ 127)

/-- Exact numbers. `sqrt` is exact on squares. -/
instance : FloatArith ℚ where
  lt a b := a < b
  le a b := a ≤ b
  sqrt := Rat.sqrt
  ofInt i := i
  lround x := if 0 ≤ x then ⌊x + 1 / 2⌋ else -⌊-x + 1 / 2⌋
  ofBits := ratOfBits

/-- Zero-filled memory. -/
def Columns.zero (F : Type) [FloatArith F] : Columns F :=
  ⟨fun _ => 0, fun _ => default, fun _ => 0, fun _ => 0, fun _ => 0⟩

/-- Nothing fails, and the clock reads `now`. -/
def Env.calm (F : Type) [FloatArith F] (now : Int64) : Env F where
  storage := .allOk
  order := id
  order_perm := List.Perm.refl
  ringMemory := fun _ => some (.zero F)
  scratchMemory := fun _ => 4
  recoveryMemory := fun _ => true
  now := now
  freshUuid := Vector.replicate 16 1

theorem Env.calm_succeeds (F : Type) [FloatArith F] (now : Int64) :
    (calm F now).storage.Succeeds := StorageStatus.allOk_succeeds

/-- One-dimensional FLOAT32 vectors without payloads, in the smallest ring. -/
def smallConfig : Config where
  abiVersion := chronosvAbiVersion
  dim := 1
  uuid := Vector.replicate 16 7
  ringCapacity := 64
  windowDurationMs := 1000
  evictionIntervalMs := 100
  payloadSizeBytes := 0
  storageDtype := 0
  distanceMetric := 0
  maxSensors := 0
  recoverHotWindow := 1

/-- `smallConfig`, checked. -/
def smallValid : ValidConfig :=
  { smallConfig with
    abi_ok := by decide
    dim_pos := by decide
    dim_le := by decide
    payload_le := by decide
    dtype_le := by decide
    metric_le := by decide
    capacity_min := by decide
    capacity_pow := ⟨6, by decide⟩
    window_nonneg := by decide
    interval_min := by decide }

def sensorA : SensorId := ⟨[0x61], by decide⟩

def sensorB : SensorId := ⟨[0x62], by decide⟩

/-- A row of `smallConfig`. -/
def smallRow (ts : Int64) (x : ℚ) : Row ℚ := ⟨ts, [.f32 x], none, []⟩

/-- A block of `smallConfig`'s schema. -/
def smallBlock (tEnd : Int64) (rows : List (Int64 × ℚ)) : StoredBlock ℚ where
  tStartMs := (rows.map Prod.fst).headD 0
  tEndMs := tEnd
  dim := 1
  payloadSizeBytes := 0
  dtype := .float32
  rows := rows.map fun p => smallRow p.1 p.2
  fits := by
    intro row hrow
    obtain ⟨p, -, rfl⟩ := List.mem_map.mp hrow
    simp [Row.Fits, smallRow]

/-- A directory where `sensorA` has the given blocks, ids counting from zero. -/
def smallDb (blks : List (StoredBlock ℚ)) : ColdTier ℚ :=
  blks.zipIdx.foldl (fun db p => db.put sensorA p.2 p.1) .empty

/-- Append one row of `smallConfig` to `sensorA`. -/
def appendSmall (ts : Int64) (x : ℚ) : Op ℚ :=
  .call (.append (some sensorA.bytes) ts (some fun _ => x) 1 none)

/-- The engine that `smallConfig` creates on an empty path. -/
def smallEngine : Engine ℚ :=
  .init smallValid smallConfig.uuid (.rocksdb
    { (ColdTier.empty : ColdTier ℚ) with
      metadata := some (serializeEngineMetadata (smallValid.metadata smallConfig.uuid)) })

theorem smallEngine_created (now : Int64) :
    Engine.create (.calm ℚ now) smallConfig (some .empty) = .ok smallEngine := rfl

/-- The same engine with one row appended to `sensorA`. -/
def smallAppended : Engine ℚ :=
  (smallEngine.call (.calm ℚ 0) (.append (some sensorA.bytes) 1 (some fun _ => 1) 1 none)).2

/-- `xs`, each in the calm environment. -/
def calmly {α : Type} (now : Int64) (xs : List α) : List (Env ℚ × α) :=
  xs.map fun x => (.calm ℚ now, x)

/-- What every operation of a run meets in the calm environment. -/
theorem calmly_every {P : World ℚ → Env ℚ → Op ℚ → Prop} {now : Int64} {ops : List (Op ℚ)}
    (h : ∀ w, ∀ op ∈ ops, P w (.calm ℚ now) op) (w : World ℚ) :
    World.EveryStep P (calmly now ops) w := by
  induction ops generalizing w with
  | nil => trivial
  | cons op rest ih =>
    exact ⟨h w op List.mem_cons_self, ih (fun w op hop => h w op (List.mem_cons_of_mem _ hop)) _⟩

theorem calmly_append {α : Type} (now : Int64) (xs ys : List α) :
    calmly now (xs ++ ys) = calmly now xs ++ calmly now ys := List.map_append

end ChronosVector
