import Mathlib.Algebra.Group.Nat.Defs

/-!
# Types shared by every layer

The public types of `types.h` and the two validators of `engine.cpp` that every
caller value passes before it reaches an engine:

* `ErrorCode`, `Dtype`, `Metric`: the enumerations of the C ABI;
* `SensorId`: a byte string that `validateSensorId` accepted;
* `Config`: the caller's configuration, and `ValidConfig`, what
  `validateAndDefault` makes of it;
* `RingShape`: the part of a valid configuration that fixes every ring and block.
-/

namespace ChronosVector

/-- `chronosv_error_t`. -/
inductive ErrorCode
  | ok | warnRangeTruncated | warnPartialResult
  | invalidArg | notFound | dimMismatch | io | oom | unsupported | closed | capacity
  | corruption | internal
  deriving DecidableEq, Repr

/-- The code as the C ABI passes it: warnings are positive, errors negative. -/
def ErrorCode.value : ErrorCode → Int
  | .ok => 0
  | .warnRangeTruncated => 1
  | .warnPartialResult => 2
  | .invalidArg => -1
  | .notFound => -2
  | .dimMismatch => -3
  | .io => -4
  | .oom => -5
  | .unsupported => -6
  | .closed => -7
  | .capacity => -8
  | .corruption => -9
  | .internal => -99

inductive Dtype
  | float32 | int8
  deriving DecidableEq, Repr

inductive Metric
  | cosine | euclidean
  deriving DecidableEq, Repr

/-- `dtype_size`, in bytes. -/
def Dtype.size : Dtype → Nat
  | .float32 => 4
  | .int8 => 1

/-! ## Sensor ids -/

def kMaxSensorIdLen : Nat := 256

/-- The loop of `validate_sensor_id` over the bytes before the terminating NUL.
It stops one byte past the limit; `none` is the reserved separator. -/
def scanSensorId : List UInt8 → Nat → Option Nat
  | [], n => some n
  | c :: rest, n =>
    if kMaxSensorIdLen < n then some n
    else if c = 0x01 then none
    else scanSensorId rest (n + 1)

/-- `validate_sensor_id`; `none` is the null pointer. -/
def validateSensorId : Option (List UInt8) → ErrorCode
  | none => .invalidArg
  | some id =>
    match scanSensorId id 0 with
    | none => .invalidArg
    | some n =>
      if n = 0 then .invalidArg
      else if kMaxSensorIdLen < n then .invalidArg
      else .ok

/-- A sensor id past the C boundary. -/
@[ext] structure SensorId where
  bytes : List UInt8
  valid : validateSensorId (some bytes) = .ok
  deriving DecidableEq

/-- The C boundary's check of a sensor id argument. -/
def SensorId.parse (id : Option (List UInt8)) : Except ErrorCode SensorId :=
  match id with
  | none => .error (validateSensorId none)
  | some bytes =>
    if h : validateSensorId (some bytes) = .ok then .ok ⟨bytes, h⟩
    else .error (validateSensorId (some bytes))

theorem SensorId.parse_ok {id : Option (List UInt8)} {s : SensorId} (h : parse id = .ok s) :
    id = some s.bytes := by
  unfold parse at h
  split at h
  · cases h
  · split at h <;> cases h
    rfl

theorem validateSensorId_cases (id : Option (List UInt8)) :
    validateSensorId id = .ok ∨ validateSensorId id = .invalidArg := by
  cases id with
  | none => exact .inr rfl
  | some bytes =>
    simp only [validateSensorId]
    repeat' split
    all_goals simp

theorem SensorId.parse_invalid {id : Option (List UInt8)} {err : ErrorCode}
    (h : parse id = .error err) : err = .invalidArg := by
  unfold parse at h
  split at h
  · cases h
    rfl
  · split at h <;> cases h
    exact (validateSensorId_cases _).resolve_left ‹_›

theorem SensorId.parse_error {id : Option (List UInt8)} {err : ErrorCode}
    (h : parse id = .error err) : err ≠ .ok := by
  rw [parse_invalid h]
  decide

@[simp] theorem SensorId.parse_bytes (s : SensorId) : parse (some s.bytes) = .ok s := by
  simp [parse, s.valid]

/-! ## Configuration -/

abbrev Uuid := Vector UInt8 16

/-- `chronosv_config_t`. The cold path and the metrics sink are not fields: the
directory's content is an argument of the factories. -/
structure Config where
  abiVersion : UInt32
  dim : UInt32
  uuid : Uuid
  ringCapacity : UInt64
  windowDurationMs : Int64
  evictionIntervalMs : Int64
  payloadSizeBytes : UInt32
  storageDtype : UInt8
  distanceMetric : UInt8
  maxSensors : UInt32
  recoverHotWindow : UInt8
  deriving DecidableEq

def chronosvAbiVersion : UInt32 := 1
def kDefaultRingCapacity : UInt64 := 65536
def kDefaultWindowDurationMs : Int64 := 600000
def kDefaultEvictionIntervalMs : Int64 := 60000
def kMaxDim : UInt32 := 65536
def kMaxPayloadSize : UInt32 := 4096

/-- A configuration as `validate_and_default` leaves it. A window of zero is
kept valid: `MaintainSlidingWindow` may set it later. -/
structure ValidConfig extends Config where
  abi_ok : abiVersion = chronosvAbiVersion
  dim_pos : 0 < dim.toNat
  dim_le : dim.toNat ≤ kMaxDim.toNat
  payload_le : payloadSizeBytes.toNat ≤ kMaxPayloadSize.toNat
  dtype_le : storageDtype.toNat ≤ 1
  metric_le : distanceMetric.toNat ≤ 1
  capacity_min : 64 ≤ ringCapacity.toNat
  capacity_pow : ringCapacity.toNat.isPowerOfTwo
  window_nonneg : 0 ≤ windowDurationMs.toInt
  interval_min : 100 ≤ evictionIntervalMs.toInt
  deriving DecidableEq

/-- The zero-means-default fields of `validate_and_default`. -/
def Config.withDefaults (c : Config) : Config :=
  { c with
    ringCapacity := if c.ringCapacity = 0 then kDefaultRingCapacity else c.ringCapacity
    windowDurationMs :=
      if c.windowDurationMs = 0 then kDefaultWindowDurationMs else c.windowDurationMs
    evictionIntervalMs :=
      if c.evictionIntervalMs = 0 then kDefaultEvictionIntervalMs else c.evictionIntervalMs }

/-- `validate_and_default`, in a build with `CHRONOSV_ENABLE_INT8` (the default).
`std::has_single_bit` is being a power of two. -/
def validateAndDefault (c : Config) : Except ErrorCode ValidConfig :=
  if h : c.abiVersion = chronosvAbiVersion ∧ 0 < c.dim.toNat ∧ c.dim.toNat ≤ kMaxDim.toNat ∧
      c.payloadSizeBytes.toNat ≤ kMaxPayloadSize.toNat ∧ c.storageDtype.toNat ≤ 1 ∧
      c.distanceMetric.toNat ≤ 1 ∧ 64 ≤ c.withDefaults.ringCapacity.toNat ∧
      c.withDefaults.ringCapacity.toNat.isPowerOfTwo ∧
      0 ≤ c.withDefaults.windowDurationMs.toInt ∧
      100 ≤ c.withDefaults.evictionIntervalMs.toInt then
    .ok
      { c.withDefaults with
        abi_ok := h.1
        dim_pos := h.2.1
        dim_le := h.2.2.1
        payload_le := h.2.2.2.1
        dtype_le := h.2.2.2.2.1
        metric_le := h.2.2.2.2.2.1
        capacity_min := h.2.2.2.2.2.2.1
        capacity_pow := h.2.2.2.2.2.2.2.1
        window_nonneg := h.2.2.2.2.2.2.2.2.1
        interval_min := h.2.2.2.2.2.2.2.2.2 }
  else .error .invalidArg

/-- Validation changes a configuration by its defaults only. -/
theorem validate_ok {c : Config} {v : ValidConfig} (h : validateAndDefault c = .ok v) :
    v.toConfig = c.withDefaults := by
  unfold validateAndDefault at h
  split at h
  · cases h
    rfl
  · cases h

/-! ## Shapes -/

/-- What a `SensorRing` is constructed with: fixed for every ring of an engine. -/
structure RingShape where
  capacity : Nat
  dim : Nat
  payloadSize : Nat
  dtype : Dtype
  capacity_min : 64 ≤ capacity
  capacity_pow : capacity.isPowerOfTwo
  dim_pos : 0 < dim
  deriving DecidableEq

/-- The cast of the stored byte to `chronosv_dtype_t`. -/
def dtypeOf (b : UInt8) : Dtype := if b = 0 then .float32 else .int8

def metricOf (b : UInt8) : Metric := if b = 0 then .cosine else .euclidean

def ValidConfig.shape (c : ValidConfig) : RingShape where
  capacity := c.ringCapacity.toNat
  dim := c.dim.toNat
  payloadSize := c.payloadSizeBytes.toNat
  dtype := dtypeOf c.storageDtype
  capacity_min := c.capacity_min
  capacity_pow := c.capacity_pow
  dim_pos := c.dim_pos

def ValidConfig.metric (c : ValidConfig) : Metric := metricOf c.distanceMetric

/-- The update of `cfg_.window_duration_ms` by `MaintainSlidingWindow`. -/
def ValidConfig.setWindow (c : ValidConfig) (w : Int64) (h : 0 ≤ w.toInt) : ValidConfig :=
  { c with windowDurationMs := w, window_nonneg := h }

theorem window_checked {w : Int64} (h : ¬ w.toInt < 0) : 0 ≤ w.toInt := Int.not_lt.mp h

@[simp] theorem ValidConfig.setWindow_shape (c : ValidConfig) (w : Int64) (h : 0 ≤ w.toInt) :
    (c.setWindow w h).shape = c.shape := rfl

theorem RingShape.capacity_pos (sh : RingShape) : 0 < sh.capacity := by
  have := sh.capacity_min
  omega

/-- Every default passes the check of its own field. -/
theorem defaults_valid :
    64 ≤ kDefaultRingCapacity.toNat ∧ kDefaultRingCapacity.toNat.isPowerOfTwo ∧
    0 ≤ kDefaultWindowDurationMs.toInt ∧ 100 ≤ kDefaultEvictionIntervalMs.toInt := by
  decide

end ChronosVector
