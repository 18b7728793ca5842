import ChronosVector.DecodedSizes
import ChronosVector.Exact
import ChronosVector.Lib.PowersOfTwo
import ChronosVector.RingColumns

/-!
# The memory of a ring

The constructor of `SensorRing` asks for up to five columns. Their sizes are
products of 64-bit words, rounded up to cache lines in 64-bit words.

* `RingMemory.new`: the pointers that the constructor leaves;
* `roundUp_toNat`: what `round_up` computes, also where it wraps;
* `requested_exact`: below `2 ^ 44` entries no size wraps;
* `ok_capacity`: a ring that is `ok` has fewer;
* `ok_allocated`: a ring that is `ok` has every column whole.
-/

namespace ChronosVector

/-! ## The allocator -/

def kCacheline : UInt64 := 64

/-- `round_up`. -/
def roundUp (n align : UInt64) : UInt64 := (n + align - 1) &&& ~~~(align - 1)

/-- Granted memory: how many bytes there are from its pointer on. -/
structure Allocation where
  size : Nat
  deriving DecidableEq, Repr

/-- `std::aligned_alloc`, whose answers may depend on the heap `H`. Null is `none`. -/
structure Allocator (H : Type) where
  alignedAlloc (alignment size : UInt64) : StateM H (Option Allocation)
  granted : ∀ {alignment size : UInt64} {heap : H} {a : Allocation},
    (alignedAlloc alignment size heap).1 = some a → a.size = size.toNat

namespace Allocator

variable {H : Type} (alloc : Allocator H)

/-- Requests of `limit` bytes or more come to nothing. -/
def RefusesFrom (limit : Nat) : Prop :=
  ∀ (alignment size : UInt64) (heap : H), limit ≤ size.toNat →
    (alloc.alignedAlloc alignment size heap).1 = none

/-- `aligned_alloc_bytes`. -/
def alignedAllocBytes (bytes : UInt64) : StateM H (Option Allocation) :=
  if bytes = 0 then pure none else alloc.alignedAlloc kCacheline (roundUp bytes kCacheline)

end Allocator

/-! ## The constructor -/

/-- The arguments of the constructor. -/
structure RingArgs where
  capacity : UInt64
  dim : UInt32
  payloadSize : UInt32
  dtype : Dtype

/-- What the engine constructs every ring with. -/
def ValidConfig.ringArgs (cfg : ValidConfig) : RingArgs where
  capacity := cfg.ringCapacity
  dim := cfg.dim
  payloadSize := cfg.payloadSizeBytes
  dtype := dtypeOf cfg.storageDtype

namespace RingArgs

variable (args : RingArgs)

/-- The argument of `aligned_alloc_bytes` for each column. -/
def bytes : Column → UInt64
  | .timestamps => args.capacity * 8
  | .vectors => args.capacity * args.dim.toUInt64 * dtypeSize (some args.dtype)
  | .norms => args.capacity * 4
  | .scales => args.capacity * 4
  | .payloads => args.capacity * args.payloadSize.toUInt64

/-- What reaches the allocator. -/
def requested (col : Column) : UInt64 := roundUp (args.bytes col) kCacheline

/-- The columns that there are: the constructor asks for no others, and `Append`
and the readers touch no others. -/
def Uses : Column → Prop
  | .scales => args.dtype = .int8
  | .payloads => 0 < args.payloadSize
  | .timestamps | .vectors | .norms => True

/-- The bytes of one slot; `vsz` in the vector column. -/
def stride : Column → UInt64
  | .timestamps => 8
  | .vectors => args.dim.toUInt64 * dtypeSize (some args.dtype)
  | .norms => 4
  | .scales => 4
  | .payloads => args.payloadSize.toUInt64

/-- `idx & mask_`. -/
def slotOf (idx : UInt64) : UInt64 := idx &&& (args.capacity - 1)

/-- Where the slot of an index begins, in bytes from the column's pointer. -/
def offset (col : Column) (idx : UInt64) : UInt64 := args.slotOf idx * args.stride col

end RingArgs

/-- The pointers of a ring. -/
structure RingMemory where
  timestamps : Option Allocation
  vectors : Option Allocation
  norms : Option Allocation
  scales : Option Allocation
  payloads : Option Allocation
  deriving DecidableEq

namespace RingMemory

/-- The constructor. -/
def new {H : Type} (alloc : Allocator H) (args : RingArgs) : StateM H RingMemory := do
  let timestamps ← alloc.alignedAllocBytes (args.bytes .timestamps)
  let vectors ← alloc.alignedAllocBytes (args.bytes .vectors)
  let norms ← alloc.alignedAllocBytes (args.bytes .norms)
  let scales ←
    (if args.dtype = .int8 then alloc.alignedAllocBytes (args.bytes .scales) else pure none)
  let payloads ←
    (if 0 < args.payloadSize then alloc.alignedAllocBytes (args.bytes .payloads) else pure none)
  return { timestamps, vectors, norms, scales, payloads }

variable (m : RingMemory)

def column : Column → Option Allocation
  | .timestamps => m.timestamps
  | .vectors => m.vectors
  | .norms => m.norms
  | .scales => m.scales
  | .payloads => m.payloads

/-- `ok()`. -/
def ok (args : RingArgs) : Bool :=
  m.timestamps.isSome && m.vectors.isSome && m.norms.isSome &&
    (args.dtype ≠ .int8 || m.scales.isSome) && (args.payloadSize = 0 || m.payloads.isSome)

end RingMemory

/-! ## Requests -/

/-- Rounding up to a power of two, in 64-bit words. -/
theorem roundUp_toNat (n : UInt64) {align : UInt64} {k : Nat} (power : align.toNat = 2 ^ k) :
    (roundUp n align).toNat =
      (n.toNat + (align.toNat - 1)) % 2 ^ 64 / align.toNat * align.toNat := by
  have pos := Nat.two_pow_pos k
  have size : 2 ^ k < 2 ^ 64 := power ▸ align.toNat_lt
  have small : k ≤ 64 := Nat.le_of_lt ((Nat.pow_lt_pow_iff_right (by decide)).mp size)
  have one : 1 ≤ align := UInt64.le_iff_toNat_le.mpr (by rw [power]; exact pos)
  have low : (align - 1).toNat = 2 ^ k - 1 := by
    rw [UInt64.toNat_sub_of_le _ _ one, power]
    rfl
  have high : (~~~(align - 1)).toNat = 2 ^ 64 - 2 ^ k := by
    rw [UInt64.toNat_not, low]
    show 2 ^ 64 - 1 - (2 ^ k - 1) = _
    omega
  have sum : n + align - 1 = n + (align - 1) := by
    rw [UInt64.sub_eq_add_neg, UInt64.add_assoc, ← UInt64.sub_eq_add_neg]
  rw [roundUp, UInt64.toNat_and, high, sum, UInt64.toNat_add, low,
    PowersOfTwo.and_high (Nat.mod_lt _ (by decide)) small, power]

/-- Whole cache lines stay as they are. -/
theorem roundUp_lines {n : UInt64} (lines : n.toNat % 64 = 0) : roundUp n kCacheline = n := by
  apply UInt64.toNat_inj.mp
  rw [roundUp_toNat n (show kCacheline.toNat = 2 ^ 6 from rfl)]
  show (n.toNat + (64 - 1)) % 2 ^ 64 / 64 * 64 = n.toNat
  have := n.toNat_lt
  omega

section
variable {H : Type} {alloc : Allocator H} {heap : H} {a : Allocation}

theorem Allocator.alignedAllocBytes_granted {bytes : UInt64}
    (some : (alloc.alignedAllocBytes bytes heap).1 = some a) :
    bytes ≠ 0 ∧ a.size = (roundUp bytes kCacheline).toNat ∧
      ∀ limit, alloc.RefusesFrom limit → a.size < limit := by
  unfold alignedAllocBytes at some
  split at some
  · cases some
  · rename_i nonzero
    have size := alloc.granted some
    refine ⟨nonzero, size, fun limit refuses => ?_⟩
    by_contra large
    rw [refuses _ _ _ (by omega)] at some
    cases some

/-- A column that is not null was granted at its request. -/
theorem RingMemory.column_granted {args : RingArgs} {col : Column}
    (some : (new alloc args heap).1.column col = some a) :
    ∃ heap', (alloc.alignedAllocBytes (args.bytes col) heap').1 = .some a := by
  have optional {p : Prop} [Decidable p] {bytes : UInt64} {heap' : H}
      (some : ((if p then alloc.alignedAllocBytes bytes else pure none : StateM H _) heap').1 =
        .some a) : (alloc.alignedAllocBytes bytes heap').1 = .some a := by
    split at some
    · exact some
    · cases some
  cases col with
  | timestamps => exact ⟨heap, some⟩
  | vectors => exact ⟨_, some⟩
  | norms => exact ⟨_, some⟩
  | scales => exact ⟨_, optional some⟩
  | payloads => exact ⟨_, optional some⟩

end

/-! ## Sizes -/

namespace ValidConfig

variable {cfg : ValidConfig}

theorem stride_le (col : Column) : cfg.shape.stride col ≤ 2 ^ 18 := by
  cases col with
  | vectors =>
    have size : cfg.shape.dtype.size ≤ 4 := by cases cfg.shape.dtype <;> decide
    calc cfg.shape.dim * cfg.shape.dtype.size ≤ 65536 * 4 := Nat.mul_le_mul cfg.dim_le size
      _ = 2 ^ 18 := rfl
  | payloads => exact cfg.payload_le.trans (by decide)
  | timestamps | norms | scales => simp [RingShape.stride]

theorem stride_toNat (col : Column) : (cfg.ringArgs.stride col).toNat = cfg.shape.stride col := by
  cases col with
  | vectors =>
    have small : cfg.shape.dim * cfg.shape.dtype.size ≤ 2 ^ 18 := stride_le .vectors
    rw [RingArgs.stride, UInt64.toNat_mul, UInt32.toNat_toUInt64,
      DecodedBlockHeader.dtypeSize_toNat]
    exact Nat.mod_eq_of_lt (small.trans_lt (by decide))
  | payloads => exact UInt32.toNat_toUInt64 _
  | timestamps | norms | scales => rfl

/-- At least 64 slots are whole cache lines. -/
theorem capacity_lines : cfg.shape.capacity % 64 = 0 := by
  obtain ⟨k, power⟩ := cfg.shape.capacity_pow
  have least : 2 ^ 6 ≤ 2 ^ k := power ▸ cfg.shape.capacity_min
  rw [power]
  exact Nat.mod_eq_zero_of_dvd
    (Nat.pow_dvd_pow 2 ((Nat.pow_le_pow_iff_right (by decide)).mp least))

/-- The vector column's size, formed from the left, is the capacity times `vsz`. -/
theorem bytes_stride (col : Column) :
    cfg.ringArgs.bytes col = cfg.ringCapacity * cfg.ringArgs.stride col := by
  cases col with
  | vectors => exact UInt64.mul_assoc _ _ _
  | timestamps | norms | scales | payloads => rfl

theorem slotOf_toNat (idx : UInt64) :
    (cfg.ringArgs.slotOf idx).toNat = idx.toNat % cfg.shape.capacity := by
  obtain ⟨k, power⟩ := cfg.capacity_pow
  have one : 1 ≤ cfg.ringCapacity :=
    UInt64.le_iff_toNat_le.mpr ((by decide : 1 ≤ 64).trans cfg.capacity_min)
  show (idx &&& (cfg.ringCapacity - 1)).toNat = idx.toNat % cfg.ringCapacity.toNat
  rw [UInt64.toNat_and, UInt64.toNat_sub_of_le _ _ one, power]
  exact Nat.and_two_pow_sub_one_eq_mod _ _

/-- A ring's slot in the model is the machine's. -/
theorem slotOf_ring {F : Type} {r : SensorRing F} (shape : r.shape = cfg.shape) (idx : UInt64) :
    (cfg.ringArgs.slotOf idx).toNat = r.slotOf idx.toNat := by
  rw [slotOf_toNat, SensorRing.slotOf_eq_mod, shape]

section
variable (small : cfg.shape.capacity < 2 ^ 44)
include small

/-- With fewer than `2 ^ 44` entries no product wraps. -/
theorem bytes_exact (col : Column) :
    (cfg.ringArgs.bytes col).toNat = cfg.shape.capacity * cfg.shape.stride col := by
  have product : cfg.shape.capacity * cfg.shape.stride col ≤ 2 ^ 44 * 2 ^ 18 :=
    Nat.mul_le_mul small.le (stride_le col)
  rw [bytes_stride, UInt64.toNat_mul, stride_toNat]
  exact Nat.mod_eq_of_lt (product.trans_lt (by decide))

/-- Neither does the rounding. -/
theorem requested_exact (col : Column) :
    (cfg.ringArgs.requested col).toNat = cfg.shape.capacity * cfg.shape.stride col := by
  have whole : (cfg.ringArgs.bytes col).toNat % 64 = 0 := by
    rw [bytes_exact small, Nat.mul_mod, capacity_lines, Nat.zero_mul, Nat.zero_mod]
  rw [RingArgs.requested, roundUp_lines whole, bytes_exact small]

theorem offset_exact (col : Column) (idx : UInt64) :
    (cfg.ringArgs.offset col idx).toNat =
      idx.toNat % cfg.shape.capacity * cfg.shape.stride col := by
  have slot := Nat.mod_lt idx.toNat cfg.shape.capacity_pos
  have product : idx.toNat % cfg.shape.capacity * cfg.shape.stride col ≤ 2 ^ 44 * 2 ^ 18 :=
    Nat.mul_le_mul (slot.trans small).le (stride_le col)
  rw [RingArgs.offset, UInt64.toNat_mul, slotOf_toNat, stride_toNat]
  exact Nat.mod_eq_of_lt (product.trans_lt (by decide))

/-- A slot begins and ends inside its column. -/
theorem slot_inside (col : Column) (idx : UInt64) :
    (cfg.ringArgs.offset col idx).toNat + (cfg.ringArgs.stride col).toNat ≤
      cfg.shape.capacity * cfg.shape.stride col := by
  rw [offset_exact small, stride_toNat]
  exact Cells.slot_inside _ (Nat.mod_lt _ cfg.shape.capacity_pos)

end

end ValidConfig

section
variable {H : Type} {alloc : Allocator H} {heap : H} {cfg : ValidConfig}

/-- A ring that is `ok` has a pointer for each column it uses. -/
theorem RingMemory.ok_column {m : RingMemory} {args : RingArgs} (ok : m.ok args = true)
    {col : Column} (used : args.Uses col) : ∃ a, m.column col = some a := by
  simp only [RingMemory.ok, Bool.and_eq_true, Bool.or_eq_true, decide_eq_true_eq] at ok
  obtain ⟨⟨⟨⟨ts, vec⟩, norms⟩, scales⟩, payloads⟩ := ok
  apply Option.isSome_iff_exists.mp
  cases col with
  | timestamps => exact ts
  | vectors => exact vec
  | norms => exact norms
  | scales => exact scales.resolve_left (not_not.mpr used)
  | payloads =>
    apply payloads.resolve_left
    intro none
    rw [RingArgs.Uses, none] at used
    exact absurd used (by decide)

/-- The timestamps alone bound the capacity: a size that wraps is zero, and of
zero bytes there are none. -/
theorem ok_capacity (refuses : alloc.RefusesFrom (2 ^ 47))
    (ok : (RingMemory.new alloc cfg.ringArgs heap).1.ok cfg.ringArgs = true) :
    cfg.shape.capacity < 2 ^ 44 := by
  obtain ⟨a, some⟩ :
      ∃ a, (RingMemory.new alloc cfg.ringArgs heap).1.column .timestamps = some a :=
    RingMemory.ok_column ok trivial
  obtain ⟨heap', granted⟩ := RingMemory.column_granted some
  obtain ⟨nonzero, size, below⟩ := Allocator.alignedAllocBytes_granted granted
  obtain ⟨k, power⟩ := cfg.capacity_pow
  have wrapped : (cfg.ringArgs.bytes .timestamps).toNat = 2 ^ (k + 3) % 2 ^ 64 := by
    rw [Nat.pow_add, ← power]
    exact UInt64.toNat_mul _ _
  have whole : (cfg.ringArgs.bytes .timestamps).toNat = cfg.shape.capacity * 8 := by
    rw [wrapped, PowersOfTwo.exact_of_ne_zero, Nat.pow_add, ← power]
    · rfl
    · rw [← wrapped]
      exact fun zero => nonzero (UInt64.toNat_inj.mp zero)
  have lines := cfg.capacity_lines
  rw [roundUp_lines (by omega), whole] at size
  have := below _ refuses
  omega

/-- From `2 ^ 61` entries on, the size of the timestamps wraps. -/
example : RingArgs.bytes ⟨0x2000000000000000, 1, 0, .float32⟩ .timestamps = 0 := by decide

/-- The blocks of a ring that is `ok` have the exact sizes. -/
theorem ok_column_size (refuses : alloc.RefusesFrom (2 ^ 47))
    (ok : (RingMemory.new alloc cfg.ringArgs heap).1.ok cfg.ringArgs = true) {col : Column}
    (used : cfg.ringArgs.Uses col) :
    ∃ a, (RingMemory.new alloc cfg.ringArgs heap).1.column col = some a ∧
      a.size = cfg.shape.capacity * cfg.shape.stride col := by
  obtain ⟨a, some⟩ := RingMemory.ok_column ok used
  obtain ⟨heap', granted⟩ := RingMemory.column_granted some
  obtain ⟨-, size, -⟩ := Allocator.alignedAllocBytes_granted granted
  exact ⟨a, some, size.trans (ValidConfig.requested_exact (ok_capacity refuses ok) col)⟩

/-- Every cell of the ring's model has its bytes. -/
theorem ok_cells (refuses : alloc.RefusesFrom (2 ^ 47))
    (ok : (RingMemory.new alloc cfg.ringArgs heap).1.ok cfg.ringArgs = true) {col : Column}
    (used : cfg.ringArgs.Uses col) :
    ∃ a, (RingMemory.new alloc cfg.ringArgs heap).1.column col = some a ∧
      ∀ i < cfg.shape.cells col,
        i * cfg.shape.cellBytes col + cfg.shape.cellBytes col ≤ a.size := by
  obtain ⟨a, some, size⟩ := ok_column_size refuses ok used
  refine ⟨a, some, fun i inside => ?_⟩
  rw [size, ← RingShape.cells_bytes]
  exact Cells.slot_inside _ inside

/-- **A ring that is `ok` is whole.** No size that reached the allocator wrapped,
each column has room for its slots, and every masked access is inside. -/
theorem ok_allocated (refuses : alloc.RefusesFrom (2 ^ 47))
    (ok : (RingMemory.new alloc cfg.ringArgs heap).1.ok cfg.ringArgs = true) (col : Column)
    (used : cfg.ringArgs.Uses col) :
    (cfg.ringArgs.bytes col).toNat = cfg.shape.capacity * cfg.shape.stride col ∧
      (cfg.ringArgs.requested col).toNat = cfg.shape.capacity * cfg.shape.stride col ∧
      ∃ a, (RingMemory.new alloc cfg.ringArgs heap).1.column col = some a ∧
        cfg.shape.capacity * cfg.shape.stride col ≤ a.size ∧
        ∀ idx : UInt64,
          (cfg.ringArgs.offset col idx).toNat =
            idx.toNat % cfg.shape.capacity * cfg.shape.stride col ∧
          (cfg.ringArgs.offset col idx).toNat + (cfg.ringArgs.stride col).toNat ≤ a.size := by
  have small := ok_capacity refuses ok
  obtain ⟨a, some, size⟩ := ok_column_size refuses ok used
  refine ⟨ValidConfig.bytes_exact small col, ValidConfig.requested_exact small col, a, some,
    size.ge, fun idx => ⟨ValidConfig.offset_exact small col idx, ?_⟩⟩
  rw [size]
  exact ValidConfig.slot_inside small col idx

end

/-- An allocator that grants whatever is below `2 ^ 47`. -/
def lowAllocator : Allocator Unit where
  alignedAlloc _ size := pure (if size.toNat < 2 ^ 47 then some ⟨size.toNat⟩ else none)
  granted {_ size _ a} some := by
    by_cases low : size.toNat < 2 ^ 47
    · rw [if_pos low] at some
      cases some
      rfl
    · rw [if_neg low] at some
      cases some

theorem lowAllocator_refuses : lowAllocator.RefusesFrom (2 ^ 47) :=
  fun _ _ _ large => if_neg (Nat.not_lt.mpr large)

/-- A small ring: index 65 is in slot 1. -/
theorem small_allocated :
    ∃ a, (RingMemory.new lowAllocator smallValid.ringArgs ()).1.column .vectors = some a ∧
      (smallValid.ringArgs.offset .vectors 65).toNat + 4 ≤ a.size := by
  obtain ⟨-, -, a, some, -, inside⟩ :=
    @ok_allocated Unit lowAllocator () smallValid lowAllocator_refuses (by decide) .vectors trivial
  exact ⟨a, some, (inside 65).2⟩

end ChronosVector
