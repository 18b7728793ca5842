import Mathlib.Logic.Function.Basic
import ChronosVector.Kernels
import ChronosVector.Lib.BoundedQueue

/-!
# The sensor ring

`ring_buffer.h`: five parallel columns addressed by `index & mask`, a head that
counts every append and a tail that only eviction moves.

* `SensorRing`: the memory-level ring, with the columns as flat memory;
* `window`: the entries of a snapshot, read back through the masked slots;
* `queue_append`, `queue_advanceTail`: the ring refines a bounded queue of its
  last entries, whatever the fill level and the wrap position.

Virtual indices are natural numbers: fewer than 2^64 appends are made to a ring.
-/

namespace ChronosVector

variable {F : Type}

/-- What one append stores, without the cached norm: the part a block keeps. -/
@[ext] structure Row (F : Type) where
  ts : Int64
  vec : List (Elem F)
  scale : Option F
  payload : List UInt8
  deriving DecidableEq

/-- One slot of every column. -/
structure Entry (F : Type) extends Row F where
  norm : F

/-- The five columns. `std::aligned_alloc` does not clear them. -/
structure Columns (F : Type) where
  timestamps : Nat → Int64
  vectors : Nat → Elem F
  norms : Nat → F
  scales : Nat → F
  payloads : Nat → UInt8

structure SensorRing (F : Type) extends Columns F where
  shape : RingShape
  head : Nat
  tail : Nat
  overwriteEvents : Nat
  overwrittenEntries : Nat

namespace SensorRing

variable (r : SensorRing F)

/-- The constructor, with the memory the allocator returned. -/
def new (sh : RingShape) (mem : Columns F) : SensorRing F :=
  { mem with shape := sh, head := 0, tail := 0, overwriteEvents := 0, overwrittenEntries := 0 }

def mask : Nat := r.shape.capacity - 1

/-- `idx & mask`. -/
def slotOf (idx : Nat) : Nat := idx &&& r.mask

def append (ts : Int64) (vec : Nat → Elem F) (norm : F) (payload : Option (Nat → UInt8))
    (scale : F) : SensorRing F :=
  let h := r.head
  let lapped := r.shape.capacity ≤ h - r.tail
  let idx := r.slotOf h
  { r with
    overwriteEvents := if lapped then r.overwriteEvents + 1 else r.overwriteEvents
    overwrittenEntries := if lapped then r.overwrittenEntries + 1 else r.overwrittenEntries
    timestamps := Function.update r.timestamps idx ts
    vectors := Cells.copy r.vectors (idx * r.shape.dim) vec r.shape.dim
    norms := Function.update r.norms idx norm
    scales := if r.shape.dtype = .int8 then Function.update r.scales idx scale else r.scales
    payloads :=
      match payload with
      | none => r.payloads
      | some p =>
        if 0 < r.shape.payloadSize then
          Cells.copy r.payloads (idx * r.shape.payloadSize) p r.shape.payloadSize
        else r.payloads
    head := h + 1 }

/-- `[begin, end)`, clamped to the newest `capacity` entries. -/
def snapshot : Nat × Nat :=
  (if r.shape.capacity < r.head - r.tail then r.head - r.shape.capacity else r.tail, r.head)

def advanceTail (newTail : Nat) : SensorRing F := { r with tail := newTail }

/-! ## Slot readers -/

def timestampAt (idx : Nat) : Int64 := r.timestamps (r.slotOf idx)

/-- `vector_at`, as the pointer to the slot's first element. -/
def vectorAt (idx : Nat) : Nat → Elem F := fun j => r.vectors (r.slotOf idx * r.shape.dim + j)

def normAt (idx : Nat) : F := r.norms (r.slotOf idx)

/-- `scales_raw()[idx & mask]`, null unless INT8. -/
def scaleAt (idx : Nat) : Option F :=
  if r.shape.dtype = .int8 then some (r.scales (r.slotOf idx)) else none

def payloadAt (idx : Nat) : Nat → UInt8 :=
  fun j => r.payloads (r.slotOf idx * r.shape.payloadSize + j)

/-- Every column of the slot an index maps to. -/
def entryAt (idx : Nat) : Entry F where
  ts := r.timestampAt idx
  vec := Cells.load (r.vectorAt idx) 0 r.shape.dim
  scale := r.scaleAt idx
  payload := Cells.load (r.payloadAt idx) 0 r.shape.payloadSize
  norm := r.normAt idx

/-- The entries of a snapshot, oldest first. -/
def window : List (Entry F) :=
  (List.range' r.snapshot.1 (r.snapshot.2 - r.snapshot.1)).map r.entryAt

/-! ## The ring as a bounded queue -/

/-- The abstract state of a ring: its window, the index of the window's first
entry and the overwrite counter. -/
def queue : BoundedQueue (Entry F) := ⟨r.window, r.snapshot.1, r.overwrittenEntries⟩

/-- What `AdvanceTail`'s contract keeps true. -/
def Ok : Prop := r.tail ≤ r.head

/-- The entry an append leaves in its slot. Without a payload pointer the slot
keeps the bytes it held. -/
def stored (ts : Int64) (vec : Nat → Elem F) (norm : F) (payload : Option (Nat → UInt8))
    (scale : F) : Entry F where
  ts := ts
  vec := Cells.load vec 0 r.shape.dim
  scale := if r.shape.dtype = .int8 then some scale else none
  payload :=
    match payload with
    | none => Cells.slot r.payloads r.shape.payloadSize (r.slotOf r.head)
    | some p => Cells.load p 0 r.shape.payloadSize
  norm := norm

variable {r} {ts : Int64} {vec : Nat → Elem F} {norm scale : F} {payload : Option (Nat → UInt8)}

@[simp] theorem append_shape : (r.append ts vec norm payload scale).shape = r.shape := rfl
@[simp] theorem append_head : (r.append ts vec norm payload scale).head = r.head + 1 := rfl
@[simp] theorem append_tail : (r.append ts vec norm payload scale).tail = r.tail := rfl
@[simp] theorem advanceTail_shape (t : Nat) : (r.advanceTail t).shape = r.shape := rfl
@[simp] theorem new_shape (sh : RingShape) (mem : Columns F) : (new sh mem).shape = sh := rfl

theorem slotOf_eq_mod (idx : Nat) : r.slotOf idx = idx % r.shape.capacity := by
  obtain ⟨k, hk⟩ := r.shape.capacity_pow
  simp only [slotOf, mask, hk, Nat.and_two_pow_sub_one_eq_mod]

theorem slotOf_append (idx : Nat) :
    (r.append ts vec norm payload scale).slotOf idx = r.slotOf idx := rfl

theorem vec_eq_slot (idx : Nat) :
    Cells.load (r.vectorAt idx) 0 r.shape.dim = Cells.slot r.vectors r.shape.dim (r.slotOf idx) :=
  Cells.load_congr fun j _ => by simp [vectorAt]

theorem payload_eq_slot (idx : Nat) :
    Cells.load (r.payloadAt idx) 0 r.shape.payloadSize =
      Cells.slot r.payloads r.shape.payloadSize (r.slotOf idx) :=
  Cells.load_congr fun j _ => by simp [payloadAt]

/-- The columns of the appended slot are the ones given. -/
theorem entryAt_append_self :
    (r.append ts vec norm payload scale).entryAt r.head = r.stored ts vec norm payload scale := by
  simp only [entryAt, vec_eq_slot, payload_eq_slot]
  simp only [stored, Entry.mk.injEq, Row.mk.injEq, timestampAt, normAt, scaleAt, slotOf_append,
    append_shape]
  refine ⟨⟨?_, ?_, ?_, ?_⟩, ?_⟩
  · simp [append]
  · simp [append]
  · split <;> simp_all [append]
  · cases payload with
    | none => rfl
    | some p =>
      simp only [append]
      split
      · exact Cells.slot_copy_self _ _ _ _
      · have : r.shape.payloadSize = 0 := by omega
        simp [this, Cells.slot]
  · simp [append]

/-- No other slot changes, in any column. -/
theorem entryAt_append_ne {idx : Nat} (h : r.slotOf idx ≠ r.slotOf r.head) :
    (r.append ts vec norm payload scale).entryAt idx = r.entryAt idx := by
  simp only [entryAt, vec_eq_slot, payload_eq_slot]
  simp only [Entry.mk.injEq, Row.mk.injEq, timestampAt, normAt, scaleAt, slotOf_append,
    append_shape]
  refine ⟨⟨?_, ?_, ?_, ?_⟩, ?_⟩
  · simp [append, h]
  · exact Cells.slot_copy_ne _ _ _ h.symm
  · simp only [append]
    split <;> simp [h]
  · cases payload with
    | none => rfl
    | some p =>
      simp only [append]
      split
      · exact Cells.slot_copy_ne _ _ _ h.symm
      · rfl
  · simp [append, h]

theorem slotOf_ne {i j : Nat} (lt : i < j) (near : j < i + r.shape.capacity) :
    r.slotOf i ≠ r.slotOf j := by
  rw [slotOf_eq_mod, slotOf_eq_mod]
  intro eq
  have hd : (j - i) % r.shape.capacity = 0 := Nat.sub_mod_eq_zero_of_mod_eq eq.symm
  rw [Nat.mod_eq_of_lt (by omega)] at hd
  omega

/-- The entries of a range that the append leaves inside one lap. -/
theorem map_entryAt_append {b n : Nat} (hn : b + n ≤ r.head)
    (near : r.head < b + r.shape.capacity) :
    (List.range' b n).map (r.append ts vec norm payload scale).entryAt =
      (List.range' b n).map r.entryAt := by
  apply List.map_congr_left
  intro i hi
  have hi' := List.mem_range'_1.mp hi
  exact entryAt_append_ne (slotOf_ne (by omega) (by omega))

theorem snapshot_of_lapped (h : r.shape.capacity < r.head - r.tail) :
    r.snapshot = (r.head - r.shape.capacity, r.head) := by
  simp only [snapshot, if_pos h]

theorem snapshot_of_live (h : r.head - r.tail ≤ r.shape.capacity) :
    r.snapshot = (r.tail, r.head) := by
  simp only [snapshot, if_neg (Nat.not_lt.mpr h)]

theorem snapshot_le (h : r.Ok) : r.snapshot.1 ≤ r.snapshot.2 := by
  unfold Ok at h
  simp only [snapshot]
  split <;> omega

theorem snapshot_near (h : r.Ok) : r.head ≤ r.snapshot.1 + r.shape.capacity := by
  unfold Ok at h
  simp only [snapshot]
  split <;> omega

@[simp] theorem window_length : r.window.length = r.snapshot.2 - r.snapshot.1 := by
  simp [window]

theorem window_length_le (h : r.Ok) : r.window.length ≤ r.shape.capacity := by
  have := snapshot_near h
  rw [window_length]
  simp only [snapshot] at this ⊢
  omega

theorem tail_range' (b n : Nat) : (List.range' b n).tail = List.range' (b + 1) (n - 1) := by
  cases n with
  | zero => rfl
  | succ n => simp [List.range'_succ]

/-- **Append refines push.** Both the stale tail of a lapped ring and the wrap
of the columns are invisible in the queue. -/
theorem queue_append (h : r.Ok) :
    (r.append ts vec norm payload scale).queue =
      r.queue.push r.shape.capacity (r.stored ts vec norm payload scale) := by
  have hcap := r.shape.capacity_pos
  have hle := snapshot_le h
  unfold Ok at h
  by_cases lapped : r.shape.capacity ≤ r.head - r.tail
  · -- the window holds the newest `capacity` entries before and after
    have hb : r.snapshot.1 = r.head - r.shape.capacity := by
      simp only [snapshot]; split <;> omega
    have hlen : r.window.length = r.shape.capacity := by
      rw [window_length, hb]; simp only [snapshot]; omega
    have hb' : (r.append ts vec norm payload scale).snapshot =
        (r.head + 1 - r.shape.capacity, r.head + 1) := by
      apply snapshot_of_lapped ?_
      simp only [append_shape, append_head, append_tail]
      omega
    have hw : (r.append ts vec norm payload scale).window =
        r.window.tail ++ [r.stored ts vec norm payload scale] := by
      simp only [window, hb', hb]
      rw [← List.map_tail, tail_range', show r.head + 1 - (r.head + 1 - r.shape.capacity) =
        (r.shape.capacity - 1) + 1 by omega, List.range'_concat, List.map_append,
        map_entryAt_append (by omega) (by omega)]
      simp only [snapshot, List.map_cons, List.map_nil, Nat.one_mul]
      rw [show r.head + 1 - r.shape.capacity + (r.shape.capacity - 1) = r.head by omega,
        entryAt_append_self, show r.head - r.shape.capacity + 1 =
        r.head + 1 - r.shape.capacity by omega, show r.head - (r.head - r.shape.capacity) - 1 =
        r.shape.capacity - 1 by omega]
    simp only [queue, BoundedQueue.push, hlen, Nat.le_refl, if_true, hw, hb', hb,
      BoundedQueue.mk.injEq, true_and]
    refine ⟨by omega, ?_⟩
    simp [append, lapped]
  · have hb : r.snapshot.1 = r.tail := by
      simp only [snapshot]; split <;> omega
    have hlen : r.window.length = r.head - r.tail := by
      rw [window_length, hb]; rfl
    have hb' : (r.append ts vec norm payload scale).snapshot = (r.tail, r.head + 1) := by
      apply snapshot_of_live ?_
      simp only [append_shape, append_head, append_tail]
      omega
    have hw : (r.append ts vec norm payload scale).window =
        r.window ++ [r.stored ts vec norm payload scale] := by
      simp only [window, hb', hb]
      rw [show r.head + 1 - r.tail = (r.head - r.tail) + 1 by omega, List.range'_concat,
        List.map_append, map_entryAt_append (by omega) (by omega)]
      simp only [snapshot, List.map_cons, List.map_nil, Nat.one_mul]
      rw [show r.tail + (r.head - r.tail) = r.head by omega, entryAt_append_self]
    simp only [queue, BoundedQueue.push, hlen, hw, hb', hb]
    rw [if_neg (by omega)]
    simp [append, lapped]

/-- **Advancing the tail inside the snapshot refines pop.** -/
theorem queue_advanceTail (h : r.Ok) {t : Nat} (lo : r.snapshot.1 ≤ t) (hi : t ≤ r.head) :
    (r.advanceTail t).queue = r.queue.pop (t - r.snapshot.1) := by
  have near := snapshot_near h
  have hb : (r.advanceTail t).snapshot = (t, r.head) :=
    snapshot_of_live (show r.head - t ≤ r.shape.capacity by omega)
  have hw : (r.advanceTail t).window = r.window.drop (t - r.snapshot.1) := by
    simp only [window, hb, ← List.map_drop, List.drop_range', Nat.mul_one]
    rw [show r.snapshot.1 + (t - r.snapshot.1) = t by omega,
      show r.snapshot.2 - r.snapshot.1 - (t - r.snapshot.1) = r.head - t by
        simp only [snapshot] at lo ⊢; omega]
    rfl
  have hlen : r.window.length = r.head - r.snapshot.1 := window_length
  simp only [queue, BoundedQueue.pop, hw, hb, hlen, BoundedQueue.mk.injEq, true_and]
  exact ⟨by omega, rfl⟩

@[simp] theorem queue_new (sh : RingShape) (mem : Columns F) :
    (new sh mem).queue = BoundedQueue.empty := by
  simp [queue, new, window, snapshot, BoundedQueue.empty]

theorem append_ok (h : r.Ok) : (r.append ts vec norm payload scale).Ok := by
  unfold Ok at h ⊢
  simp only [append_head, append_tail]
  omega

theorem advanceTail_ok {t : Nat} (hi : t ≤ r.head) : (r.advanceTail t).Ok := hi

theorem new_ok (sh : RingShape) (mem : Columns F) : (new sh mem).Ok := Nat.le_refl _

end SensorRing

end ChronosVector
