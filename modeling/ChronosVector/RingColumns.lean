import Mathlib.Data.List.Induction
import ChronosVector.RingRuns

/-!
# The columns of a ring

The ring's model keeps its columns in unbounded memory. Its calls stay inside the
cells that the columns have.

* `Column`, `RingShape.cells`, `RingShape.stride`: how large a column is;
* `Columns.Agree`: two memories with the same content in some of the cells;
* `run_contained`: no run writes beyond the columns;
* `run_window`: no run shows what lies there.
-/

namespace ChronosVector

variable {F : Type}

inductive Column
  | timestamps | vectors | norms | scales | payloads
  deriving DecidableEq, Repr

/-- The cells of a column in the ring's model. -/
def RingShape.cells (sh : RingShape) : Column → Nat
  | .timestamps | .norms | .scales => sh.capacity
  | .vectors => sh.capacity * sh.dim
  | .payloads => sh.capacity * sh.payloadSize

/-- The bytes of one cell. -/
def RingShape.cellBytes (sh : RingShape) : Column → Nat
  | .timestamps => 8
  | .vectors => sh.dtype.size
  | .norms => 4
  | .scales => 4
  | .payloads => 1

/-- The bytes of one slot. -/
def RingShape.stride (sh : RingShape) : Column → Nat
  | .timestamps => 8
  | .vectors => sh.dim * sh.dtype.size
  | .norms => 4
  | .scales => 4
  | .payloads => sh.payloadSize

theorem RingShape.cells_bytes (sh : RingShape) (col : Column) :
    sh.cells col * sh.cellBytes col = sh.capacity * sh.stride col := by
  cases col with
  | vectors => exact Nat.mul_assoc _ _ _
  | payloads => exact Nat.mul_one _
  | timestamps | norms | scales => rfl

/-- Two memories hold the same in the cells that `p` marks, given a cell's number
and how many cells its column has. -/
structure Columns.Agree (sh : RingShape) (p : Nat → Nat → Prop) (m m' : Columns F) : Prop where
  timestamps : ∀ i, p i (sh.cells .timestamps) → m.timestamps i = m'.timestamps i
  vectors : ∀ i, p i (sh.cells .vectors) → m.vectors i = m'.vectors i
  norms : ∀ i, p i (sh.cells .norms) → m.norms i = m'.norms i
  scales : ∀ i, p i (sh.cells .scales) → m.scales i = m'.scales i
  payloads : ∀ i, p i (sh.cells .payloads) → m.payloads i = m'.payloads i

/-! ## Cells -/

namespace Columns.Agree

variable {sh : RingShape} {p : Nat → Nat → Prop} {m m' m'' : Columns F}

theorem refl (sh : RingShape) (p : Nat → Nat → Prop) (m : Columns F) : m.Agree sh p m :=
  ⟨fun _ _ => rfl, fun _ _ => rfl, fun _ _ => rfl, fun _ _ => rfl, fun _ _ => rfl⟩

theorem trans (h : m.Agree sh p m') (h' : m'.Agree sh p m'') : m.Agree sh p m'' where
  timestamps i marked := (h.timestamps i marked).trans (h'.timestamps i marked)
  vectors i marked := (h.vectors i marked).trans (h'.vectors i marked)
  norms i marked := (h.norms i marked).trans (h'.norms i marked)
  scales i marked := (h.scales i marked).trans (h'.scales i marked)
  payloads i marked := (h.payloads i marked).trans (h'.payloads i marked)

end Columns.Agree

namespace SensorRing

variable {r r' : SensorRing F} (ts : Int64) (vec : Nat → Elem F) (norm : F)
  (payload : Option (Nat → UInt8)) (scale : F)

theorem slotOf_lt (r : SensorRing F) (idx : Nat) : r.slotOf idx < r.shape.capacity := by
  rw [slotOf_eq_mod]
  exact Nat.mod_lt _ r.shape.capacity_pos

/-- Nothing is written beyond the columns. -/
theorem append_beyond :
    (r.append ts vec norm payload scale).toColumns.Agree r.shape (· ≥ ·) r.toColumns := by
  have slot := r.slotOf_lt r.head
  have apart {i : Nat} (beyond : i ≥ r.shape.capacity) : i ≠ r.slotOf r.head := by omega
  refine ⟨fun i beyond => ?_, fun i beyond => ?_, fun i beyond => ?_, fun i beyond => ?_,
    fun i beyond => ?_⟩
  · exact Function.update_of_ne (apart beyond) _ _
  · exact Cells.copy_beyond ((Cells.slot_inside _ slot).trans beyond)
  · exact Function.update_of_ne (apart beyond) _ _
  · simp only [append]
    split
    · exact Function.update_of_ne (apart beyond) _ _
    · rfl
  · cases payload with
    | none => rfl
    | some p =>
      simp only [append]
      split
      · exact Cells.copy_beyond ((Cells.slot_inside _ slot).trans beyond)
      · rfl

/-- Two rings that differ at most beyond their columns. -/
structure Alike (r r' : SensorRing F) : Prop where
  shape : r'.shape = r.shape
  head : r'.head = r.head
  tail : r'.tail = r.tail
  columns : r.toColumns.Agree r.shape (· < ·) r'.toColumns

namespace Alike

variable (h : r.Alike r')
include h

theorem slotOf (idx : Nat) : r'.slotOf idx = r.slotOf idx := by
  rw [slotOf_eq_mod, slotOf_eq_mod, h.shape]

theorem append :
    (r.append ts vec norm payload scale).Alike (r'.append ts vec norm payload scale) := by
  have slot : r'.slotOf r'.head = r.slotOf r.head := by rw [h.head, h.slotOf]
  refine ⟨h.shape, by rw [append_head, append_head, h.head], h.tail, fun i inside => ?_,
    fun i inside => ?_, fun i inside => ?_, fun i inside => ?_, fun i inside => ?_⟩
  · simp only [SensorRing.append, slot, Function.update_apply, h.columns.timestamps i inside]
  · simp only [SensorRing.append, slot, h.shape, Cells.copy, h.columns.vectors i inside]
  · simp only [SensorRing.append, slot, Function.update_apply, h.columns.norms i inside]
  · simp only [SensorRing.append, slot, h.shape]
    split
    · simp only [Function.update_apply, h.columns.scales i inside]
    · exact h.columns.scales i inside
  · have kept := h.columns.payloads i inside
    cases payload with
    | none => exact kept
    | some p =>
      simp only [SensorRing.append, slot, h.shape]
      split
      · simp only [Cells.copy, kept]
      · exact kept

theorem advanceTail (newTail : Nat) : (r.advanceTail newTail).Alike (r'.advanceTail newTail) :=
  ⟨h.shape, h.head, rfl, h.columns⟩

theorem snapshot : r'.snapshot = r.snapshot := by
  simp only [SensorRing.snapshot, h.shape, h.head, h.tail]

theorem entryAt (idx : Nat) : r'.entryAt idx = r.entryAt idx := by
  have slot := r.slotOf_lt idx
  have row {j : Nat} (stride : Nat) (hj : j < stride) :
      r.slotOf idx * stride + j < r.shape.capacity * stride :=
    (Nat.add_lt_add_left hj _).trans_le (Cells.slot_inside stride slot)
  have vec : Cells.load (r'.vectorAt idx) 0 r'.shape.dim =
      Cells.load (r.vectorAt idx) 0 r.shape.dim := by
    rw [h.shape]
    apply Cells.load_congr
    intro j hj
    simp only [vectorAt, h.slotOf, h.shape, Nat.zero_add]
    exact (h.columns.vectors _ (row _ hj)).symm
  have bytes : Cells.load (r'.payloadAt idx) 0 r'.shape.payloadSize =
      Cells.load (r.payloadAt idx) 0 r.shape.payloadSize := by
    rw [h.shape]
    apply Cells.load_congr
    intro j hj
    simp only [payloadAt, h.slotOf, h.shape, Nat.zero_add]
    exact (h.columns.payloads _ (row _ hj)).symm
  rw [SensorRing.entryAt, SensorRing.entryAt, vec, bytes]
  simp only [timestampAt, normAt, scaleAt, h.slotOf, h.shape,
    h.columns.timestamps _ slot, h.columns.norms _ slot, h.columns.scales _ slot]

theorem window : r'.window = r.window := by
  rw [SensorRing.window, SensorRing.window, h.snapshot]
  apply List.map_congr_left
  intro idx _
  exact h.entryAt idx

end Alike

end SensorRing

/-! ## Runs -/

namespace RingHistory

/-- The calls of a run, one after the other, on a new ring. -/
def run (sh : RingShape) (mem : Columns F) (ops : List (RingOp F)) : RingHistory F :=
  ops.foldl step (.new sh mem)

variable {sh : RingShape} {mem mem' : Columns F} {h h' : RingHistory F}

/-- A ring of the shape, in a memory that beyond the columns is as it was. -/
structure Contained (sh : RingShape) (mem : Columns F) (h : RingHistory F) : Prop where
  shape : h.ring.shape = sh
  beyond : h.ring.toColumns.Agree sh (· ≥ ·) mem

theorem Contained.step (kept : h.Contained sh mem) (op : RingOp F) :
    (h.step op).Contained sh mem := by
  obtain ⟨rfl, beyond⟩ := kept
  cases op with
  | append ts vec norm payload scale =>
    exact ⟨rfl, (SensorRing.append_beyond ts vec norm payload scale).trans beyond⟩
  | advanceTail newTail => exact ⟨rfl, beyond⟩

/-- No run writes beyond the columns. -/
theorem run_contained (ops : List (RingOp F)) : (run sh mem ops).Contained sh mem := by
  induction ops using List.reverseRecOn with
  | nil => exact ⟨rfl, .refl sh (· ≥ ·) mem⟩
  | append_singleton ops op ih =>
    rw [run, List.foldl_concat]
    exact ih.step op

theorem step_alike (alike : h.ring.Alike h'.ring) (op : RingOp F) :
    (h.step op).ring.Alike (h'.step op).ring := by
  cases op with
  | append ts vec norm payload scale => exact alike.append ts vec norm payload scale
  | advanceTail newTail => exact alike.advanceTail newTail

/-- **The columns are all there is.** What lies beyond them changes no window. -/
theorem run_window (ops : List (RingOp F)) (same : mem.Agree sh (· < ·) mem') :
    (run sh mem' ops).ring.window = (run sh mem ops).ring.window := by
  apply SensorRing.Alike.window
  induction ops using List.reverseRecOn with
  | nil => exact ⟨rfl, rfl, rfl, same⟩
  | append_singleton ops op ih =>
    rw [run, run, List.foldl_concat, List.foldl_concat]
    exact step_alike ih op

end RingHistory

end ChronosVector
