import Mathlib.Order.Interval.Finset.Nat
import ChronosVector.RingBuffer

/-!
# Runs of a ring

Appends and tail moves on one ring, in any order, next to what the callers gave.

* `RingHistory`: the ring, the entries given to it and the numbers of those that
  a tail move took out of the window;
* `Kept`: what every step keeps, through the queue that the ring refines;
* `ring_keeps_newest`: the snapshot is the end of what was given, every column
  reads it back, and the counters count what fell out unseen.
-/

namespace ChronosVector

open Finset

variable {F : Type}

/-- A call on the ring, with its arguments. -/
inductive RingOp (F : Type) where
  | append (ts : Int64) (vec : Nat → Elem F) (norm : F) (payload : Option (Nat → UInt8)) (scale : F)
  | advanceTail (newTail : Nat)

/-- A ring, the entries given to `Append` so far and the numbers of those that a
tail move removed from the window. -/
structure RingHistory (F : Type) where
  ring : SensorRing F
  given : List (Entry F)
  removed : Finset Nat

/-- The entry that the arguments of `Append` describe. -/
def RingShape.given (sh : RingShape) (ts : Int64) (vec : Nat → Elem F) (norm : F)
    (payload : Option (Nat → UInt8)) (scale : F) : Entry F where
  ts := ts
  vec := Cells.load vec 0 sh.dim
  scale := if sh.dtype = .int8 then some scale else none
  payload :=
    match payload with
    | none => []
    | some p => Cells.load p 0 sh.payloadSize
  norm := norm

/-- A ring with payloads is given one, and the tail moves inside the snapshot. -/
def RingOp.Permitted (r : SensorRing F) : RingOp F → Prop
  | .append _ _ _ payload _ => 0 < r.shape.payloadSize → payload.isSome
  | .advanceTail newTail => r.snapshot.1 ≤ newTail ∧ newTail ≤ r.snapshot.2

namespace RingHistory

/-- One call. -/
def step (h : RingHistory F) : RingOp F → RingHistory F
  | .append ts vec norm payload scale =>
    { h with
      ring := h.ring.append ts vec norm payload scale
      given := h.given ++ [h.ring.shape.given ts vec norm payload scale] }
  | .advanceTail newTail =>
    { h with
      ring := h.ring.advanceTail newTail
      removed := h.removed ∪ Ico h.ring.snapshot.1 newTail }

/-- A ring as constructed. -/
def new (sh : RingShape) (mem : Columns F) : RingHistory F := ⟨.new sh mem, [], ∅⟩

inductive Reached (sh : RingShape) (mem : Columns F) : RingHistory F → Prop where
  | new : Reached sh mem (.new sh mem)
  | step {h : RingHistory F} {op : RingOp F} (earlier : Reached sh mem h)
      (permitted : op.Permitted h.ring) : Reached sh mem (h.step op)

/-- The numbers of the entries that left the window, no tail move having removed
them. -/
def lost (h : RingHistory F) : Finset Nat :=
  (range h.given.length \ Ico h.ring.snapshot.1 h.ring.snapshot.2) \ h.removed

/-! ## What a step keeps -/

structure Kept (h : RingHistory F) : Prop where
  ok : h.ring.Ok
  suffix : h.ring.queue.Suffix h.given
  events : h.ring.overwriteEvents = h.ring.overwrittenEntries
  behind : ∀ i ∈ h.removed, i < h.ring.snapshot.1
  account : h.removed.card + h.ring.overwrittenEntries = h.ring.snapshot.1

variable {h : RingHistory F} {sh : RingShape} {mem : Columns F} {op : RingOp F}

/-- The ring stores what it is given. -/
theorem stored_eq_given {r : SensorRing F} {ts : Int64} {vec : Nat → Elem F} {norm scale : F}
    {payload : Option (Nat → UInt8)} (permitted : 0 < r.shape.payloadSize → payload.isSome) :
    r.stored ts vec norm payload scale = r.shape.given ts vec norm payload scale := by
  cases payload with
  | some p => rfl
  | none =>
    have none : r.shape.payloadSize = 0 := by
      by_contra some
      exact absurd (permitted (Nat.pos_of_ne_zero some)) (by simp)
    simp [SensorRing.stored, RingShape.given, none, Cells.slot]

theorem kept_new (sh : RingShape) (mem : Columns F) : (new sh mem).Kept where
  ok := SensorRing.new_ok sh mem
  suffix := by
    show (SensorRing.new sh mem).queue.Suffix []
    rw [SensorRing.queue_new]
    exact BoundedQueue.suffix_empty
  events := rfl
  behind i mem := absurd mem (notMem_empty i)
  account := by simp [new, SensorRing.new, SensorRing.snapshot]

section
variable (ts : Int64) (vec : Nat → Elem F) (norm : F) (payload : Option (Nat → UInt8)) (scale : F)

theorem Kept.append (kept : h.Kept) (given : 0 < h.ring.shape.payloadSize → payload.isSome) :
    (h.step (.append ts vec norm payload scale)).Kept := by
  let r := h.ring.append ts vec norm payload scale
  let q := h.ring.queue.push h.ring.shape.capacity (h.ring.stored ts vec norm payload scale)
  have pushed : r.queue = q := SensorRing.queue_append kept.ok
  have first : r.snapshot.1 = q.first := congrArg BoundedQueue.first pushed
  have dropped : r.overwrittenEntries = q.dropped := congrArg BoundedQueue.dropped pushed
  have later : h.ring.snapshot.1 ≤ q.first :=
    BoundedQueue.first_le_push (q := h.ring.queue)
  refine ⟨SensorRing.append_ok kept.ok, ?_, ?_, fun i removed => ?_, ?_⟩
  · show r.queue.Suffix (h.given ++ [h.ring.shape.given ts vec norm payload scale])
    rw [pushed, ← stored_eq_given given]
    exact kept.suffix.push h.ring.shape.capacity_pos
  · simp only [RingHistory.step, SensorRing.append, kept.events]
  · show i < r.snapshot.1
    rw [first]
    exact (kept.behind i removed).trans_le later
  · show h.removed.card + r.overwrittenEntries = r.snapshot.1
    have account : h.removed.card + h.ring.queue.dropped = h.ring.queue.first := kept.account
    have passed : q.first + h.ring.queue.dropped = h.ring.queue.first + q.dropped :=
      BoundedQueue.push_passed
    rw [first, dropped]
    omega

end

theorem Kept.advanceTail (kept : h.Kept) {newTail : Nat} (lo : h.ring.snapshot.1 ≤ newTail)
    (hi : newTail ≤ h.ring.snapshot.2) : (h.step (.advanceTail newTail)).Kept := by
  have near := SensorRing.snapshot_near kept.ok
  have live : h.ring.head - newTail ≤ h.ring.shape.capacity := by omega
  have snapshot : (h.ring.advanceTail newTail).snapshot = (newTail, h.ring.head) :=
    SensorRing.snapshot_of_live live
  refine ⟨SensorRing.advanceTail_ok hi, ?_, kept.events, fun i mem => ?_, ?_⟩
  · show (h.ring.advanceTail newTail).queue.Suffix h.given
    rw [SensorRing.queue_advanceTail kept.ok lo hi]
    exact kept.suffix.pop
  · show i < (h.ring.advanceTail newTail).snapshot.1
    rw [snapshot]
    obtain before | now := mem_union.mp mem
    · exact (kept.behind i before).trans_le lo
    · exact (mem_Ico.mp now).2
  · show (h.removed ∪ Ico h.ring.snapshot.1 newTail).card + h.ring.overwrittenEntries =
      (h.ring.advanceTail newTail).snapshot.1
    have apart : Disjoint h.removed (Ico h.ring.snapshot.1 newTail) := by
      rw [disjoint_left]
      intro i before now
      exact absurd (kept.behind i before) (not_lt.mpr (mem_Ico.mp now).1)
    have account := kept.account
    rw [snapshot, card_union_of_disjoint apart, Nat.card_Ico]
    omega

theorem Kept.step (kept : h.Kept) (permitted : op.Permitted h.ring) : (h.step op).Kept := by
  cases op with
  | append ts vec norm payload scale => exact kept.append ts vec norm payload scale permitted
  | advanceTail newTail => exact kept.advanceTail permitted.1 permitted.2

theorem Reached.kept (reached : h.Reached sh mem) : h.Kept := by
  induction reached with
  | new => exact kept_new sh mem
  | step _ permitted ih => exact ih.step permitted

theorem Reached.shape (reached : h.Reached sh mem) : h.ring.shape = sh := by
  induction reached with
  | new => rfl
  | @step h op _ _ ih => cases op <;> exact ih

/-! ## What the reader sees -/

/-- Entry `i` of the window, read through its slot, is the one given with number
`i`. -/
theorem Kept.reads (kept : h.Kept) {i : Nat} (lo : h.ring.snapshot.1 ≤ i)
    (hi : i < h.ring.snapshot.2) : h.given[i]? = some (h.ring.entryAt i) := by
  have items : h.ring.window = h.given.drop h.ring.snapshot.1 := kept.suffix.1
  have place := congrArg (fun l : List (Entry F) => l[i - h.ring.snapshot.1]?) items
  have inside : i - h.ring.snapshot.1 < h.ring.snapshot.2 - h.ring.snapshot.1 := by omega
  simp only [List.getElem?_drop, SensorRing.window, List.getElem?_map,
    List.getElem?_range' inside] at place
  rw [show h.ring.snapshot.1 + (i - h.ring.snapshot.1) = i by omega] at place
  rw [← place]
  simp only [Nat.one_mul, Option.map_some]
  rw [show h.ring.snapshot.1 + (i - h.ring.snapshot.1) = i by omega]

theorem Kept.head (kept : h.Kept) : h.ring.head = h.given.length := by
  have total : h.ring.snapshot.1 + h.ring.window.length = h.given.length := kept.suffix.length
  have le := SensorRing.snapshot_le kept.ok
  rw [SensorRing.window_length] at total
  simp only [SensorRing.snapshot] at le total
  omega

/-- What is neither in the window nor removed from it is what the counter counts. -/
theorem Kept.lost_card (kept : h.Kept) : h.lost.card = h.ring.overwrittenEntries := by
  have le := SensorRing.snapshot_le kept.ok
  have head : h.ring.snapshot.2 = h.given.length := kept.head
  have passed : range h.given.length \ Ico h.ring.snapshot.1 h.ring.snapshot.2 =
      range h.ring.snapshot.1 := by
    ext i
    simp only [mem_sdiff, mem_range, mem_Ico]
    omega
  have inside : h.removed ⊆ range h.ring.snapshot.1 :=
    fun i mem => mem_range.mpr (kept.behind i mem)
  have account := kept.account
  rw [lost, passed, card_sdiff_of_subset inside, card_range]
  omega

/-- **The ring keeps the newest entries.** -/
theorem ring_keeps_newest (reached : h.Reached sh mem) :
    h.ring.snapshot =
        (h.given.length - min (h.ring.head - h.ring.tail) sh.capacity, h.given.length) ∧
      (∀ i, h.ring.snapshot.1 ≤ i → i < h.ring.snapshot.2 →
        h.given[i]? = some (h.ring.entryAt i)) ∧
      h.ring.overwriteEvents = h.lost.card ∧ h.ring.overwrittenEntries = h.lost.card := by
  have kept := reached.kept
  have ok : h.ring.tail ≤ h.ring.head := kept.ok
  refine ⟨?_, fun i => kept.reads, ?_, kept.lost_card.symm⟩
  · rw [← kept.head, ← reached.shape]
    simp only [SensorRing.snapshot, Prod.mk.injEq, and_true]
    split <;> omega
  · rw [kept.events, kept.lost_card]

/-! ## A lapped ring -/

/-- One more entry, numbered in every column. -/
def tick (h : RingHistory Int) (n : Nat) : RingHistory Int :=
  h.step (.append (.ofNat n) (fun _ => .f32 n) n none 0)

/-- 66 entries in 64 slots. -/
def overfull : RingHistory Int :=
  (List.range 66).foldl tick (.new ⟨64, 2, 0, .float32, by decide, ⟨6, rfl⟩, by decide⟩
    ⟨fun _ => 0, fun _ => .i8 0, fun _ => 0, fun _ => 0, fun _ => 0⟩)

/-- Two of them removed. -/
def lapped : RingHistory Int := overfull.step (.advanceTail 4)

theorem Reached.ticks {mem : Columns Int} {h : RingHistory Int} (plain : sh.payloadSize = 0)
    (reached : h.Reached sh mem) (ns : List Nat) : (ns.foldl tick h).Reached sh mem := by
  induction ns generalizing h with
  | nil => exact reached
  | cons n ns ih =>
    apply ih
    apply reached.step
    intro pos
    rw [reached.shape, plain] at pos
    omega

/-- Entries 0 and 1 fell out, 2 and 3 were removed, and 4 is read back. -/
theorem lapped_keeps_newest :
    lapped.ring.snapshot = (lapped.given.length - min (lapped.ring.head - lapped.ring.tail) 64, 66) ∧
      lapped.given[4]? = some (lapped.ring.entryAt 4) ∧
      lapped.ring.overwrittenEntries = lapped.lost.card ∧ lapped.lost = {0, 1} := by
  have inside : (RingOp.advanceTail 4).Permitted overfull.ring :=
    ⟨by decide +kernel, by decide +kernel⟩
  obtain ⟨snapshot, reads, -, counted⟩ :=
    ring_keeps_newest (.step (.ticks rfl .new (List.range 66)) inside)
  exact ⟨snapshot, reads 4 (by decide +kernel) (by decide +kernel), counted, by decide +kernel⟩

end RingHistory

end ChronosVector
