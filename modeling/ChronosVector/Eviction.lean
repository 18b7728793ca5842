import ChronosVector.Engine

/-!
# Eviction

`EvictSensor`, `EvictOnce` and the calls that run a pass: `Flush`,
`MaintainSlidingWindow` and the background thread's wake-up.

* `SensorRing.newTail`: how far a pass moves the tail, which is
  `evictCount` of the window's entries;
* `EvictScratch.copyRows`: the copy out of the ring, wrap-around included;
* `Engine.evictSensor`, `Engine.evictOnce`: one sensor, one pass. Both return
  the blocks handed to `WriteBlock` as well;
* `stored_rows`: the block of a pass holds the evicted entries in order, cut to
  the length that its 32-bit count can express.
-/

namespace ChronosVector

variable {F : Type}

/-! ## The eviction frontier -/

namespace SensorRing

variable (r : SensorRing F)

/-- `max_ts`, over the `n` indices from `idx` on. -/
def maxTs (idx n : Nat) : Int64 :=
  (List.range' idx n).foldl
    (fun m i => if m < r.timestampAt i then r.timestampAt i else m) Int64.minValue

/-- The loop that advances `new_tail`. -/
def advancePast (cutoff : Int64) : Nat → Nat → Nat
  | idx, 0 => idx
  | idx, n + 1 => if r.timestampAt idx < cutoff then advancePast cutoff (idx + 1) n else idx

/-- `new_tail`. A window of zero is the flush sentinel. -/
def newTail (windowMs : Int64) : Nat :=
  let (b, e) := r.snapshot
  if windowMs = 0 then e
  else r.advancePast (r.maxTs b (e - b) - windowMs) b (e - b)

end SensorRing

/-- The largest timestamp of a window. -/
def latestTs (items : List (Entry F)) : Int64 :=
  items.foldl (fun m x => if m < x.ts then x.ts else m) Int64.minValue

/-- How many entries a pass removes from the front of a window: all of them on
a flush, else the leading run older than the cutoff. -/
def evictCount (windowMs : Int64) (items : List (Entry F)) : Nat :=
  if windowMs = 0 then items.length
  else (items.takeWhile fun x => x.ts < latestTs items - windowMs).length

theorem evictCount_le (windowMs : Int64) (items : List (Entry F)) :
    evictCount windowMs items ≤ items.length := by
  unfold evictCount
  split
  · exact Nat.le_refl _
  · exact (List.takeWhile_sublist _).length_le

@[simp] theorem evictCount_zero (items : List (Entry F)) : evictCount 0 items = items.length := by
  simp [evictCount]

theorem evictCount_nil (windowMs : Int64) : evictCount windowMs ([] : List (Entry F)) = 0 := by
  simp [evictCount]

namespace SensorRing

variable {r : SensorRing F}

theorem maxTs_eq (idx n : Nat) :
    r.maxTs idx n = latestTs ((List.range' idx n).map r.entryAt) := by
  simp only [maxTs, latestTs, List.foldl_map, entryAt]
  rfl

theorem advancePast_eq (cutoff : Int64) (idx n : Nat) :
    r.advancePast cutoff idx n =
      idx + (((List.range' idx n).map r.entryAt).takeWhile fun x => x.ts < cutoff).length := by
  induction n generalizing idx with
  | zero => simp [advancePast]
  | succ n ih =>
    simp only [advancePast, List.range'_succ, List.map_cons, List.takeWhile_cons]
    by_cases h : r.timestampAt idx < cutoff
    · have hd : decide ((r.entryAt idx).ts < cutoff) = true := decide_eq_true h
      simp only [h, hd, if_true, List.length_cons, ih]
      omega
    · simp [h, entryAt]

/-- The tail moves past `evictCount` entries of the window. -/
theorem newTail_eq (h : r.Ok) (windowMs : Int64) :
    r.newTail windowMs = r.snapshot.1 + evictCount windowMs r.window := by
  have hle := snapshot_le h
  simp only [newTail, evictCount]
  split
  · rw [window_length]
    omega
  · rw [advancePast_eq, maxTs_eq]
    rfl

end SensorRing

/-! ## Copying out -/

namespace EvictScratch

variable (sc : EvictScratch F) (r : SensorRing F)

/-- The four resizes, of which the allocator serves the first `memory`. -/
def reserve [FloatArith F] (sh : RingShape) (count memory : Nat) : EvictScratch F where
  timestamps := if 1 ≤ memory then sc.timestamps.growTo count 0 else sc.timestamps
  vectors := if 2 ≤ memory then sc.vectors.growTo (count * sh.dim) default else sc.vectors
  scales :=
    if 3 ≤ memory ∧ sh.dtype = .int8 then sc.scales.growTo count 0 else sc.scales
  payloads :=
    if 4 ≤ memory ∧ 0 < sh.payloadSize then sc.payloads.growTo (count * sh.payloadSize) 0
    else sc.payloads

/-- One turn of the copy loop: the entry at `b + i` to row `i`. -/
def copyRow (b : Nat) (i : Nat) : EvictScratch F where
  timestamps :=
    { sc.timestamps with data := Function.update sc.timestamps.data i (r.timestampAt (b + i)) }
  vectors :=
    { sc.vectors with
      data := Cells.copy sc.vectors.data (i * r.shape.dim) (r.vectorAt (b + i)) r.shape.dim }
  scales :=
    match r.scaleAt (b + i) with
    | none => sc.scales
    | some x => { sc.scales with data := Function.update sc.scales.data i x }
  payloads :=
    if 0 < r.shape.payloadSize then
      { sc.payloads with
        data := Cells.copy sc.payloads.data (i * r.shape.payloadSize) (r.payloadAt (b + i))
          r.shape.payloadSize }
    else sc.payloads

def copyRows (b n : Nat) : EvictScratch F :=
  (List.range n).foldl (fun sc i => sc.copyRow r b i) sc

/-- The view of the scratch that goes to `WriteBlock`. Its end timestamp is the
last element of the vector, which an earlier pass may have left longer. -/
def block (s : SensorId) (blockId count : Nat) : Block F where
  sensorId := s
  blockId := blockId
  tStartMs := sc.timestamps.data 0
  tEndMs := sc.timestamps.back
  count := UInt32.ofNat count
  dim := r.shape.dim
  payloadSizeBytes := r.shape.payloadSize
  dtype := r.shape.dtype
  timestamps := sc.timestamps.data
  vectors := sc.vectors.data
  scales := if r.shape.dtype = .int8 then some sc.scales.data else none
  payloads := if 0 < r.shape.payloadSize then some sc.payloads.data else none

variable {sc r} {b n i : Nat}

theorem copyRows_succ : sc.copyRows r b (n + 1) = (sc.copyRows r b n).copyRow r b n := by
  simp only [copyRows, List.range_succ, List.foldl_append, List.foldl_cons, List.foldl_nil]

/-- Row `i` of the scratch is the entry at `idx`. -/
structure Holds (sc : EvictScratch F) (r : SensorRing F) (idx i : Nat) : Prop where
  ts : sc.timestamps.data i = r.timestampAt idx
  vec : Cells.slot sc.vectors.data r.shape.dim i = Cells.load (r.vectorAt idx) 0 r.shape.dim
  scale : ∀ x, r.scaleAt idx = some x → sc.scales.data i = x
  payload : Cells.slot sc.payloads.data r.shape.payloadSize i =
    Cells.load (r.payloadAt idx) 0 r.shape.payloadSize

theorem copyRow_self : (sc.copyRow r b i).Holds r (b + i) i where
  ts := by simp [copyRow]
  vec := Cells.slot_copy_self _ _ _ _
  scale := by
    intro x hx
    simp [copyRow, hx]
  payload := by
    simp only [copyRow]
    split
    · exact Cells.slot_copy_self _ _ _ _
    · have : r.shape.payloadSize = 0 := by omega
      simp [this, Cells.slot]

theorem copyRow_ne {idx j : Nat} (h : sc.Holds r idx j) (ne : j ≠ i) :
    (sc.copyRow r b i).Holds r idx j where
  ts := by simpa [copyRow, ne] using h.ts
  vec := by
    rw [← h.vec]
    exact Cells.slot_copy_ne _ _ _ (Ne.symm ne)
  scale := by
    intro x hx
    have := h.scale x hx
    simp only [copyRow]
    split <;> simpa [ne] using this
  payload := by
    rw [← h.payload]
    simp only [copyRow]
    split
    · exact Cells.slot_copy_ne _ _ _ (Ne.symm ne)
    · rfl

/-- After the loop every row is the entry it was copied from. -/
theorem copyRows_holds (hi : i < n) : (sc.copyRows r b n).Holds r (b + i) i := by
  induction n with
  | zero => omega
  | succ n ih =>
    rw [copyRows_succ]
    by_cases eq : i = n
    · exact eq ▸ copyRow_self
    · exact copyRow_ne (ih (by omega)) eq

theorem Holds.row [FloatArith F] {s : SensorId} {id count idx : Nat} (h : sc.Holds r idx i) :
    (sc.block r s id count).row i = (r.entryAt idx).toRow := by
  simp only [Block.row, block, SensorRing.entryAt, Row.mk.injEq]
  refine ⟨h.ts, h.vec, ?_, ?_⟩
  · split
    · rename_i hd
      have := h.scale (r.scales (r.slotOf idx)) (by simp [SensorRing.scaleAt, hd])
      simp [SensorRing.scaleAt, hd, this]
    · rename_i hd
      simp [SensorRing.scaleAt, hd]
  · split
    · exact h.payload
    · have : r.shape.payloadSize = 0 := by omega
      simp [this]

theorem block_complete (s : SensorId) (id count : Nat) : (sc.block r s id count).Complete := by
  refine ⟨r.shape.dim_pos, fun _ => ⟨?_, ?_⟩⟩
  · intro hd
    simp only [block] at hd ⊢
    simp [hd]
  · intro hp
    simp only [block] at hp ⊢
    simp [hp]

/-- What a pass persists: the first `count` entries of the window, cut to what a
32-bit count can express. -/
theorem stored_rows [FloatArith F] (s : SensorId) (id : Nat) (hn : n ≤ r.window.length) :
    ((sc.copyRows r r.snapshot.1 n).block r s id n).stored.rows =
      ((r.window.take n).map Entry.toRow).take (n % 2 ^ 32) := by
  have hcount : ((sc.copyRows r r.snapshot.1 n).block r s id n).count.toNat = n % 2 ^ 32 := by
    simp [block]
  simp only [Block.stored, hcount]
  apply List.ext_getElem
  · simp only [List.length_map, List.length_range, List.length_take]
    have := Nat.mod_le n (2 ^ 32)
    omega
  · intro i h1 h2
    have hi : i < n % 2 ^ 32 := by simpa using h1
    have := Nat.mod_le n (2 ^ 32)
    simp only [List.getElem_map, List.getElem_range, List.getElem_take]
    rw [(copyRows_holds (by omega : i < n)).row]
    simp [SensorRing.window]

end EvictScratch

/-! ## A pass -/

namespace Engine

variable [FloatArith F] (e : Engine F) (env : Env F)

/-- The second half of `EvictSensor`, with the copy in `sc`: advance the tail,
then write. The tail is moved before the outcome of the write is known. -/
def persistEvicted (s : SensorId) (nextBlockId : Nat) (r : SensorRing F) (newTail : Nat)
    (sc : EvictScratch F) : Engine F × Option (Block F) :=
  let blk := sc.block r s nextBlockId (newTail - r.snapshot.1)
  let (rc, backend) := e.backend.writeBlock (env.storage.writeBlock s) blk
  let slot : SensorSlot F :=
    { ring := some (r.advanceTail newTail)
      nextBlockId := if rc = .ok then nextBlockId + 1 else nextBlockId }
  ({ e.setSlot s slot with
      backend := backend
      evictScratch := sc
      totalEvictions := e.totalEvictions + 1
      flushErrorsTotal := if rc = .ok then e.flushErrorsTotal else e.flushErrorsTotal + 1 },
    some blk)

/-- `EvictSensor`. -/
def evictSensor (s : SensorId) (slot : SensorSlot F) (windowMs : Int64) :
    Engine F × Option (Block F) :=
  match slot.ring with
  | none => (e, none)
  | some r =>
    let b := r.snapshot.1
    if b = r.snapshot.2 then (e, none)
    else if r.newTail windowMs = b then (e, none)
    else
      let count := r.newTail windowMs - b
      let sc := e.evictScratch.reserve r.shape count (env.scratchMemory s)
      if env.scratchMemory s < 4 then ({ e with evictScratch := sc }, none)
      else
        e.persistEvicted env s slot.nextBlockId r (r.newTail windowMs) (sc.copyRows r b count)

/-- The loop of `EvictOnce` over the sensors in `ids`. -/
def evictSensors (windowMs : Int64) : List SensorId → Engine F → Engine F × List (Block F)
  | [], e => (e, [])
  | s :: rest, e =>
    match e.sensors.lookup s with
    | none => evictSensors windowMs rest e
    | some slot =>
      let (e', blk) := e.evictSensor env s slot windowMs
      let (e'', blks) := evictSensors windowMs rest e'
      (e'', blk.toList ++ blks)

/-- `EvictOnce`. A negative override selects the configured window. -/
def evictOnce (windowMsOverride : Int64) : Engine F × List (Block F) :=
  let effective := if 0 ≤ windowMsOverride then windowMsOverride else e.cfg.windowDurationMs
  evictSensors env effective (env.order e.sensors.keys) e

def flush : ErrorCode × Engine F :=
  if e.closed then (.closed, e)
  else
    let e' := (e.evictOnce env 0).1
    (e'.backend.flush env.storage.flush, e')

def maintainSlidingWindow (windowMs : Int64) : ErrorCode × Engine F :=
  if e.closed then (.closed, e)
  else if h : windowMs.toInt < 0 then (.invalidArg, e)
  else
    let e' := { e with cfg := e.cfg.setWindow windowMs (window_checked h) }
    (.ok, (e'.evictOnce env (-1)).1)

/-- A wake-up of `EvictionLoop`. The thread is gone once the engine is closed. -/
def backgroundPass : Engine F := if e.closed then e else (e.evictOnce env (-1)).1

end Engine

end ChronosVector
