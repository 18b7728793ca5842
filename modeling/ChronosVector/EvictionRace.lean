import ChronosVector.Eviction

/-!
# A pass against the producer

One sensor's producer and the eviction passes of its ring, interleaved at the
grain of `Append`, `Snapshot`, each timestamp read and each row copied by
`EvictSensor`, `AdvanceTail` and `WriteBlock`. The producer never waits for the
tail; the copy into the scratch is all that protects a block.

* `Race`: the ring, the scratch and where the pass stands, with the log of all
  appended entries and the indices counted in `overwritten_entries`;
* `run_pass`, `pass_alone`: without the producer the steps are
  `Engine.evictSensor`.
-/

namespace ChronosVector

variable {F : Type}

/-! ## Rows in the scratch -/

namespace EvictScratch

variable (sc : EvictScratch F)

/-- Row `i` of a block made from the scratch. -/
def rowAt (sh : RingShape) (i : Nat) : Row F where
  ts := sc.timestamps.data i
  vec := Cells.slot sc.vectors.data sh.dim i
  scale := if sh.dtype = .int8 then some (sc.scales.data i) else none
  payload := if 0 < sh.payloadSize then Cells.slot sc.payloads.data sh.payloadSize i else []

variable {sc} {r : SensorRing F} {b i j : Nat}

theorem block_row [FloatArith F] (s : SensorId) (id count i : Nat) :
    (sc.block r s id count).row i = sc.rowAt r.shape i := by
  apply Row.ext
  · rfl
  · rfl
  · simp only [Block.row, block, rowAt]
    split <;> simp
  · simp only [Block.row, block, rowAt]
    split
    · rfl
    · have none : r.shape.payloadSize = 0 := by omega
      simp [none]

theorem rowAt_of_holds [FloatArith F] {idx : Nat} (h : sc.Holds r idx i) :
    sc.rowAt r.shape i = (r.entryAt idx).toRow := by
  have s : SensorId := ⟨[0x61], by decide⟩
  rw [← block_row s 0 0, h.row]

theorem rowAt_copyRow_self [FloatArith F] :
    (sc.copyRow r b i).rowAt r.shape i = (r.entryAt (b + i)).toRow :=
  rowAt_of_holds copyRow_self

theorem rowAt_copyRow_ne (h : j ≠ i) :
    (sc.copyRow r b i).rowAt r.shape j = sc.rowAt r.shape j := by
  simp only [rowAt, Row.mk.injEq]
  refine ⟨?_, ?_, ?_, ?_⟩
  · simp [copyRow, h]
  · exact Cells.slot_copy_ne _ _ _ h.symm
  · simp only [copyRow]
    split
    · split <;> simp [h]
    · rfl
  · simp only [copyRow]
    split
    · exact Cells.slot_copy_ne _ _ _ h.symm
    · rfl

end EvictScratch

/-! ## Steps -/

/-- Where `EvictSensor` stands: in the search for the largest timestamp, in the
loop that advances `new_tail`, before the resizes, in the copy loop, or past
`AdvanceTail`. -/
inductive PassPoint
  | idle
  | scanning (b e i : Nat) (maxTs windowMs : Int64)
  | advancing (b e newTail : Nat) (cutoff : Int64)
  | reserving (b newTail : Nat)
  | copying (b newTail i : Nat)
  | writing (b newTail : Nat)

namespace PassPoint

/-- The indices a pass may still copy. -/
def held : PassPoint → Option (Nat × Nat)
  | idle => none
  | scanning b e _ _ _ => some (b, e)
  | advancing b e _ _ => some (b, e)
  | reserving b t => some (b, t)
  | copying b t _ => some (b, t)
  | writing _ _ => none

end PassPoint

/-- A block given to `WriteBlock`, with the answer, the index each row was
appended at, and whether the ring was found full during its pass. -/
structure Handed (F : Type) where
  b : Nat
  rc : ErrorCode
  block : StoredBlock F
  sources : List Nat
  overtaken : Bool

structure Race (F : Type) where
  ring : SensorRing F
  scratch : EvictScratch F
  point : PassPoint
  /-- The indices of the rows copied so far. -/
  sources : List Nat
  overtaken : Bool
  log : List (Entry F)
  /-- The index of every entry counted in `overwritten_entries`. -/
  lost : List Nat
  handed : List (Handed F)

/-- The index whose entry the slot of `idx` holds. -/
def SensorRing.holder (r : SensorRing F) (idx : Nat) : Nat :=
  r.head - 1 - (r.head - 1 - idx) % r.shape.capacity

inductive RaceAction (F : Type)
  | append (ts : Int64) (vec : Nat → Elem F) (norm : F) (payload : Option (Nat → UInt8)) (scale : F)
  | snapshot (windowMs : Int64)
  | read
  | reserve (memory : Nat)
  | copy
  | advanceTail
  | write (s : SensorId) (blockId : Nat) (rc : ErrorCode)

namespace Race

/-- A ring nobody has used. -/
def start (sh : RingShape) (mem : Columns F) (sc : EvictScratch F) : Race F :=
  ⟨.new sh mem, sc, .idle, [], false, [], [], []⟩

/-- `Append`. -/
def produce (c : Race F) (ts : Int64) (vec : Nat → Elem F) (norm : F)
    (payload : Option (Nat → UInt8)) (scale : F) : Race F :=
  let lapped := decide (c.ring.shape.capacity ≤ c.ring.head - c.ring.tail)
  { c with
    ring := c.ring.append ts vec norm payload scale
    overtaken := c.overtaken || (lapped && c.point.held.isSome)
    log := c.log ++ [c.ring.stored ts vec norm payload scale]
    lost := if lapped then c.lost ++ [c.ring.head - c.ring.shape.capacity] else c.lost }

def step [FloatArith F] (c : Race F) : RaceAction F → Option (Race F)
  | .append ts vec norm payload scale => some (c.produce ts vec norm payload scale)
  | .snapshot windowMs =>
    match c.point with
    | .idle =>
      let (b, e) := c.ring.snapshot
      let taken := { c with sources := [], overtaken := false }
      if b = e then some c
      else if windowMs = 0 then some { taken with point := .reserving b e }
      else some { taken with point := .scanning b e b Int64.minValue windowMs }
    | _ => none
  | .read =>
    match c.point with
    | .scanning b e i maxTs windowMs =>
      if i < e then
        let t := c.ring.timestampAt i
        some { c with point := .scanning b e (i + 1) (if maxTs < t then t else maxTs) windowMs }
      else some { c with point := .advancing b e b (maxTs - windowMs) }
    | .advancing b e newTail cutoff =>
      if newTail < e ∧ c.ring.timestampAt newTail < cutoff then
        some { c with point := .advancing b e (newTail + 1) cutoff }
      else if newTail = b then some { c with point := .idle }
      else some { c with point := .reserving b newTail }
    | _ => none
  | .reserve memory =>
    match c.point with
    | .reserving b newTail =>
      some
        { c with
          scratch := c.scratch.reserve c.ring.shape (newTail - b) memory
          point := if memory < 4 then .idle else .copying b newTail 0 }
    | _ => none
  | .copy =>
    match c.point with
    | .copying b newTail i =>
      if i < newTail - b then
        some
          { c with
            scratch := c.scratch.copyRow c.ring b i
            sources := c.sources ++ [c.ring.holder (b + i)]
            point := .copying b newTail (i + 1) }
      else none
    | _ => none
  | .advanceTail =>
    match c.point with
    | .copying b newTail i =>
      if i = newTail - b then
        some { c with ring := c.ring.advanceTail newTail, point := .writing b newTail }
      else none
    | _ => none
  | .write s blockId rc =>
    match c.point with
    | .writing b newTail =>
      let blk := c.scratch.block c.ring s blockId (newTail - b)
      some
        { c with
          point := .idle
          handed := c.handed ++
            [⟨b, rc, blk.stored, c.sources.take blk.count.toNat, c.overtaken⟩] }
    | _ => none

/-- A run of the two threads; `none` if an action is not possible where it is
taken. -/
def run [FloatArith F] : Race F → List (RaceAction F) → Option (Race F)
  | c, [] => some c
  | c, a :: rest => (c.step a).bind fun c' => c'.run rest

/-! ## Without the producer -/

section
variable [FloatArith F] {c : Race F} {b e t i n : Nat}

/-- A step of the evicting thread. -/
def ByPass : RaceAction F → Prop
  | .append _ _ _ _ _ => False
  | _ => True

theorem run_append {c' : Race F} {acts acts' : List (RaceAction F)} (h : c.run acts = some c') :
    c.run (acts ++ acts') = c'.run acts' := by
  induction acts generalizing c with
  | nil =>
    cases h
    rfl
  | cons a rest ih =>
    obtain ⟨next, stepped, tail⟩ := Option.bind_eq_some_iff.mp h
    rw [List.cons_append, run, stepped]
    exact ih tail

theorem run_scanning {m w : Int64} (h : c.point = .scanning b e i m w) (hn : i + n = e) :
    c.run (List.replicate (n + 1) .read) = some
      { c with
        point := .advancing b e b ((List.range' i n).foldl
          (fun m j => if m < c.ring.timestampAt j then c.ring.timestampAt j else m) m - w) } := by
  induction n generalizing c i m with
  | zero =>
    have done : ¬ i < e := by omega
    simp only [List.replicate, run, step, h, done, if_false, Option.bind_some]
    rfl
  | succ n ih =>
    have more : i < e := by omega
    rw [List.replicate_succ, run]
    simp only [step, h, more, if_true, Option.bind_some]
    rw [ih rfl (by omega)]
    rfl

theorem run_advancing {cutoff : Int64} (h : c.point = .advancing b e t cutoff) (hn : t + n = e)
    (moved : c.ring.advancePast cutoff t n ≠ b) :
    ∃ k, c.run (List.replicate k .read) = some
      { c with point := .reserving b (c.ring.advancePast cutoff t n) } := by
  induction n generalizing c t with
  | zero =>
    have done : ¬ (t < e ∧ c.ring.timestampAt t < cutoff) := by omega
    refine ⟨1, ?_⟩
    rw [SensorRing.advancePast] at moved ⊢
    simp only [List.replicate, run, step, h, done, moved, if_false, Option.bind_some]
  | succ n ih =>
    rw [SensorRing.advancePast] at moved ⊢
    by_cases older : c.ring.timestampAt t < cutoff
    · have more : t < e ∧ c.ring.timestampAt t < cutoff := ⟨by omega, older⟩
      rw [if_pos older] at moved ⊢
      obtain ⟨k, rest⟩ := ih (c := { c with point := .advancing b e (t + 1) cutoff }) rfl
        (by omega) moved
      refine ⟨k + 1, ?_⟩
      rw [List.replicate_succ, run]
      simp only [step, h, more, and_self, if_true, Option.bind_some]
      exact rest
    · have done : ¬ (t < e ∧ c.ring.timestampAt t < cutoff) := fun h => older h.2
      rw [if_neg older] at moved ⊢
      refine ⟨1, ?_⟩
      simp only [List.replicate, run, step, h, done, moved, if_false, Option.bind_some]

omit [FloatArith F] in
theorem snapshot_nonempty {windowMs : Int64} (moved : c.ring.newTail windowMs ≠ c.ring.snapshot.1) :
    c.ring.snapshot.1 ≠ c.ring.snapshot.2 := by
  intro none
  apply moved
  simp only [SensorRing.newTail]
  split
  · exact none.symm
  · rw [none, Nat.sub_self, SensorRing.advancePast]

/-- The search for the frontier finds `newTail`. -/
theorem run_frontier {windowMs : Int64} (idle : c.point = .idle)
    (moved : c.ring.newTail windowMs ≠ c.ring.snapshot.1) (ok : c.ring.Ok) :
    ∃ k, c.run (.snapshot windowMs :: List.replicate k .read) = some
      { c with
        sources := []
        overtaken := false
        point := .reserving c.ring.snapshot.1 (c.ring.newTail windowMs) } := by
  have le := SensorRing.snapshot_le ok
  have some := snapshot_nonempty moved
  simp only [SensorRing.newTail] at moved ⊢
  by_cases flush : windowMs = 0
  · refine ⟨0, ?_⟩
    simp only [List.replicate, run, step, idle, some, flush, if_true, if_false, Option.bind_some]
  · simp only [flush, if_false] at moved ⊢
    let taken : Race F :=
      { c with
        sources := []
        overtaken := false
        point := .scanning c.ring.snapshot.1 c.ring.snapshot.2 c.ring.snapshot.1 Int64.minValue
          windowMs }
    have scanned := run_scanning (c := taken) rfl (Nat.add_sub_cancel' le)
    obtain ⟨k, advanced⟩ := run_advancing (c := { taken with point := _ }) rfl
      (Nat.add_sub_cancel' le) moved
    refine ⟨c.ring.snapshot.2 - c.ring.snapshot.1 + 1 + k, ?_⟩
    rw [← List.replicate_append_replicate, run]
    simp only [step, idle, some, flush, if_false, Option.bind_some]
    rw [run_append scanned]
    exact advanced

theorem run_copying (h : c.point = .copying b t i) (hn : i + n ≤ t - b) :
    ∃ sources, c.run (List.replicate n .copy) = some
      { c with
        scratch := (List.range' i n).foldl (fun sc j => sc.copyRow c.ring b j) c.scratch
        sources := sources
        point := .copying b t (i + n) } := by
  induction n generalizing c i with
  | zero =>
    refine ⟨c.sources, ?_⟩
    rw [Nat.add_zero, ← h]
    rfl
  | succ n ih =>
    have more : i < t - b := by omega
    obtain ⟨sources, rest⟩ := ih (i := i + 1)
      (c :=
        { c with
          scratch := c.scratch.copyRow c.ring b i
          sources := c.sources ++ [c.ring.holder (b + i)]
          point := .copying b t (i + 1) }) rfl (by omega)
    refine ⟨sources, ?_⟩
    rw [List.replicate_succ, run]
    simp only [step, h, more, if_true, Option.bind_some]
    rw [rest, Nat.add_assoc, Nat.add_comm 1 n]
    rfl

/-- The scratch and the block of an undisturbed pass. -/
def aloneScratch (c : Race F) (windowMs : Int64) (memory : Nat) : EvictScratch F :=
  let count := c.ring.newTail windowMs - c.ring.snapshot.1
  (c.scratch.reserve c.ring.shape count memory).copyRows c.ring c.ring.snapshot.1 count

def aloneBlock (c : Race F) (windowMs : Int64) (memory : Nat) (s : SensorId) (id : Nat) : Block F :=
  (c.aloneScratch windowMs memory).block c.ring s id (c.ring.newTail windowMs - c.ring.snapshot.1)

theorem run_pass {windowMs : Int64} (s : SensorId) (id : Nat) (rc : ErrorCode) {memory : Nat}
    (idle : c.point = .idle) (ok : c.ring.Ok)
    (moved : c.ring.newTail windowMs ≠ c.ring.snapshot.1) (room : 4 ≤ memory) :
    ∃ acts sources, (∀ a ∈ acts, ByPass a) ∧ c.run acts = some
      { c with
        ring := c.ring.advanceTail (c.ring.newTail windowMs)
        scratch := c.aloneScratch windowMs memory
        sources := sources
        overtaken := false
        point := .idle
        handed := c.handed ++
          [⟨c.ring.snapshot.1, rc, (c.aloneBlock windowMs memory s id).stored,
            sources.take (c.aloneBlock windowMs memory s id).count.toNat, false⟩] } := by
  obtain ⟨k, frontier⟩ := run_frontier idle moved ok
  let n := c.ring.newTail windowMs - c.ring.snapshot.1
  have enough : ¬ memory < 4 := Nat.not_lt.mpr room
  obtain ⟨sources, copies⟩ := run_copying (n := n)
    (c :=
      { c with
        scratch := c.scratch.reserve c.ring.shape n memory
        sources := []
        overtaken := false
        point := .copying c.ring.snapshot.1 (c.ring.newTail windowMs) 0 })
    rfl (Nat.le_of_eq (Nat.zero_add n))
  refine ⟨(.snapshot windowMs :: List.replicate k .read) ++
    (.reserve memory :: (List.replicate n .copy ++ [.advanceTail, .write s id rc])), sources, ?_, ?_⟩
  · intro a ha
    simp only [List.mem_append, List.mem_cons, List.mem_replicate] at ha
    obtain (rfl | ⟨-, rfl⟩) | rfl | ⟨-, rfl⟩ | rfl | rfl | ha := ha
    · trivial
    · trivial
    · trivial
    · trivial
    · trivial
    · trivial
    · cases ha
  · rw [run_append frontier, run]
    simp only [step, enough, if_false, Option.bind_some]
    rw [run_append copies]
    simp only [run, step, Nat.zero_add]
    rw [if_pos rfl]
    simp only [Option.bind_some, aloneScratch, aloneBlock, EvictScratch.copyRows,
      List.range_eq_range']
    rfl

/-- **A pass of its own.** Undisturbed, the steps are those of
`Engine.evictSensor`: the same ring, the same scratch, the same block. -/
theorem pass_alone (e : Engine F) (env : Env F) (s : SensorId) (id : Nat) {windowMs : Int64}
    (scratch : c.scratch = e.evictScratch)
    (moved : c.ring.newTail windowMs ≠ c.ring.snapshot.1) (room : 4 ≤ env.scratchMemory s) :
    e.evictSensor env s ⟨some c.ring, id⟩ windowMs =
        e.persistEvicted env s id c.ring (c.ring.newTail windowMs)
          (c.aloneScratch windowMs (env.scratchMemory s)) ∧
      (e.evictSensor env s ⟨some c.ring, id⟩ windowMs).2 =
        some (c.aloneBlock windowMs (env.scratchMemory s) s id) := by
  have some := snapshot_nonempty moved
  have enough : ¬ env.scratchMemory s < 4 := Nat.not_lt.mpr room
  have same : e.evictSensor env s ⟨.some c.ring, id⟩ windowMs =
      e.persistEvicted env s id c.ring (c.ring.newTail windowMs)
        (c.aloneScratch windowMs (env.scratchMemory s)) := by
    simp only [Engine.evictSensor, some, moved, enough, if_false, aloneScratch, scratch]
  refine ⟨same, ?_⟩
  rw [same]
  rfl

end

end Race

end ChronosVector
