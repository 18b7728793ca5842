import ChronosVector.Exact
import ChronosVector.RaceInvariant

/-!
# Blocks under a running producer

`blocks_faithful`: the blocks of a ring are what was appended to it, as long as
the producer does not find the ring full between a pass's snapshot and its tail
advance. When it does, it overwrites the entry the snapshot begins with.
-/

namespace ChronosVector

variable {F : Type}

namespace Race

/-- What a block should be: its rows are the entries appended from the begin of
the snapshot on, and nothing in a persisted block is in another one or counted
as overwritten. -/
structure Faithful (c : Race F) : Prop where
  rows : ∀ p ∈ c.handed, p.sources = List.range' p.b p.block.rows.length ∧
    p.block.rows.map some = p.sources.map fun idx => (c.log[idx]?).map Entry.toRow
  once : c.handed.Pairwise fun p q => p.rc = .ok → q.rc = .ok → ∀ idx ∈ p.sources, idx ∉ q.sources
  counted : ∀ p ∈ c.handed, p.rc = .ok → ∀ idx ∈ p.sources, idx ∉ c.lost

theorem faithful_of_calm {c : Race F} (inv : c.Inv) (calm : ∀ p ∈ c.handed, p.overtaken = false) :
    c.Faithful where
  rows := by
    intro p hp
    have handed := inv.handed p hp
    have length : p.block.rows.length = p.sources.length := by
      simpa using congrArg List.length handed.rows
    rw [length]
    exact ⟨handed.exact (calm p hp), handed.rows⟩
  once := by
    apply inv.ordered.imp_of_mem ?_
    intro p q hp hq before _ _ idx mem mem'
    rw [(inv.handed p hp).exact (calm p hp), List.mem_range'_1] at mem
    rw [(inv.handed q hq).exact (calm q hq), List.mem_range'_1] at mem'
    omega
  counted := by
    intro p hp _ idx mem lost
    have apart := (inv.handed p hp).range.apart (calm p hp) idx lost
    rw [(inv.handed p hp).exact (calm p hp), List.mem_range'_1] at mem
    omega

/-- The lost entries are the ones the ring counts. -/
theorem lost_counted [FloatArith F] {sh : RingShape} {mem : Columns F} {sc : EvictScratch F}
    {acts : List (RaceAction F)} {c : Race F} (h : (start sh mem sc).run acts = some c) :
    c.lost.length = c.ring.overwrittenEntries ∧ c.log.length = c.ring.head := by
  have inv := run_inv (start_inv sh mem sc) h
  exact ⟨inv.ring.counted, inv.ring.logged⟩

/-- **No mixed blocks.** The blocks are faithful as long as no append finds the
ring full between a pass's snapshot and its tail advance; and where every write
succeeded and no block was cut to nothing, only then. -/
theorem blocks_faithful [FloatArith F] {sh : RingShape} {mem : Columns F} {sc : EvictScratch F}
    {acts : List (RaceAction F)} {c : Race F} (h : (start sh mem sc).run acts = some c) :
    ((∀ p ∈ c.handed, p.overtaken = false) → c.Faithful) ∧
      ((∀ p ∈ c.handed, p.rc = .ok ∧ p.block.rows ≠ []) → c.Faithful →
        ∀ p ∈ c.handed, p.overtaken = false) := by
  have inv := run_inv (start_inv sh mem sc) h
  constructor
  · exact faithful_of_calm inv
  · intro whole faithful p hp
    obtain ⟨rc, some⟩ := whole p hp
    by_contra hit
    have lost := (inv.handed p hp).range.hit (by simpa using hit)
    apply faithful.counted p hp rc p.b ?_ lost
    rw [(faithful.rows p hp).1, List.mem_range'_1]
    have := List.length_pos_iff.mpr some
    omega

/-! ## A full ring -/

/-- An append of `smallRow`'s shape. -/
def appendAt (ts : Int64) : RaceAction ℚ := .append ts (fun _ => default) 0 none 0

/-- The producer appends while a pass copies, with room left in the ring. -/
def calmPass : List (RaceAction ℚ) :=
  [appendAt 1, appendAt 2, .snapshot 0, .reserve 4, .copy, appendAt 3, .copy, .advanceTail,
    appendAt 4, .write sensorA 0 .ok]

theorem calm_pass_faithful :
    ∃ c, (start smallValid.shape (.zero ℚ) .empty).run calmPass = some c ∧ c.Faithful := by
  have seen : ((start smallValid.shape (.zero ℚ) .empty).run calmPass).map
      (fun c => c.handed.map fun p => p.overtaken) = some [false] := by
    decide +kernel
  obtain ⟨c, reached, handed⟩ := Option.map_eq_some_iff.mp seen
  refine ⟨c, reached, (blocks_faithful reached).1 ?_⟩
  intro p hp
  have flag : p.overtaken ∈ c.handed.map fun p => p.overtaken := List.mem_map_of_mem hp
  rw [handed] at flag
  exact List.mem_singleton.mp flag

/-- The ring of 64 is full when the pass takes its snapshot, and the producer
appends once more before the first row is copied. -/
def lappedPass : List (RaceAction ℚ) :=
  (List.range 64).map (fun i => appendAt (Int64.ofNat i)) ++
    [.snapshot 0, .reserve 4, appendAt 64] ++ List.replicate 64 .copy ++
    [.advanceTail, .write sensorA 0 .ok]

/-- Row 0 of the block is the entry appended last. -/
theorem block_mixes :
    ∃ c, (start smallValid.shape (.zero ℚ) .empty).run lappedPass = some c ∧
      (∀ p ∈ c.handed, p.rc = .ok) ∧ ¬ c.Faithful := by
  have seen : ((start smallValid.shape (.zero ℚ) .empty).run lappedPass).map
      (fun c => c.handed.map fun p => (p.b, p.rc, p.sources.head?)) =
      some [(0, .ok, some 64)] := by
    decide +kernel
  obtain ⟨c, reached, handed⟩ := Option.map_eq_some_iff.mp seen
  obtain ⟨p, only, fields⟩ := List.map_eq_singleton_iff.mp handed
  simp only [Prod.mk.injEq] at fields
  refine ⟨c, reached, ?_, ?_⟩
  · intro q hq
    rw [only] at hq
    rw [List.mem_singleton.mp hq]
    exact fields.2.1
  · intro faithful
    have rows := (faithful.rows p (by rw [only]; exact List.mem_cons_self)).1
    have first := fields.2.2
    rw [rows, fields.1, List.head?_range'] at first
    split at first <;> simp at first

end Race

end ChronosVector
