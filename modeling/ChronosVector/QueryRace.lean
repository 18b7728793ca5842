import ChronosVector.NearestN
import ChronosVector.RaceInvariant
import ChronosVector.Snapshots

/-!
# A query against the producer

`QueryNearestN` takes one snapshot, scores its slots one by one, selects, and only
then reads the timestamps. The producer appends in between.

* `QueryRace`: the ring, where the query stands, and for every score the entry it
  was computed from;
* `query_alone`: without the producer the steps are `Engine.queryNearestNBy`;
* `pairs_match`: a returned pair belongs to one entry as long as no append reused
  its slot between the score and the timestamp, and not otherwise where the
  entries can be told apart.
-/

namespace ChronosVector

open HeapSelect

variable {F : Type}

/-- The arguments of `QueryNearestN`, and the metric of its engine. -/
structure QueryArgs (F : Type) where
  metric : Metric
  target : Nat → F
  dim : Nat
  n : Int

/-- A score in `tls_scores`, with the slot it was computed from, the index of the
entry the slot held then, and whether an append has reused the slot since. -/
structure Scored (F : Type) where
  score : F
  slot : Nat
  source : Nat
  reused : Bool

/-- A pair that was returned, with the indices of the entries that its score and
its timestamp are from. -/
structure Returned (F : Type) where
  args : QueryArgs F
  ts : Int64
  score : F
  scoredFrom : Nat
  readFrom : Nat
  reused : Bool

/-- Where the query stands: in `FillScoresForRange`, or in the loop that writes the
results. The selection in between reads no ring. -/
inductive QueryPoint (F : Type)
  | idle
  | scoring (a : QueryArgs F) (b n : Nat)
  | reading (a : QueryArgs F) (b : Nat) (rest : List (F × Nat))

structure QueryRace (F : Type) where
  ring : SensorRing F
  point : QueryPoint F
  scored : List (Scored F)
  log : List (Entry F)
  returned : List (Returned F)

inductive QueryAction (F : Type)
  | append (a : AppendArgs F)
  | advanceTail (newTail : Nat)
  | snapshot (a : QueryArgs F)
  | score
  | select
  | read

/-- An append writes to the slot of this score. -/
def Scored.write (slot : Nat) (x : Scored F) : Scored F :=
  if x.slot = slot then { x with reused := true } else x

namespace QueryRace

/-- A ring nobody has used. -/
def start (sh : RingShape) (mem : Columns F) : QueryRace F := ⟨.new sh mem, .idle, [], [], []⟩

/-- `Append`. -/
def produce (c : QueryRace F) (a : AppendArgs F) : QueryRace F :=
  { c with
    ring := c.ring.append a.ts a.vec a.norm a.payload a.scale
    scored := c.scored.map (Scored.write (c.ring.slotOf c.ring.head))
    log := c.log ++ [c.ring.stored a.ts a.vec a.norm a.payload a.scale] }

/-- The result that the reading loop writes for one selected pair. -/
def result (c : QueryRace F) (a : QueryArgs F) (b : Nat) (p : F × Nat) (x : Scored F) :
    Returned F where
  args := a
  ts := c.ring.timestampAt (b + p.2)
  score := p.1
  scoredFrom := x.source
  readFrom := c.ring.holder (b + p.2)
  reused := x.reused

/-- `std` has the heap operations of the selection. -/
def step [FloatArith F] (std : HeapOps (F × Nat)) (c : QueryRace F) :
    QueryAction F → Option (QueryRace F)
  | .append a => some (c.produce a)
  | .advanceTail newTail =>
    if c.ring.tail ≤ newTail ∧ newTail ≤ c.ring.head then
      some { c with ring := c.ring.advanceTail newTail }
    else none
  | .snapshot a =>
    match c.point with
    | .idle =>
      let (b, e) := c.ring.snapshot
      if e - b = 0 then some c
      else some { c with point := .scoring a b (e - b), scored := [] }
    | _ => none
  | .score =>
    match c.point with
    | .scoring a b n =>
      match (chunkSlots c.ring b n)[c.scored.length]? with
      | none => none
      | some slot =>
        let i8 := int8Query c.ring.shape a.target a.dim
        let score := slotScore c.ring a.metric a.target (l2NormF32 a.target a.dim) i8.1 i8.2 slot
        some
          { c with
            scored := c.scored ++ [⟨score, slot, c.ring.holder (b + c.scored.length), false⟩] }
    | _ => none
  | .select =>
    match c.point with
    | .scoring a b n =>
      if c.scored.length = n then
        some
          { c with
            point := .reading a b
              (selectTopKBy std a.metric.better (min a.n (wrapInt32 n))
                (c.scored.map Scored.score)) }
      else none
    | _ => none
  | .read =>
    match c.point with
    | .reading _ _ [] => some { c with point := .idle }
    | .reading a b (p :: rest) =>
      match c.scored[p.2]? with
      | none => none
      | some x =>
        some { c with point := .reading a b rest, returned := c.returned ++ [c.result a b p x] }
    | _ => none

abbrev run [FloatArith F] (std : HeapOps (F × Nat)) (c : QueryRace F)
    (acts : List (QueryAction F)) : Option (QueryRace F) :=
  Runs.run (step std) c acts

/-- A selection finds scores on which the library's operations are `Specified`. -/
def Selects [FloatArith F] (Specified : (F × Nat → F × Nat → Bool) → List (F × Nat) → Prop)
    (c : QueryRace F) (act : QueryAction F) : Prop :=
  match act, c.point with
  | .select, .scoring a _ _ =>
    Specified (fun p q => a.metric.better p.1 q.1) (c.scored.map Scored.score).zipIdx
  | _, _ => True

/-! ## The invariant -/

variable {r : SensorRing F} {log : List (Entry F)}

/-- An entry of the last lap in the slot of an index is its holder. -/
theorem holder_unique {idx j : Nat} (hidx : idx < r.head) (hj : j < r.head)
    (near : r.head ≤ j + r.shape.capacity) (slot : r.slotOf j = r.slotOf idx) :
    r.holder idx = j := by
  obtain ⟨near', slot'⟩ := Race.holder_near hidx
  have last := Race.holder_lt hidx
  obtain lt | eq | gt := Nat.lt_trichotomy (r.holder idx) j
  · exact absurd (slot'.trans slot.symm) (SensorRing.slotOf_ne lt (by omega))
  · exact eq
  · exact absurd (slot.trans slot'.symm) (SensorRing.slotOf_ne gt (by omega))

/-- After an append a slot is the new entry's or has the holder it had. -/
theorem holder_append (args : AppendArgs F) {idx : Nat} (hidx : idx < r.head) :
    (r.append args.ts args.vec args.norm args.payload args.scale).holder idx =
      if r.slotOf idx = r.slotOf r.head then r.head else r.holder idx := by
  have pos := r.shape.capacity_pos
  have head : (r.append args.ts args.vec args.norm args.payload args.scale).head = r.head + 1 := rfl
  split
  · rename_i reused
    apply holder_unique
    · omega
    · omega
    · rw [head, SensorRing.append_shape]
      omega
    · exact reused.symm
  · rename_i other
    obtain ⟨near, slot⟩ := Race.holder_near hidx
    have last := Race.holder_lt hidx
    apply holder_unique
    · omega
    · omega
    · rw [head, SensorRing.append_shape]
      obtain lt | eq := Nat.lt_or_eq_of_le near
      · exact lt
      · -- the slot of the new entry is the one a lap behind it
        have lap : r.slotOf r.head = r.slotOf (r.holder idx) := by
          rw [eq, SensorRing.slotOf_eq_mod, SensorRing.slotOf_eq_mod, Nat.add_mod_right]
        exact absurd (slot.symm.trans lap.symm) other
    · exact slot

/-- A score was computed from its source, which its slot holds as long as no append
has reused the slot. -/
structure ScoredInv [FloatArith F] (r : SensorRing F) (log : List (Entry F)) (a : QueryArgs F)
    (idx : Nat) (x : Scored F) : Prop where
  score : (log[x.source]?).map (entryScore r.shape a.metric a.target a.dim) = some x.score
  slot : x.slot = r.slotOf idx
  source : x.source < r.head
  held : x.source = r.holder idx ↔ x.reused = false

theorem ScoredInv.append [FloatArith F] {a : QueryArgs F} {idx : Nat} {x : Scored F}
    (h : ScoredInv r log a idx x) (hidx : idx < r.head) (logged : log.length = r.head)
    (args : AppendArgs F) (y : Entry F) :
    ScoredInv (r.append args.ts args.vec args.norm args.payload args.scale) (log ++ [y]) a idx
      (x.write (r.slotOf r.head)) := by
  have holder := holder_append args hidx
  have last := h.source
  have grows : (log ++ [y])[x.source]? = log[x.source]? :=
    List.getElem?_append_left (by omega)
  unfold Scored.write
  split
  · rename_i here
    rw [h.slot] at here
    rw [if_pos here] at holder
    refine ⟨?_, h.slot, Nat.lt_succ_of_lt last, ?_⟩
    · rw [grows]
      exact h.score
    · rw [holder]
      constructor
      · intro same
        dsimp only at same
        omega
      · intro clear
        cases clear
  · rename_i elsewhere
    rw [h.slot] at elsewhere
    rw [if_neg elsewhere] at holder
    refine ⟨?_, h.slot, Nat.lt_succ_of_lt last, ?_⟩
    · rw [grows]
      exact h.score
    · rw [holder]
      exact h.held

section
variable [FloatArith F]

/-- The scores so far, of the window from `b` on. -/
def AllScored (r : SensorRing F) (log : List (Entry F)) (a : QueryArgs F) (b : Nat)
    (scored : List (Scored F)) : Prop :=
  b + scored.length ≤ r.head ∧ ∀ i x, scored[i]? = some x → ScoredInv r log a (b + i) x

/-- What the query has done so far. -/
def PointInv (c : QueryRace F) : Prop :=
  match c.point with
  | .idle => True
  | .scoring a b n =>
    AllScored c.ring c.log a b c.scored ∧ b + n ≤ c.ring.head ∧ n ≤ c.ring.shape.capacity
  | .reading a b rest =>
    AllScored c.ring c.log a b c.scored ∧
      ∀ p ∈ rest, ∃ x, c.scored[p.2]? = some x ∧ x.score = p.1

/-- A pair that was returned: its score and its timestamp are from logged entries,
the same one exactly when the slot was not reused in between. -/
structure ReturnedInv (sh : RingShape) (log : List (Entry F)) (p : Returned F) : Prop where
  score : (log[p.scoredFrom]?).map (entryScore sh p.args.metric p.args.target p.args.dim) =
    some p.score
  ts : (log[p.readFrom]?).map (fun x => x.ts) = some p.ts
  reused : p.scoredFrom = p.readFrom ↔ p.reused = false

structure Inv (sh : RingShape) (c : QueryRace F) : Prop where
  shape : c.ring.shape = sh
  ring : ∃ lost, Race.RingInv c.ring c.log lost
  point : c.PointInv
  returned : ∀ p ∈ c.returned, ReturnedInv sh c.log p

theorem start_inv (sh : RingShape) (mem : Columns F) : (start sh mem).Inv sh where
  shape := rfl
  ring := ⟨[], (Race.start_inv sh mem .empty).ring⟩
  point := trivial
  returned := by
    intro p hp
    cases hp

variable {sh : RingShape} {c c' : QueryRace F} {a : QueryArgs F} {b : Nat} {scored : List (Scored F)}

theorem AllScored.append (h : AllScored r log a b scored) (logged : log.length = r.head)
    (args : AppendArgs F) (y : Entry F) :
    AllScored (r.append args.ts args.vec args.norm args.payload args.scale) (log ++ [y]) a b
      (scored.map (Scored.write (r.slotOf r.head))) := by
  obtain ⟨inside, each⟩ := h
  constructor
  · rw [List.length_map]
    exact Nat.le_succ_of_le inside
  · intro i x hx
    rw [List.getElem?_map] at hx
    obtain ⟨x, found, rfl⟩ := Option.map_eq_some_iff.mp hx
    have lt := (List.getElem?_eq_some_iff.mp found).1
    exact (each i x found).append (by omega) logged args y

theorem AllScored.advanceTail (h : AllScored r log a b scored) (t : Nat) :
    AllScored (r.advanceTail t) log a b scored := by
  refine ⟨h.1, ?_⟩
  intro i x hx
  have inv := h.2 i x hx
  exact ⟨inv.score, inv.slot, inv.source, inv.held⟩

theorem ReturnedInv.append {p : Returned F} (h : ReturnedInv sh log p) (y : Entry F) :
    ReturnedInv sh (log ++ [y]) p := by
  obtain ⟨score, ts, reused⟩ := h
  refine ⟨?_, ?_, reused⟩
  · obtain ⟨x, found, -⟩ := Option.map_eq_some_iff.mp score
    rwa [List.getElem?_append_left (List.getElem?_eq_some_iff.mp found).1]
  · obtain ⟨x, found, -⟩ := Option.map_eq_some_iff.mp ts
    rwa [List.getElem?_append_left (List.getElem?_eq_some_iff.mp found).1]

theorem Inv.produce (inv : c.Inv sh) (args : AppendArgs F) : (c.produce args).Inv sh := by
  obtain ⟨lost, ring⟩ := inv.ring
  have point := inv.point
  refine ⟨inv.shape, ⟨Race.lostBy c.ring lost, ring.append⟩, ?_, ?_⟩
  · simp only [PointInv, QueryRace.produce] at point ⊢
    cases at_ : c.point with
    | idle => trivial
    | scoring a b n =>
      simp only [at_] at point
      exact ⟨point.1.append ring.logged args _, Nat.le_succ_of_le point.2.1, point.2.2⟩
    | reading a b rest =>
      simp only [at_] at point
      refine ⟨point.1.append ring.logged args _, ?_⟩
      intro p hp
      obtain ⟨x, found, score⟩ := point.2 p hp
      refine ⟨x.write (c.ring.slotOf c.ring.head), ?_, ?_⟩
      · rw [List.getElem?_map, found]
        rfl
      · rw [← score]
        unfold Scored.write
        split <;> rfl
  · intro p hp
    exact (inv.returned p hp).append _

/-- The score of the next entry, from what its slot holds now. -/
theorem AllScored.score {lost : List Nat} {n slot : Nat} (h : AllScored r log a b scored)
    (ring : Race.RingInv r log lost) (inside : b + n ≤ r.head) (short : n ≤ r.shape.capacity)
    (next : (chunkSlots r b n)[scored.length]? = some slot) :
    AllScored r log a b (scored ++
      [⟨slotScore r a.metric a.target (l2NormF32 a.target a.dim) (int8Query r.shape a.target a.dim).1
          (int8Query r.shape a.target a.dim).2 slot, slot, r.holder (b + scored.length), false⟩]) := by
  rw [chunkSlots_eq short, List.getElem?_map] at next
  obtain ⟨idx, at_, rfl⟩ := Option.map_eq_some_iff.mp next
  obtain ⟨lt, rfl⟩ := List.getElem?_eq_some_iff.mp at_
  rw [List.length_range'] at lt
  simp only [List.getElem_range', Nat.one_mul]
  have hidx : b + scored.length < r.head := by omega
  constructor
  · rw [List.length_append, List.length_singleton]
    omega
  · intro i x hx
    obtain old | new := Nat.lt_or_ge i scored.length
    · rw [List.getElem?_append_left old] at hx
      exact h.2 i x hx
    · have here : i = scored.length := by
        have inside := (List.getElem?_eq_some_iff.mp hx).1
        rw [List.length_append, List.length_singleton] at inside
        omega
      subst here
      rw [List.getElem?_concat_length, Option.some.injEq] at hx
      subst hx
      refine ⟨?_, rfl, Race.holder_lt hidx, iff_of_true rfl rfl⟩
      rw [ring.held_entry hidx, slotScore_entry]
      rfl

theorem result_inv {lost : List Nat} {p : F × Nat} {x : Scored F}
    (ring : Race.RingInv c.ring c.log lost) (scored : AllScored c.ring c.log a b c.scored)
    (found : c.scored[p.2]? = some x) (score : x.score = p.1) :
    ReturnedInv c.ring.shape c.log (c.result a b p x) := by
  have inv := scored.2 p.2 x found
  have inside := (List.getElem?_eq_some_iff.mp found).1
  have hidx : b + p.2 < c.ring.head := by
    have := scored.1
    omega
  refine ⟨?_, ?_, inv.held⟩
  · simp only [result, inv.score, score]
  · simp only [result, ring.held_entry hidx]
    rfl

theorem Inv.advanceTail (inv : c.Inv sh) {t : Nat} (high : t ≤ c.ring.head) :
    Inv sh { c with ring := c.ring.advanceTail t } := by
  obtain ⟨lost, ring⟩ := inv.ring
  have point := inv.point
  refine ⟨inv.shape, ⟨lost, ring.advanceTail high⟩, ?_, inv.returned⟩
  simp only [PointInv] at point ⊢
  cases at_ : c.point with
  | idle => trivial
  | scoring a b n =>
    simp only [at_] at point
    exact ⟨point.1.advanceTail t, point.2⟩
  | reading a b rest =>
    simp only [at_] at point
    exact ⟨point.1.advanceTail t, point.2⟩

/-- One more result is written. -/
theorem Inv.read (inv : c.Inv sh) {p : F × Nat} {rest : List (F × Nat)} {x : Scored F}
    (at_ : c.point = .reading a b (p :: rest)) (found : c.scored[p.2]? = some x) :
    Inv sh { c with
      point := .reading a b rest
      returned := c.returned ++ [c.result a b p x] } := by
  obtain ⟨lost, ring⟩ := inv.ring
  have point := inv.point
  simp only [PointInv, at_] at point
  obtain ⟨scored, selected⟩ := point
  obtain ⟨x', found', score⟩ := selected p List.mem_cons_self
  rw [found, Option.some.injEq] at found'
  subst found'
  refine ⟨inv.shape, inv.ring, ⟨scored, fun q hq => selected q (List.mem_cons_of_mem p hq)⟩, ?_⟩
  intro q hq
  obtain hq | hq := List.mem_append.mp hq
  · exact inv.returned q hq
  · rw [List.mem_singleton.mp hq, ← inv.shape]
    exact result_inv ring scored found score

variable {std : HeapOps (F × Nat)}
  {Specified Heap : (F × Nat → F × Nat → Bool) → List (F × Nat) → Prop}

/-- **One step** of the producer, the eviction or the query. -/
theorem step_inv (contract : std.Rearranges Specified Heap) {act : QueryAction F} (inv : c.Inv sh)
    (selects : c.Selects Specified act) (h : c.step std act = some c') : c'.Inv sh := by
  obtain ⟨lost, ring⟩ := inv.ring
  have point := inv.point
  cases act with
  | append args =>
    cases h
    exact inv.produce args
  | advanceTail t =>
    simp only [step] at h
    split at h <;> cases h
    rename_i range
    exact inv.advanceTail range.2
  | snapshot a =>
    simp only [step] at h
    split at h
    · have ordered := SensorRing.snapshot_le ring.ok
      split at h <;> cases h
      · exact inv
      · refine ⟨inv.shape, inv.ring, ⟨⟨?_, ?_⟩, ?_, snapshot_short c.ring⟩, inv.returned⟩
        · exact ordered
        · intro i x hx
          cases hx
        · exact Nat.le_of_eq (Nat.add_sub_cancel' ordered)
    · cases h
  | score =>
    simp only [step] at h
    split at h
    · rename_i a b n at_
      simp only [PointInv, at_] at point
      obtain ⟨scored, inside, short⟩ := point
      split at h <;> cases h
      rename_i slot next
      refine ⟨inv.shape, inv.ring, ?_, inv.returned⟩
      simp only [PointInv, at_]
      exact ⟨scored.score ring inside short next, inside, short⟩
    · cases h
  | select =>
    simp only [step] at h
    split at h
    · rename_i a b n at_
      simp only [PointInv, at_] at point
      simp only [Selects, at_] at selects
      split at h <;> cases h
      refine ⟨inv.shape, inv.ring, ⟨point.1, ?_⟩, inv.returned⟩
      intro p hp
      have found := mem_selectTopKBy contract selects hp
      rw [List.getElem?_map] at found
      exact Option.map_eq_some_iff.mp found
    · cases h
  | read =>
    simp only [step] at h
    split at h
    · cases h
      exact ⟨inv.shape, inv.ring, trivial, inv.returned⟩
    · rename_i a b p rest at_
      split at h <;> cases h
      rename_i x found
      exact inv.read at_ found
    · cases h

theorem run_inv (contract : std.Rearranges Specified Heap) {acts : List (QueryAction F)}
    (inv : c.Inv sh) (selects : Runs.Along (step std) (Selects Specified) c acts)
    (h : c.run std acts = some c') : c'.Inv sh :=
  Runs.run_invariant (fun _ _ _ inv selects stepped => step_inv contract inv selects stepped) inv
    selects h

/-! ## Without the producer -/

/-- A step of the querying thread. -/
def ByQuery : QueryAction F → Prop
  | .append _ => False
  | .advanceTail _ => False
  | _ => True

/-- Score `i` of the window from `b` on. -/
def scoredAt (r : SensorRing F) (a : QueryArgs F) (b n i : Nat) : Scored F where
  score := slotScore r a.metric a.target (l2NormF32 a.target a.dim) (int8Query r.shape a.target a.dim).1
    (int8Query r.shape a.target a.dim).2 ((chunkSlots r b n).getD i 0)
  slot := (chunkSlots r b n).getD i 0
  source := r.holder (b + i)
  reused := false

theorem run_scoring {n k : Nat} (at_ : c.point = .scoring a b n) (first : c.scored = [])
    (hk : k ≤ (chunkSlots c.ring b n).length) :
    c.run std (List.replicate k .score) =
      some { c with scored := (List.range k).map (scoredAt c.ring a b n) } := by
  induction k with
  | zero =>
    rw [List.range_zero, List.map_nil, ← first]
    rfl
  | succ k ih =>
    have slot : (chunkSlots c.ring b n)[k]? = some ((chunkSlots c.ring b n).getD k 0) := by
      rw [List.getD_eq_getElem?_getD, List.getElem?_eq_getElem hk, Option.getD_some]
    rw [List.replicate_succ']
    apply Runs.run_append.mpr
    refine ⟨_, ih (Nat.le_of_succ_le hk), ?_⟩
    simp only [Runs.run, step, at_, List.length_map, List.length_range, slot, List.range_succ,
      List.map_append, List.map_cons, List.map_nil]
    rfl

/-- Together they are what `FillScoresForRange` writes. -/
theorem scored_scores {n : Nat} (length : (chunkSlots r b n).length = n) :
    ((List.range n).map (scoredAt r a b n)).map Scored.score =
      fillScoresForRange r b n a.metric a.target (l2NormF32 a.target a.dim)
        (int8Query r.shape a.target a.dim).1 (int8Query r.shape a.target a.dim).2 := by
  apply List.ext_getElem
  · simp [fillScoresForRange, length]
  · intro i hi _
    have inside : i < (chunkSlots r b n).length := by simpa [length] using hi
    simp [fillScoresForRange, scoredAt, inside]

theorem run_reading {rest : List (F × Nat)} (at_ : c.point = .reading a b rest)
    (found : ∀ p ∈ rest, ∃ x, c.scored[p.2]? = some x) :
    ∃ more, c.run std (List.replicate (rest.length + 1) .read) =
        some { c with point := .idle, returned := c.returned ++ more } ∧
      more.map (fun p => (p.ts, p.score)) =
        rest.map fun p => (c.ring.timestampAt (b + p.2), p.1) := by
  induction rest generalizing c with
  | nil =>
    refine ⟨[], ?_, rfl⟩
    simp [Runs.run, step, at_]
  | cons p rest ih =>
    obtain ⟨x, here⟩ := found p List.mem_cons_self
    let next : QueryRace F :=
      { c with point := .reading a b rest, returned := c.returned ++ [c.result a b p x] }
    have stepped : c.step std .read = some next := by simp only [step, at_, here, next]
    obtain ⟨more, reached, pairs⟩ :=
      ih (c := next) rfl fun q hq => found q (List.mem_cons_of_mem p hq)
    refine ⟨c.result a b p x :: more, ?_, ?_⟩
    · rw [List.length_cons, List.replicate_succ]
      apply Runs.run_cons.mpr
      refine ⟨next, stepped, ?_⟩
      simpa only [next, List.append_assoc, List.singleton_append] using reached
    · rw [List.map_cons, List.map_cons, pairs]
      rfl

/-- **The query alone.** Its steps with nobody in between return what
`queryNearestNBy` returns. -/
theorem query_alone (contract : std.Rearranges Specified Heap) {e : Engine F} {s : SensorId}
    {q : Nat → F} {dim : Nat} {n : Int} (opened : e.closed = false) (fits : dim = e.cfg.dim.toNat)
    (pos : 0 < n) (found : e.ring s = some c.ring)
    (some_ : c.ring.snapshot.2 - c.ring.snapshot.1 ≠ 0) (idle : c.point = .idle)
    (specified : Specified (fun p q => e.cfg.metric.better p.1 q.1)
      (fillScoresForRange c.ring c.ring.snapshot.1 (c.ring.snapshot.2 - c.ring.snapshot.1)
        e.cfg.metric q (l2NormF32 q dim) (int8Query c.ring.shape q dim).1
        (int8Query c.ring.shape q dim).2).zipIdx) :
    ∃ acts more, (∀ act ∈ acts, ByQuery act) ∧
      (c.run std acts).map (fun c' => (c'.ring, c'.log, c'.returned)) =
        some (c.ring, c.log, c.returned ++ more) ∧
      (e.queryNearestNBy std s (some q) dim n true).2.1 =
        some (more.map fun p => (p.ts, p.score)) := by
  let a : QueryArgs F := ⟨e.cfg.metric, q, dim, n⟩
  let b := c.ring.snapshot.1
  let size := c.ring.snapshot.2 - c.ring.snapshot.1
  have length : (chunkSlots c.ring b size).length = size := by
    rw [chunkSlots_eq (snapshot_short c.ring), List.length_map, List.length_range']
  let begun : QueryRace F := { c with point := .scoring a b size, scored := [] }
  have taken : c.step std (.snapshot a) = some begun := by
    simp only [step, idle]
    rw [if_neg some_]
  let full : QueryRace F :=
    { begun with scored := (List.range size).map (scoredAt c.ring a b size) }
  have scored : begun.run std (List.replicate size .score) = some full :=
    run_scoring (c := begun) rfl rfl (Nat.le_of_eq length.symm)
  have scores := scored_scores (r := c.ring) (a := a) length
  let rows := selectTopKBy std a.metric.better (min n (wrapInt32 size))
    (full.scored.map Scored.score)
  let selected : QueryRace F := { full with point := .reading a b rows }
  have chosen : full.step std .select = some selected := by
    simp only [step, full, begun, List.length_map, List.length_range, if_true]
    rfl
  have known : ∀ p ∈ rows, ∃ x, selected.scored[p.2]? = some x := by
    intro p hp
    rw [← scores] at specified
    have found := mem_selectTopKBy contract specified hp
    rw [List.getElem?_map] at found
    obtain ⟨x, found, -⟩ := Option.map_eq_some_iff.mp found
    exact ⟨x, found⟩
  obtain ⟨more, reached, pairs⟩ := run_reading (c := selected) rfl known
  refine ⟨.snapshot a :: (List.replicate size .score ++
    .select :: List.replicate (rows.length + 1) .read), more, ?_, ?_, ?_⟩
  · intro act hact
    simp only [List.mem_cons, List.mem_append, List.mem_replicate] at hact
    obtain rfl | ⟨-, rfl⟩ | rfl | ⟨-, rfl⟩ := hact <;> trivial
  · rw [Option.map_eq_some_iff]
    refine ⟨_, Runs.run_cons.mpr ⟨begun, taken, Runs.run_append.mpr ⟨full, scored,
      Runs.run_cons.mpr ⟨selected, chosen, reached⟩⟩⟩, rfl⟩
  · obtain ⟨⟨_, next⟩, lookup, ring⟩ := Option.bind_eq_some_iff.mp found
    have valid : ¬ (n ≤ 0 ∨ true = false) := by
      simpa using pos
    dsimp only at ring
    subst ring
    rw [pairs]
    simp only [Engine.queryNearestNBy, opened, Bool.false_eq_true, if_false, ← fits, ne_eq,
      not_true_eq_false, lookup]
    rw [if_neg valid, if_neg some_]
    simp only [rows, full, scores]
    rfl

/-! ## Returned pairs -/

variable {p : Returned F}

/-- The pair is the timestamp and the score of one appended entry. -/
def Matches (p : Returned F) (sh : RingShape) (log : List (Entry F)) : Prop :=
  ∃ x ∈ log, p.ts = x.ts ∧ p.score = entryScore sh p.args.metric p.args.target p.args.dim x

instance [DecidableEq F] (p : Returned F) (sh : RingShape) (log : List (Entry F)) :
    Decidable (Matches p sh log) :=
  inferInstanceAs (Decidable (∃ x ∈ log, p.ts = x.ts ∧
    p.score = entryScore sh p.args.metric p.args.target p.args.dim x))

/-- No two entries have the same timestamp, or the same score. -/
def ToldApart (p : Returned F) (sh : RingShape) (log : List (Entry F)) : Prop :=
  ∀ (i j : Nat) (x y : Entry F), log[i]? = some x → log[j]? = some y →
    x.ts = y.ts ∨ entryScore sh p.args.metric p.args.target p.args.dim x =
      entryScore sh p.args.metric p.args.target p.args.dim y → i = j

/-- **Scores and timestamps match** as long as no append reuses the slot of a
returned entry between its score and its timestamp; and where the entries can be
told apart, only then. -/
theorem pairs_match (contract : std.Rearranges Specified Heap) {mem : Columns F}
    {acts : List (QueryAction F)}
    (selects : Runs.Along (step std) (Selects Specified) (start sh mem) acts)
    (h : (start sh mem).run std acts = some c) (hp : p ∈ c.returned) :
    (p.reused = false → Matches p sh c.log) ∧
      (ToldApart p sh c.log → Matches p sh c.log → p.reused = false) := by
  obtain ⟨score, ts, reused⟩ := (run_inv contract (start_inv sh mem) selects h).returned p hp
  obtain ⟨x, scored, hx⟩ := Option.map_eq_some_iff.mp score
  obtain ⟨y, read, hy⟩ := Option.map_eq_some_iff.mp ts
  constructor
  · intro calm
    rw [reused.mpr calm, read, Option.some.injEq] at scored
    subst scored
    exact ⟨y, List.mem_of_getElem? read, hy.symm, hx.symm⟩
  · rintro apart ⟨z, hz, sameTs, sameScore⟩
    obtain ⟨k, at_⟩ := List.getElem?_of_mem hz
    apply reused.mp
    have from_ := apart _ k x z scored at_ (.inr (hx.trans sameScore))
    have when_ := apart _ k y z read at_ (.inl (hy.trans sameTs))
    exact from_.trans when_.symm

end

/-! ## A full ring -/

/-- Append a row of one component to a ring of `smallConfig`. -/
def appendRow (ts : Int64) (x : ℚ) : QueryAction ℚ :=
  .append ⟨ts, fun _ => .f32 x, x, none, 0⟩

/-- The row nearest to 0. -/
def nearestZero : QueryArgs ℚ := ⟨.euclidean, fun _ => 0, 1, 1⟩

/-- The producer appends while the query scores and reads, with room left. -/
def calmQuery : List (QueryAction ℚ) :=
  [appendRow 1 5, appendRow 2 3, .snapshot nearestZero, .score, appendRow 3 0, .score, .select,
    appendRow 4 0, .read, .read]

theorem calm_query_matches :
    ∃ c, (start smallValid.shape (.zero ℚ)).run .ordered calmQuery = some c ∧
      c.returned.map (fun p => (p.ts, p.score)) = [(2, 9)] ∧
      ∀ p ∈ c.returned, Matches p smallValid.shape c.log := by
  have seen : ((start smallValid.shape (.zero ℚ)).run .ordered calmQuery).map
      (fun c => c.returned.map fun p => ((p.ts, p.score), p.reused)) =
        some [((2, 9), false)] := by
    decide +kernel
  obtain ⟨c, reached, returned⟩ := Option.map_eq_some_iff.mp seen
  obtain ⟨p, only, fields⟩ := List.map_eq_singleton_iff.mp returned
  obtain ⟨pair, calm⟩ := Prod.mk.inj fields
  have any : ∀ (c : QueryRace ℚ) act, c.Selects (fun _ _ => True) act := by
    intro c act
    unfold Selects
    split <;> trivial
  refine ⟨c, reached, ?_, ?_⟩
  · rw [only, List.map_singleton, pair]
  · intro p' hp
    apply (pairs_match HeapOps.ordered_rearranges (Runs.along_always any _ _) reached hp).1
    rw [only] at hp
    rw [List.mem_singleton.mp hp, calm]

/-- The ring of 64 is full, its oldest row the nearest. The producer appends once
between the selection and the read. -/
def lappedQuery : List (QueryAction ℚ) :=
  appendRow 0 0 :: (List.range' 1 63).map (fun i => appendRow (.ofNat i) 1) ++
    .snapshot nearestZero :: List.replicate 64 .score ++
    [.select, appendRow 64 1, .read]

/-- The timestamp is the new row's and the score that of the row it replaced. -/
theorem query_mixes :
    ∃ c, (start smallValid.shape (.zero ℚ)).run .ordered lappedQuery = some c ∧
      ∃ p ∈ c.returned, ¬ Matches p smallValid.shape c.log := by
  have seen : ((start smallValid.shape (.zero ℚ)).run .ordered lappedQuery).map
      (fun c => c.returned.map fun p => decide (Matches p smallValid.shape c.log)) =
        some [false] := by
    decide +kernel
  obtain ⟨c, reached, returned⟩ := Option.map_eq_some_iff.mp seen
  obtain ⟨p, only, mixed⟩ := List.map_eq_singleton_iff.mp returned
  refine ⟨c, reached, p, ?_, of_decide_eq_false mixed⟩
  rw [only]
  exact List.mem_cons_self

end QueryRace

end ChronosVector
