import ChronosVector.Exact
import ChronosVector.Lib.HeapSelect

/-!
# The n best entries of a window

`QueryNearestN` over any standard library whose heap and sort operations meet
their contracts. The window is the ring's, wherever it wraps.

* `queryNearestNBy`: the query with the library as a parameter;
* `queryNearestNBy_ordered`: with heaps kept sorted it is `queryNearestN`;
* `fillScores_window`: the two chunks are the window, and every entry's score is
  in its place;
* `query_exact`: the best entries, best first, and a warning when they are few.
-/

namespace ChronosVector

open HeapSelect

variable {F : Type} [FloatArith F]

/-! ## The selection over a library -/

/-- `topkStep` with the heap operations of `std`. -/
def topkStepBy (std : HeapOps (F × Nat)) (better : F → F → Bool) (take : Int)
    (heap : List (F × Nat)) (p : F × Nat) : List (F × Nat) :=
  let heapCmp := fun a b : F × Nat => better a.1 b.1
  if (heap.length : Int) < take then std.pushHeap heapCmp (heap ++ [p])
  else
    match heap with
    | [] => []
    | worst :: _ =>
      if better p.1 worst.1 then
        std.pushHeap heapCmp ((std.popHeap heapCmp heap).dropLast ++ [p])
      else heap

def selectTopKBy (std : HeapOps (F × Nat)) (better : F → F → Bool) (take : Int)
    (scores : List F) : List (F × Nat) :=
  std.sort (fun a b => better a.1 b.1) (scores.zipIdx.foldl (topkStepBy std better take) [])

/-- `QueryNearestN`, compiled with the library `std`. -/
def Engine.queryNearestNBy (std : HeapOps (F × Nat)) (e : Engine F) (s : SensorId)
    (target : Option (Nat → F)) (dim : Nat) (n : Int) (outs : Bool) :
    ErrorCode × Option (List (Int64 × F)) × Engine F :=
  if e.closed then (.closed, none, e)
  else if dim ≠ e.cfg.dim.toNat then (.dimMismatch, none, e)
  else
    match target with
    | none => (.invalidArg, none, e)
    | some q =>
      if n ≤ 0 ∨ outs = false then (.invalidArg, none, e)
      else
        match e.sensors.lookup s with
        | none => (.notFound, some [], e)
        | some ⟨none, _⟩ => (.warnPartialResult, some [], e)
        | some ⟨some r, _⟩ =>
          let (b, end_) := r.snapshot
          let size := end_ - b
          if size = 0 then (.warnPartialResult, some [], e)
          else
            let qn := l2NormF32 q dim
            let (qi8, qScale) :=
              if r.shape.dtype = .int8 then quantizeF32ToI8 q dim else (fun _ => 0, 0)
            let scores := fillScoresForRange r b size e.cfg.metric q qn qi8 qScale
            let take := min n (wrapInt32 size)
            let rows := (selectTopKBy std e.cfg.metric.better take scores).map fun p =>
              (r.timestampAt (b + p.2), p.1)
            (if take < n then .warnPartialResult else .ok, some rows, e.countQuery)

section
omit [FloatArith F]

theorem heapPush_eq (better : F → F → Bool) (p : F × Nat) (heap : List (F × Nat)) :
    heapPush better p heap =
      heap.orderedInsert (fun a b => better b.1 a.1 = true) p := by
  induction heap with
  | nil => rfl
  | cons a rest ih =>
    rw [heapPush, ih, List.orderedInsert_cons]

theorem topkStepBy_ordered (better : F → F → Bool) (take : Int) (heap : List (F × Nat))
    (p : F × Nat) : topkStepBy .ordered better take heap p = topkStep better take heap p := by
  unfold topkStepBy topkStep
  simp only [HeapOps.ordered_push, ← heapPush_eq]
  cases heap with
  | nil => rfl
  | cons worst rest => simp only [HeapOps.ordered, List.dropLast_concat, heapPush_eq]

theorem selectTopKBy_ordered (better : F → F → Bool) (take : Int) (scores : List F) :
    selectTopKBy .ordered better take scores = selectTopK better take scores := by
  unfold selectTopKBy selectTopK
  simp only [funext fun heap => funext fun p => topkStepBy_ordered better take heap p]
  rfl

/-- The loop of the source is the bounded heap of the library. -/
theorem topkStepBy_eq (std : HeapOps (F × Nat)) (better : F → F → Bool) (take : Int) :
    topkStepBy std better take = step std (fun a b => better a.1 b.1) take.toNat := by
  funext heap p
  have room : ((heap.length : Int) < take) = (heap.length < take.toNat) := by
    rw [eq_iff_iff]
    omega
  simp only [topkStepBy, step, room]
  cases heap <;> rfl

theorem selectTopKBy_eq (std : HeapOps (F × Nat)) (better : F → F → Bool) (take : Int)
    (scores : List F) :
    selectTopKBy std better take scores =
      select std (fun a b => better a.1 b.1) take.toNat scores.zipIdx := by
  rw [selectTopKBy, topkStepBy_eq, select]

/-- A selected pair is a score with its index. -/
theorem mem_selectTopKBy {std : HeapOps (F × Nat)}
    {Specified Heap : (F × Nat → F × Nat → Bool) → List (F × Nat) → Prop}
    (contract : std.Rearranges Specified Heap) {better : F → F → Bool} {take : Int}
    {scores : List F} (specified : Specified (fun a b => better a.1 b.1) scores.zipIdx)
    {p : F × Nat} (hp : p ∈ selectTopKBy std better take scores) : scores[p.2]? = some p.1 := by
  rw [selectTopKBy_eq] at hp
  exact List.mem_zipIdx_iff_getElem?.mp (select_among contract specified hp)

theorem mem_selectTopK {better : F → F → Bool} {take : Int} {scores : List F} {p : F × Nat}
    (hp : p ∈ selectTopK better take scores) : scores[p.2]? = some p.1 := by
  rw [← selectTopKBy_ordered] at hp
  exact mem_selectTopKBy HeapOps.ordered_rearranges trivial hp

end

/-- With sorted heaps the query is `queryNearestN`. -/
theorem Engine.queryNearestNBy_ordered (e : Engine F) (s : SensorId) (target : Option (Nat → F))
    (dim : Nat) (n : Int) (outs : Bool) :
    e.queryNearestNBy .ordered s target dim n outs = e.queryNearestN s target dim n outs := by
  simp only [queryNearestNBy, selectTopKBy_ordered]
  rfl

/-! ## The score of an entry -/

theorem dot_congr {v v' w : Nat → F} {dim : Nat} (h : ∀ j < dim, v j = v' j) :
    dot v w dim = dot v' w dim := by
  apply List.foldl_ext
  intro acc j hj
  rw [h j (List.mem_range.mp hj)]

omit [FloatArith F] in
theorem dotI8_congr {v v' w : Nat → Int8} {dim : Nat} (h : ∀ j < dim, v j = v' j) :
    dotI8 v w dim = dotI8 v' w dim := by
  apply List.foldl_ext
  intro acc j hj
  rw [h j (List.mem_range.mp hj)]

/-- What the kernel of the dtype and the metric makes of one entry. -/
def entryScore (sh : RingShape) (metric : Metric) (q : Nat → F) (dim : Nat) (x : Entry F) : F :=
  let qn := l2NormF32 q dim
  let i8 := quantizeF32ToI8 q dim
  let scale := x.scale.getD 0
  match sh.dtype, metric with
  | .float32, .cosine => cosineF32 (fun j => (x.vec.getD j default).float) x.norm sh.dim q qn
  | .float32, .euclidean =>
    euclideanSqF32 (fun j => (x.vec.getD j default).float) x.norm sh.dim q qn
  | .int8, .cosine =>
    cosineI8 (fun j => (x.vec.getD j default).int8) scale x.norm sh.dim i8.1 i8.2 qn
  | .int8, .euclidean =>
    euclideanSqI8 (fun j => (x.vec.getD j default).int8) scale x.norm sh.dim i8.1 i8.2 qn

theorem SensorRing.entryAt_vec (r : SensorRing F) (idx j : Nat) (hj : j < r.shape.dim) :
    (r.entryAt idx).vec.getD j default = r.vectors (r.slotOf idx * r.shape.dim + j) := by
  rw [entryAt, Cells.load_getD _ _ hj, vectorAt, Nat.zero_add]

/-- The query as the INT8 kernels take it. -/
def int8Query (sh : RingShape) (q : Nat → F) (dim : Nat) : (Nat → Int8) × F :=
  if sh.dtype = .int8 then quantizeF32ToI8 q dim else (fun _ => 0, 0)

theorem slotScore_entry (r : SensorRing F) (metric : Metric) (q : Nat → F) (dim idx : Nat) :
    slotScore r metric q (l2NormF32 q dim) (int8Query r.shape q dim).1
        (int8Query r.shape q dim).2 (r.slotOf idx) =
      entryScore r.shape metric q dim (r.entryAt idx) := by
  have cell := r.entryAt_vec idx
  have floats : dot (fun j => (r.vectors (r.slotOf idx * r.shape.dim + j)).float) q r.shape.dim =
      dot (fun j => ((r.entryAt idx).vec.getD j default).float) q r.shape.dim := by
    apply dot_congr
    intro j hj
    rw [cell j hj]
  have bytes : ∀ qi8, dotI8 (fun j => (r.vectors (r.slotOf idx * r.shape.dim + j)).int8) qi8
      r.shape.dim = dotI8 (fun j => ((r.entryAt idx).vec.getD j default).int8) qi8 r.shape.dim := by
    intro qi8
    apply dotI8_congr
    intro j hj
    rw [cell j hj]
  have norm : (r.entryAt idx).norm = r.norms (r.slotOf idx) := rfl
  unfold slotScore entryScore
  rw [norm]
  cases dtype : r.shape.dtype with
  | float32 =>
    cases metric with
    | cosine => simp only [cosineF32, floats]
    | euclidean => simp only [euclideanSqF32, floats]
  | int8 =>
    have scale : (r.entryAt idx).scale.getD 0 = r.scales (r.slotOf idx) := by
      simp only [SensorRing.entryAt, SensorRing.scaleAt, dtype, if_true, Option.getD_some]
    have query : int8Query r.shape q dim = quantizeF32ToI8 q dim := if_pos dtype
    cases metric with
    | cosine => simp only [cosineI8, bytes, scale, query]
    | euclidean => simp only [euclideanSqI8, bytes, scale, query]

/-! ## The two chunks -/

section
omit [FloatArith F]
variable {r : SensorRing F} {b n : Nat}

/-- Up to the end of the columns the slots are consecutive. -/
theorem slots_within (inside : r.slotOf b + n ≤ r.shape.capacity) :
    (List.range' b n).map r.slotOf = List.range' (r.slotOf b) n := by
  rw [List.range'_eq_map_range, List.range'_eq_map_range, List.map_map]
  apply List.map_congr_left
  intro i hi
  have lt := List.mem_range.mp hi
  simp only [Function.comp_apply, SensorRing.slotOf_eq_mod] at inside ⊢
  rw [← Nat.mod_add_mod, Nat.mod_eq_of_lt (by omega)]

/-- At the end of the columns the range goes on in the first slot. -/
theorem slot_wraps (r : SensorRing F) (b : Nat) :
    r.slotOf (b + (r.shape.capacity - r.slotOf b)) = 0 := by
  simp only [SensorRing.slotOf_eq_mod]
  have lt := Nat.mod_lt b r.shape.capacity_pos
  have laps := Nat.div_add_mod b r.shape.capacity
  have whole : b + (r.shape.capacity - b % r.shape.capacity) =
      r.shape.capacity * (b / r.shape.capacity + 1) := by
    rw [Nat.mul_succ]
    omega
  rw [whole]
  exact Nat.mul_mod_right _ _

theorem slotOf_lt (r : SensorRing F) (b : Nat) : r.slotOf b < r.shape.capacity := by
  rw [SensorRing.slotOf_eq_mod]
  exact Nat.mod_lt b r.shape.capacity_pos

/-- The slots up to the end of the columns. -/
theorem firstChunk_eq (r : SensorRing F) (b n : Nat) :
    List.range' (r.slotOf b) (min n (r.shape.capacity - r.slotOf b)) =
      (List.range' b (min n (r.shape.capacity - r.slotOf b))).map r.slotOf := by
  have start := slotOf_lt r b
  exact (slots_within (by omega)).symm

/-- The others start where the range wraps. -/
theorem secondChunk_eq (hn : n ≤ r.shape.capacity) :
    List.range (n - min n (r.shape.capacity - r.slotOf b)) =
      (List.range' (b + min n (r.shape.capacity - r.slotOf b))
        (n - min n (r.shape.capacity - r.slotOf b))).map r.slotOf := by
  have start := slotOf_lt r b
  by_cases short : n ≤ r.shape.capacity - r.slotOf b
  · rw [Nat.min_eq_left short, Nat.sub_self]
    rfl
  · rw [Nat.min_eq_right (Nat.le_of_not_le short), slots_within (by rw [slot_wraps]; omega),
      slot_wraps, List.range_eq_range']

/-- The range up to the wrap, and from there on. -/
theorem range_wrap (b n m : Nat) :
    List.range' b n = List.range' b (min n m) ++ List.range' (b + min n m) (n - min n m) := by
  rw [List.range'_append_1, Nat.add_sub_cancel' (Nat.min_le_left n m)]

/-- **The chunks are the range.** No chunk passes the end of the columns, and the
second starts where the range wraps. -/
theorem chunkSlots_eq (hn : n ≤ r.shape.capacity) :
    chunkSlots r b n = (List.range' b n).map r.slotOf := by
  rw [range_wrap b n (r.shape.capacity - r.slotOf b), List.map_append, ← firstChunk_eq,
    ← secondChunk_eq hn]
  rfl

/-- A snapshot with an entry is no longer than the ring. -/
theorem snapshot_short (r : SensorRing F) : r.snapshot.2 - r.snapshot.1 ≤ r.shape.capacity := by
  simp only [SensorRing.snapshot]
  split <;> omega

end

/-- **Every score is in its place.** -/
theorem fillScores_window (r : SensorRing F) (metric : Metric) (q : Nat → F) (dim : Nat) :
    fillScoresForRange r r.snapshot.1 (r.snapshot.2 - r.snapshot.1) metric q (l2NormF32 q dim)
        (int8Query r.shape q dim).1 (int8Query r.shape q dim).2 =
      r.window.map (entryScore r.shape metric q dim) := by
  unfold fillScoresForRange SensorRing.window
  rw [chunkSlots_eq (snapshot_short r), List.map_map, List.map_map]
  apply List.map_congr_left
  intro idx _
  exact slotScore_entry r metric q dim idx

/-! ## The result -/

/-- `best` are `n` of a window's best entries, best first, and `left` the others. -/
structure TopN (better : F → F → Bool) (score : Entry F → F) (n : Nat)
    (window best left : List (Entry F)) : Prop where
  split : (best ++ left).Perm window
  length : best.length = min n window.length
  sorted : best.Pairwise fun a b => better (score b) (score a) = false
  top : ∀ a ∈ best, ∀ b ∈ left, better (score b) (score a) = false

section
omit [FloatArith F]

/-- A score and its place, in the order of the window. -/
theorem zipIdx_scores (score : Nat → F) (b n : Nat) :
    ((List.range' b n).map score).zipIdx = (List.range n).map fun i => (score (b + i), i) := by
  apply List.ext_getElem
  · simp
  · intro i _ _
    simp

theorem wrapInt32_of_lt {n : Nat} (small : n < 2 ^ 31) : wrapInt32 n = n := by
  apply Int.bmod_eq_of_le <;> omega

end

theorem better_weak {metric : Metric} {scores : List F} (weak : StrictWeak FloatArith.lt scores) :
    StrictWeak metric.better scores := by
  cases metric with
  | cosine => exact weak.swap
  | euclidean => exact weak

omit [FloatArith F] in
/-- What is selected of the scores is selected of the window. -/
theorem selectTopKBy_top {std : HeapOps (F × Nat)}
    {Heap : (F × Nat → F × Nat → Bool) → List (F × Nat) → Prop} (contract : std.Standard Heap)
    {better : F → F → Bool} {score : Entry F → F} {r : SensorRing F} {take : Int} (pos : 0 < take)
    (weak : StrictWeak better (r.window.map score)) :
    let rows := selectTopKBy std better take (r.window.map score)
    ∃ best left, TopN better score take.toNat r.window best left ∧
      rows.map (fun p => (r.timestampAt (r.snapshot.1 + p.2), p.1)) =
        best.map fun x => (x.ts, score x) := by
  let entry := fun p : F × Nat => r.entryAt (r.snapshot.1 + p.2)
  have places : (r.window.map score).zipIdx = (List.range r.window.length).map
      fun i => (score (r.entryAt (r.snapshot.1 + i)), i) := by
    rw [SensorRing.window_length, ← zipIdx_scores fun idx => score (r.entryAt idx)]
    simp only [SensorRing.window, List.map_map]
    rfl
  have whole : (r.window.map score).zipIdx.map entry = r.window := by
    rw [places, List.map_map, SensorRing.window_length, SensorRing.window,
      List.range'_eq_map_range, List.map_map]
    rfl
  have own : ∀ p ∈ (r.window.map score).zipIdx, p.1 = score (entry p) := by
    intro p hp
    rw [places] at hp
    obtain ⟨i, -, rfl⟩ := List.mem_map.mp hp
    rfl
  have keys : (r.window.map score).zipIdx.map Prod.fst = r.window.map score :=
    List.zipIdx_map_fst _ _
  obtain ⟨out, split, length, sorted, top⟩ :=
    select_exact contract (k := take.toNat) (by omega) (.on_key Prod.fst (keys.symm ▸ weak))
  intro rows
  rw [← selectTopKBy_eq] at split length sorted top
  have ours : ∀ p ∈ rows, p.1 = score (entry p) :=
    fun p hp => own p (split.mem_iff.mp (List.mem_append_left out hp))
  have others : ∀ p ∈ out, p.1 = score (entry p) :=
    fun p hp => own p (split.mem_iff.mp (List.mem_append_right rows hp))
  refine ⟨rows.map entry, out.map entry, ⟨?_, ?_, ?_, ?_⟩, ?_⟩
  · rw [← List.map_append]
    exact (split.map entry).trans (.of_eq whole)
  · rw [List.length_map, length, List.length_zipIdx, List.length_map]
  · rw [List.pairwise_map]
    apply sorted.imp_of_mem
    intro p p' hp hp' before
    rwa [ours p hp, ours p' hp'] at before
  · intro a ha b hb
    obtain ⟨p, hp, rfl⟩ := List.mem_map.mp ha
    obtain ⟨p', hp', rfl⟩ := List.mem_map.mp hb
    have best := top p hp p' hp'
    rwa [ours p hp, others p' hp'] at best
  · rw [List.map_map]
    apply List.map_congr_left
    intro p hp
    exact Prod.ext rfl (ours p hp)

/-- **The query is exact.** Of a window that is not empty it returns the best `n`
entries, each with its own timestamp and score, best first; and it warns exactly
when they are fewer than `n`. -/
theorem Engine.query_exact {std : HeapOps (F × Nat)}
    {Heap : (F × Nat → F × Nat → Bool) → List (F × Nat) → Prop} (contract : std.Standard Heap)
    {e : Engine F} {s : SensorId} {r : SensorRing F} {q : Nat → F} {dim : Nat} {n : Int}
    (opened : e.closed = false) (fits : dim = e.cfg.dim.toNat) (pos : 0 < n)
    (found : e.ring s = some r) (some_ : 0 < r.window.length) (small : r.window.length < 2 ^ 31)
    (ordered : StrictWeak FloatArith.lt
      (r.window.map (entryScore r.shape e.cfg.metric q dim))) :
    ∃ best left, TopN e.cfg.metric.better (entryScore r.shape e.cfg.metric q dim) n.toNat
        r.window best left ∧
      e.queryNearestNBy std s (some q) dim n true =
        (if (best.length : Int) < n then .warnPartialResult else .ok,
          some (best.map fun x => (x.ts, entryScore r.shape e.cfg.metric q dim x)),
          e.countQuery) := by
  have size : r.snapshot.2 - r.snapshot.1 = r.window.length := SensorRing.window_length.symm
  have take_pos : 0 < min n (wrapInt32 r.window.length) := by
    rw [wrapInt32_of_lt small]
    omega
  obtain ⟨best, left, top, rows⟩ := selectTopKBy_top contract take_pos (better_weak ordered)
  rw [wrapInt32_of_lt small] at top
  have length : best.length = min n.toNat r.window.length := by
    have := top.length
    omega
  have few : min n (wrapInt32 r.window.length) = (best.length : Int) := by
    rw [wrapInt32_of_lt small]
    omega
  refine ⟨best, left, { top with length := length }, ?_⟩
  obtain ⟨⟨_, next⟩, lookup, rfl⟩ := Option.bind_eq_some_iff.mp found
  have scores := fillScores_window r e.cfg.metric q dim
  rw [size] at scores
  rw [← scores] at rows
  have valid : ¬ (n ≤ 0 ∨ true = false) := by
    simpa using pos
  simp only [queryNearestNBy, opened, Bool.false_eq_true, if_false, ← fits, ne_eq, not_true_eq_false,
    lookup, size, ← rows, ← few]
  rw [if_neg valid, if_neg (Nat.ne_of_gt some_)]
  rfl

/-- A ring of 64 whose window is in the slots 63, 0 and 1. Every slot holds its
number, as timestamp and as vector. -/
def wrappedRing : SensorRing ℚ where
  timestamps := fun i => .ofNat i
  vectors := fun i => .f32 i
  norms := fun i => i
  scales := fun _ => 0
  payloads := fun _ => 0
  shape := smallValid.shape
  head := 66
  tail := 63
  overwriteEvents := 0
  overwrittenEntries := 0

def wrappedSmall : Engine ℚ :=
  (Engine.init { smallValid with distanceMetric := 1, metric_le := by decide } smallConfig.uuid
    .null).setSlot sensorA ⟨some wrappedRing, 0⟩

/-- The two entries nearest to 1 are the ones behind the wrap. -/
theorem nearest_behind_wrap :
    (∃ best left, TopN (Metric.better .euclidean)
        (entryScore smallValid.shape .euclidean (fun _ => 1) 1) 2 wrappedRing.window best left ∧
      (wrappedSmall.queryNearestNBy .ordered sensorA (some fun _ => 1) 1 2 true).2.1 =
        some (best.map fun x => (x.ts, entryScore smallValid.shape .euclidean (fun _ => 1) 1 x))) ∧
      (wrappedSmall.queryNearestNBy .ordered sensorA (some fun _ => 1) 1 2 true).2.1 =
        some [(1, 0), (0, 1)] := by
  have total : ∀ xs : List ℚ, StrictWeak FloatArith.lt xs :=
    fun xs => strictWeak_of_linear fun _ _ => rfl
  have length : wrappedRing.window.length = 3 := SensorRing.window_length
  obtain ⟨best, left, top, answer⟩ := Engine.query_exact (q := fun _ => 1) (n := 2)
    HeapOps.ordered_standard (e := wrappedSmall) (r := wrappedRing) (s := sensorA) rfl rfl
    (by decide) rfl (by omega) (by omega) (total _)
  exact ⟨⟨best, left, top, congrArg (fun x => x.2.1) answer⟩, by decide +kernel⟩

end ChronosVector
