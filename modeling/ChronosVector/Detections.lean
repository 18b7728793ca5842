import ChronosVector.RangeQueries
import ChronosVector.NearestN
import ChronosVector.RealArith

/-!
# Detections

`DetectAnomaly` on a FLOAT32 window, in exact arithmetic.

* `average`: the mean vector of a window, which is what both chunks add up to;
* `detect_average`: the verdict compares the documented distance from it;
* `detections_exact`: neither the order of the vectors nor their place in the
  buffer matters.
-/

namespace ChronosVector

open Finset

/-- The vector of a FLOAT32 entry. -/
def Entry.floats {F : Type} [FloatArith F] (x : Entry F) (j : Nat) : F :=
  (x.vec.getD j default).float

/-- The sum of a component over the entries of a chunk. -/
def sumFloats {F : Type} [FloatArith F] (l : List (Entry F)) (j : Nat) : F :=
  l.foldl (fun acc x => acc + x.floats j) 0

/-- The mean as it is summed, with the first `k` entries in one chunk. -/
def chunkedMean {F : Type} [FloatArith F] (k : Nat) (window : List (Entry F)) (j : Nat) : F :=
  let mean := 0 + sumFloats (window.take k) j
  let mean := if k < window.length then mean + sumFloats (window.drop k) j else mean
  mean / FloatArith.ofInt window.length

/-- How many entries of the window lie in front of the end of the columns. -/
def SensorRing.firstLen {F : Type} (r : SensorRing F) : Nat :=
  min (r.snapshot.2 - r.snapshot.1) (r.shape.capacity - r.slotOf r.snapshot.1)

/-- The mean of the vectors of a window. -/
noncomputable def average (window : List (Entry ℝ)) (j : Nat) : ℝ :=
  (window.map fun x => x.floats j).sum / window.length

/-! ## The mean -/

theorem average_perm {window window' : List (Entry ℝ)}
    (perm : (window'.map fun x => x.vec).Perm (window.map fun x => x.vec)) :
    average window' = average window := by
  funext j
  have length : window'.length = window.length := by simpa using perm.length_eq
  have floats := perm.map fun vec => (vec.getD j default).float
  rw [List.map_map, List.map_map] at floats
  rw [average, average, length]
  congr 1
  exact floats.sum_eq

/-- A chunk of slots is summed over its entries. -/
theorem chunkSum_entries {F : Type} [FloatArith F] {r : SensorRing F}
    (float : r.shape.dtype = .float32) {j : Nat} (hj : j < r.shape.dim) (idxs : List Nat) :
    Engine.chunkSum r (idxs.map r.slotOf) j = sumFloats (idxs.map r.entryAt) j := by
  have cell (idx : Nat) :
      r.floatFrom 0 (r.slotOf idx * r.shape.dim + j) = (r.entryAt idx).floats j := by
    rw [Entry.floats, r.entryAt_vec idx j hj, floatFrom_eq float]
    simp only [Nat.zero_add]
  simp only [Engine.chunkSum, sumFloats, List.foldl_map, cell]

/-- The window in its two chunks. -/
theorem window_wraps {F : Type} (r : SensorRing F) :
    r.window.take r.firstLen = (List.range' r.snapshot.1 r.firstLen).map r.entryAt ∧
      r.window.drop r.firstLen = (List.range' (r.snapshot.1 + r.firstLen)
        (r.snapshot.2 - r.snapshot.1 - r.firstLen)).map r.entryAt := by
  have window : r.window = (List.range' r.snapshot.1 r.firstLen).map r.entryAt ++
      (List.range' (r.snapshot.1 + r.firstLen)
        (r.snapshot.2 - r.snapshot.1 - r.firstLen)).map r.entryAt := by
    rw [SensorRing.window, range_wrap r.snapshot.1 _ (r.shape.capacity - r.slotOf r.snapshot.1),
      List.map_append]
    rfl
  have length : ((List.range' r.snapshot.1 r.firstLen).map r.entryAt).length = r.firstLen := by
    rw [List.length_map, List.length_range']
  rw [window]
  exact ⟨List.take_left' length, List.drop_left' length⟩

/-- The mean, in the order of the window. -/
theorem windowMean_entries {F : Type} [FloatArith F] {r : SensorRing F}
    (float : r.shape.dtype = .float32) {j : Nat} (hj : j < r.shape.dim) :
    Engine.windowMean r r.snapshot.1 (r.snapshot.2 - r.snapshot.1) j =
      chunkedMean r.firstLen r.window j := by
  obtain ⟨first, second⟩ := window_wraps r
  rw [chunkedMean, first, second, SensorRing.window_length, ← chunkSum_entries float hj,
    ← chunkSum_entries float hj]
  simp only [Engine.windowMean, firstChunk_eq, secondChunk_eq (snapshot_short r)]
  rfl

theorem sumFloats_real (l : List (Entry ℝ)) (j : Nat) :
    sumFloats l j = (l.map fun x => x.floats j).sum := by
  rw [sumFloats, List.sum_eq_foldl, List.foldl_map]

/-- In exact arithmetic the chunks make no difference. -/
theorem chunkedMean_average (k : Nat) (window : List (Entry ℝ)) (j : Nat) :
    chunkedMean k window j = average window j := by
  have whole : (if k < window.length then
      0 + sumFloats (window.take k) j + sumFloats (window.drop k) j
      else 0 + sumFloats (window.take k) j) = (window.map fun x => x.floats j).sum := by
    simp only [sumFloats_real, zero_add]
    split
    · rw [← List.sum_append, ← List.map_append, List.take_append_drop]
    · rename_i all
      rw [List.take_of_length_le (Nat.le_of_not_lt all)]
  rw [chunkedMean, average, ofInt_real, Int.cast_natCast]
  exact congrArg (fun x => x / (window.length : ℝ)) whole

theorem windowMean_average {r : SensorRing ℝ} (float : r.shape.dtype = .float32) {j : Nat}
    (hj : j < r.shape.dim) :
    Engine.windowMean r r.snapshot.1 (r.snapshot.2 - r.snapshot.1) j = average r.window j := by
  rw [windowMean_entries float hj, chunkedMean_average]

theorem distance_congr (m : Metric) {v v' w : Nat → ℝ} {dim : Nat} (h : ∀ j < dim, v j = v' j) :
    m.distance v w dim = m.distance v' w dim := by
  have same (f : ℝ → Nat → ℝ) : ∑ i ∈ range dim, f (v i) i = ∑ i ∈ range dim, f (v' i) i :=
    sum_congr rfl fun i hi => by rw [h i (mem_range.mp hi)]
  have products := same fun a i => a * w i
  have squares := same fun a _ => a ^ 2
  have gaps := same fun a i => (a - w i) ^ 2
  cases m with
  | cosine => rw [Metric.distance, Metric.distance, similarity, similarity, products, squares]
  | euclidean => rw [Metric.distance, Metric.distance, sqDist, sqDist, gaps]

/-! ## The verdict -/

namespace Engine

variable {e : Engine ℝ} {s : SensorId} {r : SensorRing ℝ} {next : Nat}

/-- The detection compares the documented distance. -/
theorem detect_average (ok : e.Ok) (float : e.cfg.shape.dtype = .float32) (opened : e.closed = false)
    (found : e.sensors.lookup s = some ⟨some r, next⟩) (nonempty : r.window ≠ []) (v : Nat → ℝ)
    (t : ℝ) :
    (e.detectAnomaly s (some v) e.cfg.dim.toNat t true).2.1 =
      some (decide (t < e.cfg.metric.distance (average r.window) v e.cfg.shape.dim)) := by
  have shape : r.shape = e.cfg.shape := (ok s r (ring_eq found)).1
  have size : r.snapshot.2 - r.snapshot.1 ≠ 0 := by
    rw [← SensorRing.window_length]
    exact fun none => nonempty (List.length_eq_zero_iff.mp none)
  have mean : e.cfg.metric.distance
      (windowMean r r.snapshot.1 (r.snapshot.2 - r.snapshot.1)) v e.cfg.shape.dim =
        e.cfg.metric.distance (average r.window) v e.cfg.shape.dim := by
    apply distance_congr
    intro j hj
    rw [← shape] at float hj
    exact windowMean_average float hj
  have dim : e.cfg.dim.toNat = e.cfg.shape.dim := rfl
  rw [← mean, ← anomalyDistance_exact]
  simp only [detectAnomaly, opened, found, size, dim, Bool.false_eq_true, if_false, ne_eq,
    not_true_eq_false, reduceCtorEq]
  rfl

/-- **Detections match their definition.** The verdict compares the distance from
the window's mean with the threshold, so any window of the same vectors gives it. -/
theorem detections_exact (reachable : Reachable e) (float : e.cfg.shape.dtype = .float32)
    (opened : e.closed = false) (found : e.sensors.lookup s = some ⟨some r, next⟩)
    (nonempty : r.window ≠ []) (v : Nat → ℝ) (t : ℝ) :
    (e.detectAnomaly s (some v) e.cfg.dim.toNat t true).2.1 =
        some (decide (e.cfg.metric.distance (average r.window) v e.cfg.shape.dim > t)) ∧
      ∀ {e' : Engine ℝ} {s' : SensorId} {r' : SensorRing ℝ} {next' : Nat}, Reachable e' →
        e'.cfg.shape.dtype = .float32 → e'.cfg.shape.dim = e.cfg.shape.dim →
        e'.cfg.metric = e.cfg.metric → e'.closed = false →
        e'.sensors.lookup s' = some ⟨some r', next'⟩ →
        (r'.window.map fun x => x.vec).Perm (r.window.map fun x => x.vec) →
        (e'.detectAnomaly s' (some v) e'.cfg.dim.toNat t true).2.1 =
          (e.detectAnomaly s (some v) e.cfg.dim.toNat t true).2.1 := by
  have verdict := detect_average (reachable_ok reachable) float opened found nonempty v t
  refine ⟨verdict, ?_⟩
  intro e' s' r' next' reachable' float' dim metric opened' found' perm
  have nonempty' : r'.window ≠ [] := by
    intro none
    rw [none] at perm
    exact nonempty (List.map_eq_nil_iff.mp perm.nil_eq.symm)
  rw [verdict, detect_average (reachable_ok reachable') float' opened' found' nonempty' v t, metric,
    dim, average_perm perm]

/-! ## Two vectors in either order -/

/-- An engine with `x` and then `y` appended. -/
noncomputable def pairEngine (x y : ℝ) : Engine ℝ :=
  run [(.calm ℝ 0, .append (some sensorA.bytes) 1 (some fun _ => x) 1 none),
    (.calm ℝ 0, .append (some sensorA.bytes) 2 (some fun _ => y) 1 none)]
    (init smallValid smallConfig.uuid .null)

noncomputable def pairRing (x y : ℝ) : SensorRing ℝ :=
  ((SensorRing.new smallValid.shape (.zero ℝ)).ingest 1 (fun _ => x) 1 none).ingest 2
    (fun _ => y) 1 none

theorem pairEngine_reachable (x y : ℝ) : Reachable (pairEngine x y) := by
  have created : create (.calm ℝ 0) smallConfig none =
    .ok (init smallValid smallConfig.uuid .null) := rfl
  exact (Reachable.created created).run _

theorem pairEngine_found (x y : ℝ) :
    (pairEngine x y).sensors.lookup sensorA = some ⟨some (pairRing x y), 0⟩ := rfl

theorem pairRing_vecs (x y : ℝ) :
    (pairRing x y).window.map (fun z => z.vec) = [[.f32 x], [.f32 y]] := by
  have start := SensorRing.new_ok smallValid.shape (.zero ℝ)
  have first := SensorRing.ingest_queue start 1 (fun _ => x) 1 none
  have second := SensorRing.ingest_queue (SensorRing.ingest_ok start 1 (fun _ => x) 1 none) 2
    (fun _ => y) 1 none
  rw [first, SensorRing.queue_new] at second
  have items : (pairRing x y).window = _ := congrArg BoundedQueue.items second
  rw [items]
  rfl

/-- The vectors 1 and 3, and a candidate: their order makes no difference. -/
theorem pair_detections_exact :
    ((pairEngine 1 3).detectAnomaly sensorA (some fun _ => -1) 1 1 true).2.1 =
        some (decide (Metric.cosine.distance (average (pairRing 1 3).window) (fun _ => -1) 1 > 1)) ∧
      ((pairEngine 3 1).detectAnomaly sensorA (some fun _ => -1) 1 1 true).2.1 =
        ((pairEngine 1 3).detectAnomaly sensorA (some fun _ => -1) 1 1 true).2.1 := by
  have some_entry : (pairRing 1 3).window ≠ [] := by
    intro none
    have vecs := pairRing_vecs 1 3
    rw [none] at vecs
    cases vecs
  have swapped : ((pairRing 3 1).window.map fun z => z.vec).Perm
      ((pairRing 1 3).window.map fun z => z.vec) := by
    rw [pairRing_vecs, pairRing_vecs]
    exact .swap _ _ _
  obtain ⟨verdict, others⟩ := detections_exact (pairEngine_reachable 1 3) rfl rfl
    (pairEngine_found 1 3) some_entry (fun _ => -1) 1
  exact ⟨verdict, others (pairEngine_reachable 3 1) rfl rfl rfl rfl (pairEngine_found 3 1) swapped⟩

end Engine

end ChronosVector
