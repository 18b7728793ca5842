import ChronosVector.Detections
import ChronosVector.StoredNorms

/-!
# Scores and detections

A detection compares a distance with the threshold, a query returns scores. Both
come from one kernel. The detection gives it the norm of the mean and takes the
square root; the query gives it the norm that the ring has cached, and does not.

* `entryScore_exact`: the score of a FLOAT32 entry;
* `query_single`, `detect_single`: the two calls on a window of one entry;
* `verdicts_agree_iff`: when the score, read as a distance, gives the verdict;
* `uniform_unseparated`: what it comes to where the cached norm is the vector's.
-/

namespace ChronosVector

open Finset

/-! ## The mean of one entry -/

/-- A window of one entry is the slot at the start of the snapshot. -/
theorem window_single {F : Type} {r : SensorRing F} {x : Entry F} (one : r.window = [x]) :
    r.snapshot.2 - r.snapshot.1 = 1 ∧ r.entryAt r.snapshot.1 = x := by
  have size : r.snapshot.2 - r.snapshot.1 = 1 := by
    rw [← SensorRing.window_length, one, List.length_singleton]
  refine ⟨size, ?_⟩
  rw [SensorRing.window, size] at one
  simpa using one

theorem average_single (x : Entry ℝ) : average [x] = x.floats := by
  funext j
  simp [average]

/-! ## Exact scores -/

/-- The cosine with a cached length of the first vector, zero where there is none. -/
noncomputable def cachedSimilarity (norm : ℝ) (v w : Nat → ℝ) (dim : Nat) : ℝ :=
  if 0 < norm then (∑ i ∈ range dim, v i * w i) / (norm * √(∑ i ∈ range dim, w i ^ 2)) else 0

/-- What a query returns for an entry: a similarity, or a squared distance. -/
noncomputable def Metric.score (m : Metric) (norm : ℝ) (v w : Nat → ℝ) (dim : Nat) : ℝ :=
  match m with
  | .cosine => cachedSimilarity norm v w dim
  | .euclidean => max 0 (sqDist v w dim + (norm ^ 2 - ∑ i ∈ range dim, v i ^ 2))

/-- `c` is above one of `a` and `b` and not above the other. -/
def Between (a b c : ℝ) : Prop := min a b < c ∧ c ≤ max a b

theorem same_side_iff (a b c : ℝ) : (a < c ↔ b < c) ↔ ¬ Between a b c := by
  unfold Between
  grind

/-- The threshold does not come to lie between the documented distance of an entry
and what the query makes of its vector and its cached norm. -/
def Metric.Unseparated (m : Metric) (x : Entry ℝ) (v : Nat → ℝ) (t : ℝ) (dim : Nat) : Prop :=
  match m with
  | .cosine => ¬ Between (similarity x.floats v dim) (cachedSimilarity x.norm x.floats v dim) (1 - t)
  | .euclidean =>
    ¬ Between (t ^ 2) (t + ∑ i ∈ range dim, x.floats i ^ 2 - x.norm ^ 2) (sqDist x.floats v dim)

/-- A query's score read as the API documents it. -/
def Metric.scoreDistance (m : Metric) (score : ℝ) : ℝ :=
  match m with
  | .cosine => 1 - score
  | .euclidean => score

section
variable {norm : ℝ} {v w : Nat → ℝ} {dim : Nat}

theorem cachedSimilarity_norm (normed : norm = √(∑ i ∈ range dim, v i ^ 2)) :
    cachedSimilarity norm v w dim = similarity v w dim := by
  rw [cachedSimilarity, similarity, ← normed]
  split
  · rfl
  · rename_i none
    have zero : norm = 0 := le_antisymm (not_lt.mp none) (normed ▸ Real.sqrt_nonneg _)
    rw [zero, zero_mul, div_zero]

theorem cosineF32_cached (norm : ℝ) (v w : Nat → ℝ) (dim : Nat) :
    cosineF32 v norm dim w (l2NormF32 w dim) = cachedSimilarity norm v w dim := by
  simp only [cosineF32, lt_real, l2NormF32_real, dot_sum, cachedSimilarity]
  split
  · rfl
  · rename_i zero
    rw [le_antisymm (not_lt.mp zero) (Real.sqrt_nonneg _), mul_zero, div_zero, ite_self]

theorem euclideanSqF32_cached (norm : ℝ) (v w : Nat → ℝ) (dim : Nat) :
    euclideanSqF32 v norm dim w (l2NormF32 w dim) =
      max 0 (sqDist v w dim + (norm ^ 2 - ∑ i ∈ range dim, v i ^ 2)) := by
  have expanded := norm_identity (l2NormF32_sq v dim) (l2NormF32_sq w dim)
  rw [← sq, ← sq, l2NormF32_sq v] at expanded
  have sum : norm * norm + l2NormF32 w dim * l2NormF32 w dim - FloatArith.ofInt 2 * dot v w dim =
      sqDist v w dim + (norm ^ 2 - ∑ i ∈ range dim, v i ^ 2) := by
    rw [← expanded]
    ring
  simp only [euclideanSqF32, sum, lt_real]
  split
  · rename_i negative
    rw [max_eq_left negative.le]
  · rename_i nonneg
    rw [max_eq_right (not_lt.mp nonneg)]

end

/-- **The score of a FLOAT32 entry**, with the norm that its row has. -/
theorem entryScore_exact {sh : RingShape} (float : sh.dtype = .float32) (m : Metric) (q : Nat → ℝ)
    (x : Entry ℝ) : entryScore sh m q sh.dim x = m.score x.norm x.floats q sh.dim := by
  cases m with
  | cosine =>
    simp only [entryScore, float]
    exact cosineF32_cached x.norm x.floats q sh.dim
  | euclidean =>
    simp only [entryScore, float]
    exact euclideanSqF32_cached x.norm x.floats q sh.dim

theorem normed_sqrt {sh : RingShape} {x : Entry ℝ} (float : sh.dtype = .float32)
    (normed : x.Normed sh) : x.norm = √(∑ i ∈ range sh.dim, x.floats i ^ 2) := by
  rw [normed, Row.norm, float, ← l2NormF32_real]
  rfl

/-- With the vector's own norm cached. -/
theorem unseparated_normed {sh : RingShape} {x : Entry ℝ} (float : sh.dtype = .float32)
    (normed : x.Normed sh) {m : Metric} (v : Nat → ℝ) (t : ℝ) :
    m.Unseparated x v t sh.dim ↔ m = .cosine ∨ ¬ Between (t ^ 2) t (sqDist x.floats v sh.dim) := by
  have norm := normed_sqrt float normed
  cases m with
  | cosine =>
    rw [Metric.Unseparated, cachedSimilarity_norm norm, ← same_side_iff]
    exact iff_of_true Iff.rfl (.inl rfl)
  | euclidean =>
    rw [Metric.Unseparated, norm, Real.sq_sqrt sqNorm_nonneg, add_sub_cancel_right]
    simp

namespace Engine

section
variable {e : Engine ℝ} {s : SensorId} {r : SensorRing ℝ} {next : Nat} {x : Entry ℝ}

/-- The detection compares the distance from the entry. -/
theorem detect_single (ok : e.Ok) (float : e.cfg.shape.dtype = .float32) (opened : e.closed = false)
    (found : e.sensors.lookup s = some ⟨some r, next⟩) (one : r.window = [x]) (v : Nat → ℝ)
    (t : ℝ) :
    (e.detectAnomaly s (some v) e.cfg.dim.toNat t true).2.1 =
      some (decide (t < e.cfg.metric.distance x.floats v e.cfg.shape.dim)) := by
  have nonempty : r.window ≠ [] := by
    rw [one]
    exact List.cons_ne_nil x []
  rw [detect_average ok float opened found nonempty, one, average_single]

/-- The query returns the entry with its score. -/
theorem query_single (ok : e.Ok) (float : e.cfg.shape.dtype = .float32)
    (opened : e.closed = false) (found : e.sensors.lookup s = some ⟨some r, next⟩)
    (one : r.window = [x]) (v : Nat → ℝ) :
    (e.queryNearestN s (some v) e.cfg.dim.toNat 1 true).2.1 =
      some [(x.ts, e.cfg.metric.score x.norm x.floats v e.cfg.shape.dim)] := by
  have shape : r.shape = e.cfg.shape := (ok s r (ring_eq found)).1
  obtain ⟨size, entry⟩ := window_single one
  have scores := fillScores_window r e.cfg.metric v e.cfg.dim.toNat
  rw [one, List.map_singleton, shape] at scores
  have dim : e.cfg.dim.toNat = e.cfg.shape.dim := rfl
  rw [dim, entryScore_exact float, size] at scores
  have quantized : (if r.shape.dtype = .int8 then quantizeF32ToI8 v e.cfg.shape.dim
      else (fun _ => 0, 0)) = int8Query e.cfg.shape v e.cfg.shape.dim := by
    rw [shape]
    rfl
  have valid : ¬ ((1 : Int) ≤ 0 ∨ true = false) := by decide
  have time : r.timestampAt r.snapshot.1 = x.ts := congrArg (fun y : Entry ℝ => y.ts) entry
  simp only [queryNearestN, opened, found, size, dim, valid, one_ne_zero, quantized, scores,
    Bool.false_eq_true, if_false, ne_eq, not_true_eq_false]
  show some [(r.timestampAt (r.snapshot.1 + 0), _)] = _
  rw [Nat.add_zero, time]

/-- The detection flags the candidate exactly when the score that the query returns
for the window's entry, read as a distance, is above the threshold. -/
def VerdictsAgree (e : Engine ℝ) (s : SensorId) (v : Nat → ℝ) (t : ℝ) : Prop :=
  ∃ flagged ts score, (e.detectAnomaly s (some v) e.cfg.dim.toNat t true).2.1 = some flagged ∧
    (e.queryNearestN s (some v) e.cfg.dim.toNat 1 true).2.1 = some [(ts, score)] ∧
    (flagged = true ↔ t < e.cfg.metric.scoreDistance score)

/-- Both verdicts on a window of one entry. -/
theorem verdicts_single (ok : e.Ok) (float : e.cfg.shape.dtype = .float32)
    (opened : e.closed = false) (found : e.sensors.lookup s = some ⟨some r, next⟩)
    (one : r.window = [x]) (v : Nat → ℝ) (t : ℝ) :
    e.VerdictsAgree s v t ↔
      (t < e.cfg.metric.distance x.floats v e.cfg.shape.dim ↔
        t < e.cfg.metric.scoreDistance
          (e.cfg.metric.score x.norm x.floats v e.cfg.shape.dim)) := by
  have detected := detect_single ok float opened found one v t
  have answered := query_single ok float opened found one v
  simp only [VerdictsAgree, detected, answered, Option.some.injEq, List.cons.injEq, Prod.mk.injEq,
    and_true]
  constructor
  · rintro ⟨_, _, _, rfl, ⟨rfl, rfl⟩, agree⟩
    rwa [decide_eq_true_eq] at agree
  · intro agree
    exact ⟨_, _, _, rfl, ⟨rfl, rfl⟩, by rwa [decide_eq_true_eq]⟩

theorem verdicts_unseparated (ok : e.Ok) (float : e.cfg.shape.dtype = .float32)
    (opened : e.closed = false) (found : e.sensors.lookup s = some ⟨some r, next⟩)
    (one : r.window = [x]) (v : Nat → ℝ) {t : ℝ} (nonneg : 0 ≤ t) :
    e.VerdictsAgree s v t ↔ e.cfg.metric.Unseparated x v t e.cfg.shape.dim := by
  rw [verdicts_single ok float opened found one]
  cases e.cfg.metric with
  | cosine =>
    simp only [Metric.distance, Metric.scoreDistance, Metric.score, Metric.Unseparated,
      ← same_side_iff, lt_sub_comm]
  | euclidean =>
    have squared : t < √(sqDist x.floats v e.cfg.shape.dim) ↔
        t ^ 2 < sqDist x.floats v e.cfg.shape.dim := Real.lt_sqrt nonneg
    have clamped (y : ℝ) : t < max 0 y ↔ t < y := by
      rw [lt_max_iff, or_iff_right (not_lt.mpr nonneg)]
    simp only [Metric.distance, Metric.scoreDistance, Metric.score, Metric.Unseparated,
      ← same_side_iff, squared, clamped, ← sub_lt_iff_lt_add]
    rw [← sub_add_eq_add_sub, sub_sub_eq_add_sub, add_sub_right_comm]

/-- **When scores and detections agree.** For the cosine metric, unless one minus the
threshold lies between the cosine and the cosine with the cached norm; for the
Euclidean one, unless the squared distance lies between the square of the threshold
and the threshold, corrected by what the cached norm is off. -/
theorem verdicts_agree_iff (reachable : Reachable e) (float : e.cfg.shape.dtype = .float32)
    (opened : e.closed = false) (found : e.sensors.lookup s = some ⟨some r, next⟩)
    (one : r.window = [x]) (v : Nat → ℝ) {t : ℝ} (nonneg : 0 ≤ t) :
    e.VerdictsAgree s v t ↔ e.cfg.metric.Unseparated x v t e.cfg.shape.dim :=
  verdicts_unseparated (reachable_ok reachable) float opened found one v nonneg

/-- Where every path that was opened has the schema of its blocks, the cached norm is
the vector's: cosine scores and detections agree, and Euclidean ones do unless the
squared distance lies between the threshold and its square. -/
theorem uniform_unseparated (uniform : Uniform e) (float : e.cfg.shape.dtype = .float32)
    (found : e.sensors.lookup s = some ⟨some r, next⟩) (one : r.window = [x]) (v : Nat → ℝ) (t : ℝ) :
    e.cfg.metric.Unseparated x v t e.cfg.shape.dim ↔
      e.cfg.metric = .cosine ∨ ¬ Between (t ^ 2) t (sqDist x.floats v e.cfg.shape.dim) := by
  have normed : x.Normed e.cfg.shape := by
    have all := uniform_normed uniform float s
    rw [tier_items found, one, List.forall_mem_singleton] at all
    exact all
  exact unseparated_normed float normed v t

end

/-! ## One entry at the origin -/

/-- The small engine with the Euclidean metric. -/
def euclidConfig : Config := { smallConfig with distanceMetric := 1 }

def euclidValid : ValidConfig :=
  { euclidConfig with
    abi_ok := by decide
    dim_pos := by decide
    dim_le := by decide
    payload_le := by decide
    dtype_le := by decide
    metric_le := by decide
    capacity_min := by decide
    capacity_pow := ⟨6, by decide⟩
    window_nonneg := by decide
    interval_min := by decide }

theorem euclid_created :
    create (.calm ℝ 0) euclidConfig none = .ok (init euclidValid euclidConfig.uuid .null) := rfl

/-- The engine it creates, with the vector zero appended. -/
noncomputable def originEngine : Engine ℝ :=
  ((init euclidValid euclidConfig.uuid .null).call (.calm ℝ 0)
    (.append (some sensorA.bytes) 1 (some fun _ => 0) 1 none)).2

theorem originEngine_uniform : Uniform originEngine :=
  .called (.created euclid_created) _ _

/-- Its ring, and the one entry of its window. -/
noncomputable def originRing : SensorRing ℝ :=
  (SensorRing.new euclidValid.shape (.zero ℝ)).ingest 1 (fun _ => 0) 1 none

noncomputable def originEntry : Entry ℝ :=
  (SensorRing.new euclidValid.shape (.zero ℝ)).ingested 1 (fun _ => 0) 1 none

theorem originEngine_found : originEngine.sensors.lookup sensorA = some ⟨some originRing, 0⟩ := rfl

theorem originRing_window : originRing.window = [originEntry] := by
  have pushed := SensorRing.ingest_queue (SensorRing.new_ok euclidValid.shape (.zero ℝ)) 1
    (fun _ => 0) 1 none
  rw [SensorRing.queue_new] at pushed
  exact congrArg BoundedQueue.items pushed

theorem origin_sqDist (y : ℝ) : sqDist originEntry.floats (fun _ => y) 1 = y ^ 2 := by
  have origin : originEntry.floats 0 = 0 := rfl
  rw [sqDist, sum_range_one, origin, zero_sub, neg_sq]

theorem originEngine_unseparated (y t : ℝ) :
    originEngine.cfg.metric.Unseparated originEntry (fun _ => y) t originEngine.cfg.shape.dim ↔
      ¬ Between (t ^ 2) t (y ^ 2) := by
  rw [uniform_unseparated originEngine_uniform rfl originEngine_found originRing_window,
    or_iff_right (by rintro ⟨⟩)]
  have apart : sqDist originEntry.floats (fun _ => y) originEngine.cfg.shape.dim = y ^ 2 :=
    origin_sqDist y
  rw [apart]

/-- At the distance 2, whose square is 4, both are above the threshold 1. -/
theorem origin_agrees : originEngine.VerdictsAgree sensorA (fun _ => 2) 1 := by
  apply (verdicts_agree_iff originEngine_uniform.reachable rfl rfl originEngine_found
    originRing_window (fun _ => 2) (t := 1) (by norm_num)).mpr
  rw [originEngine_unseparated, Between]
  norm_num

/-- Between them: the score 4 is above the threshold 3, the distance 2 is not. -/
theorem scores_disagree :
    ¬ ∀ (e : Engine ℝ) (s : SensorId) (r : SensorRing ℝ) (next : Nat) (x : Entry ℝ) (v : Nat → ℝ)
      (t : ℝ), Reachable e → e.cfg.shape.dtype = .float32 → e.closed = false →
      e.sensors.lookup s = some ⟨some r, next⟩ → r.window = [x] → 0 ≤ t → e.VerdictsAgree s v t := by
  intro h
  have reachable := originEngine_uniform.reachable
  have agree := h originEngine sensorA originRing 0 originEntry (fun _ => 2) 3 reachable rfl rfl
    originEngine_found originRing_window (by norm_num)
  rw [verdicts_unseparated (reachable_ok reachable) rfl rfl originEngine_found originRing_window _
    (by norm_num), originEngine_unseparated, Between] at agree
  norm_num at agree

end Engine
end ChronosVector
