import ChronosVector.RealArith

/-!
# The FLOAT32 kernels on paper

The chunk kernels over packed rows, in exact arithmetic, with norms that square to
the sums of the squares.

* `cosineF32Chunk`, `euclideanSqF32Chunk`, `euclideanSqF32ChunkDirect`: the
  kernels, row by row;
* `fillScores_chunks`: a query runs them on the two chunks of its window;
* `kernels_exact`: the fast path is the direct one, cosines are cosines, and the
  query itself is a best row.
-/

namespace ChronosVector

open Finset

section
variable {F : Type} [FloatArith F]

/-- Row `i` of `vecs`. -/
def packedRow (vecs : Nat → F) (dim i : Nat) : Nat → F := fun j => vecs (i * dim + j)

def cosineF32Chunk (vecs norms : Nat → F) (count dim : Nat) (q : Nat → F) (qn : F) : List F :=
  (List.range count).map fun i => cosineF32 (packedRow vecs dim i) (norms i) dim q qn

def euclideanSqF32Chunk (vecs rowNorms : Nat → F) (count dim : Nat) (q : Nat → F) (qn : F) : List F :=
  (List.range count).map fun i => euclideanSqF32 (packedRow vecs dim i) (rowNorms i) dim q qn

/-- `EuclideanSqF32Chunk_Direct`. -/
def euclideanSqF32ChunkDirect (vecs : Nat → F) (count dim : Nat) (q : Nat → F) : List F :=
  (List.range count).map fun i =>
    let gap := fun j => packedRow vecs dim i j - q j
    dot gap gap dim

/-- The kernel that a FLOAT32 query calls. -/
def Metric.chunk (m : Metric) (vecs norms : Nat → F) (count dim : Nat) (q : Nat → F) (qn : F) : List F :=
  match m with
  | .cosine => cosineF32Chunk vecs norms count dim q qn
  | .euclidean => euclideanSqF32Chunk vecs norms count dim q qn

/-- **The chunks of a query.** Its scores are the kernel's on the columns from the
first slot on, and then on those from slot zero. -/
theorem fillScores_chunks {r : SensorRing F} (float : r.shape.dtype = .float32) (b n : Nat) (m : Metric)
    (q : Nat → F) (qn : F) (qi8 : Nat → Int8) (qScale : F) :
    let start := r.slotOf b
    let firstLen := min n (r.shape.capacity - start)
    let dim := r.shape.dim
    let base := fun a => (r.vectors a).float
    fillScoresForRange r b n m q qn qi8 qScale =
      m.chunk (fun a => base (start * dim + a)) (fun i => r.norms (start + i)) firstLen dim q qn ++
        m.chunk base r.norms (n - firstLen) dim q qn := by
  have rows (start count : Nat) :
      (List.range' start count).map (slotScore r m q qn qi8 qScale) =
        m.chunk (fun a => (r.vectors (start * r.shape.dim + a)).float) (fun i => r.norms (start + i))
          count r.shape.dim q qn := by
    rw [List.range'_eq_map_range, List.map_map]
    have row (i : Nat) : (fun j => (r.vectors ((start + i) * r.shape.dim + j)).float) =
        packedRow (fun a => (r.vectors (start * r.shape.dim + a)).float) r.shape.dim i := by
      funext j
      rw [packedRow, Nat.add_mul, Nat.add_assoc]
    cases m with
    | cosine =>
      apply List.map_congr_left
      intro i _
      simp only [Function.comp_apply, slotScore, float, row]
    | euclidean =>
      apply List.map_congr_left
      intro i _
      simp only [Function.comp_apply, slotScore, float, row]
  intro start firstLen dim base
  have wrapped := rows 0 (n - firstLen)
  simp only [Nat.zero_mul, Nat.zero_add] at wrapped
  rw [fillScoresForRange, chunkSlots, List.map_append, rows, List.range_eq_range', wrapped]

end

/-! ## Exact rows -/

variable {row q : Nat → ℝ} {rowNorm qn : ℝ} {dim : Nat}

theorem norm_of_sq (nonneg : 0 ≤ rowNorm) (hr : rowNorm ^ 2 = ∑ j ∈ range dim, row j ^ 2) :
    rowNorm = l2NormF32 row dim := by
  rw [l2NormF32_real, ← hr, Real.sqrt_sq nonneg]

/-- Between two norms the kernel computes the cosine. -/
theorem cosineF32_similarity (hr : rowNorm ^ 2 = ∑ j ∈ range dim, row j ^ 2)
    (hq : qn ^ 2 = ∑ j ∈ range dim, q j ^ 2) (rowPos : 0 ≤ rowNorm) (qPos : 0 ≤ qn) :
    cosineF32 row rowNorm dim q qn = similarity row q dim := by
  rw [norm_of_sq rowPos hr, norm_of_sq qPos hq, cosineF32_exact]

theorem cosineF32_bound (hr : rowNorm ^ 2 = ∑ j ∈ range dim, row j ^ 2)
    (hq : qn ^ 2 = ∑ j ∈ range dim, q j ^ 2) : |cosineF32 row rowNorm dim q qn| ≤ 1 := by
  by_cases pos : 0 < qn ∧ 0 < rowNorm
  · rw [cosineF32_similarity hr hq pos.2.le pos.1.le]
    exact similarity_bound row q dim
  · have guarded : cosineF32 row rowNorm dim q qn = 0 := by
      simp only [cosineF32, lt_real]
      split
      · exact if_neg fun rowPos => pos ⟨‹_›, rowPos⟩
      · rfl
    rw [guarded, abs_zero]
    exact zero_le_one

theorem similarity_self (same : ∀ j < dim, row j = q j) (nonzero : ∃ j < dim, q j ≠ 0) :
    similarity row q dim = 1 := by
  obtain ⟨j, hj, ne⟩ := nonzero
  have pos : 0 < ∑ i ∈ range dim, q i ^ 2 :=
    sum_pos' (fun i _ => sq_nonneg _) ⟨j, mem_range.mpr hj, by positivity⟩
  have products : ∑ i ∈ range dim, row i * q i = ∑ i ∈ range dim, q i ^ 2 :=
    sum_congr rfl fun i hi => by rw [same i (mem_range.mp hi), sq]
  have squares : ∑ i ∈ range dim, row i ^ 2 = ∑ i ∈ range dim, q i ^ 2 :=
    sum_congr rfl fun i hi => by rw [same i (mem_range.mp hi)]
  rw [similarity, products, squares, Real.mul_self_sqrt pos.le, div_self pos.ne']

/-- No row is more similar to the query than the query itself. -/
theorem cosineF32_best {other : Nat → ℝ} {otherNorm : ℝ}
    (hr : rowNorm ^ 2 = ∑ j ∈ range dim, row j ^ 2)
    (ho : otherNorm ^ 2 = ∑ j ∈ range dim, other j ^ 2) (hq : qn ^ 2 = ∑ j ∈ range dim, q j ^ 2)
    (rowPos : 0 ≤ rowNorm) (same : ∀ j < dim, row j = q j) (nonzero : ∃ j < dim, q j ≠ 0) :
    cosineF32 other otherNorm dim q qn ≤ cosineF32 row rowNorm dim q qn := by
  obtain qPos | qNeg := lt_or_ge 0 qn
  · rw [cosineF32_similarity hr hq rowPos qPos.le, similarity_self same nonzero]
    exact (abs_le.mp (cosineF32_bound ho hq)).2
  · simp only [cosineF32, lt_real, if_neg (not_lt.mpr qNeg), le_refl]

/-! ## The chunks -/

section
variable {vecs rowNorms : Nat → ℝ} {count : Nat}
  (rows : ∀ i < count, rowNorms i ^ 2 = ∑ j ∈ range dim, packedRow vecs dim i j ^ 2)
  (query : qn ^ 2 = ∑ j ∈ range dim, q j ^ 2)
include rows query

theorem euclidean_eq_direct :
    euclideanSqF32Chunk vecs rowNorms count dim q qn = euclideanSqF32ChunkDirect vecs count dim q := by
  apply List.map_congr_left
  intro i hi
  rw [euclideanSqF32_sqDist (rows i (List.mem_range.mp hi)) query, dot_sum, sqDist]
  exact sum_congr rfl fun j _ => sq _

section
variable {k : Nat} (hk : k < count) (same : ∀ j < dim, packedRow vecs dim k j = q j)
include hk same

theorem cosine_attained (pos : 0 ≤ rowNorms k) (nonzero : ∃ j < dim, q j ≠ 0) :
    ∃ best, (cosineF32Chunk vecs rowNorms count dim q qn)[k]? = some best ∧
      ∀ score ∈ cosineF32Chunk vecs rowNorms count dim q qn, score ≤ best := by
  refine ⟨cosineF32 (packedRow vecs dim k) (rowNorms k) dim q qn, ?_, fun score mem => ?_⟩
  · rw [cosineF32Chunk, List.getElem?_map, List.getElem?_range hk]
    rfl
  · obtain ⟨i, hi, rfl⟩ := List.mem_map.mp mem
    exact cosineF32_best (rows k hk) (rows i (List.mem_range.mp hi)) query pos same nonzero

theorem euclidean_attained :
    ∃ best, (euclideanSqF32Chunk vecs rowNorms count dim q qn)[k]? = some best ∧
      ∀ score ∈ euclideanSqF32Chunk vecs rowNorms count dim q qn, best ≤ score := by
  have zero : sqDist (packedRow vecs dim k) q dim = 0 :=
    sum_eq_zero fun j hj => by rw [same j (mem_range.mp hj), sub_self, sq, zero_mul]
  refine ⟨euclideanSqF32 (packedRow vecs dim k) (rowNorms k) dim q qn, ?_, fun score mem => ?_⟩
  · rw [euclideanSqF32Chunk, List.getElem?_map, List.getElem?_range hk]
    rfl
  · obtain ⟨i, hi, rfl⟩ := List.mem_map.mp mem
    rw [euclideanSqF32_sqDist (rows k hk) query, zero,
      euclideanSqF32_sqDist (rows i (List.mem_range.mp hi)) query]
    exact sqDist_nonneg

end

/-- **The kernels on paper.** The fast path is the direct one and never clamps, a
cosine lies in [-1, 1], and a row equal to the query has a best score. -/
theorem kernels_exact :
    euclideanSqF32Chunk vecs rowNorms count dim q qn = euclideanSqF32ChunkDirect vecs count dim q ∧
      (∀ i < count, 0 ≤ rowNorms i * rowNorms i + qn * qn -
        FloatArith.ofInt 2 * dot (packedRow vecs dim i) q dim) ∧
      (∀ score ∈ cosineF32Chunk vecs rowNorms count dim q qn, -1 ≤ score ∧ score ≤ 1) ∧
      ∀ k < count, (∃ j < dim, q j ≠ 0) → (∀ j < dim, packedRow vecs dim k j = q j) →
        (0 ≤ rowNorms k → ∃ best, (cosineF32Chunk vecs rowNorms count dim q qn)[k]? = some best ∧
          ∀ score ∈ cosineF32Chunk vecs rowNorms count dim q qn, score ≤ best) ∧
        ∃ best, (euclideanSqF32Chunk vecs rowNorms count dim q qn)[k]? = some best ∧
          ∀ score ∈ euclideanSqF32Chunk vecs rowNorms count dim q qn, best ≤ score := by
  refine ⟨euclidean_eq_direct rows query, fun i hi => ?_, fun score mem => ?_,
    fun k hk nonzero same => ⟨fun pos => cosine_attained rows query hk same pos nonzero,
      euclidean_attained rows query hk same⟩⟩
  · rw [norm_identity (rows i hi) query]
    exact sqDist_nonneg
  · obtain ⟨i, hi, rfl⟩ := List.mem_map.mp mem
    exact abs_le.mp (cosineF32_bound (rows i (List.mem_range.mp hi)) query)

end

/-- The rows (3, 4) and (0, 0), of lengths 5 and 0. -/
def twoRows (a : Nat) : ℝ := if a = 0 then 3 else if a = 1 then 4 else 0

def twoNorms (i : Nat) : ℝ := if i = 0 then 5 else 0

/-- Next to the query (3, 4) the first is a best one. -/
theorem two_rows_exact :
    euclideanSqF32Chunk twoRows twoNorms 2 2 twoRows 5 = euclideanSqF32ChunkDirect twoRows 2 2 twoRows ∧
      (∀ score ∈ cosineF32Chunk twoRows twoNorms 2 2 twoRows 5, -1 ≤ score ∧ score ≤ 1) ∧
      ∃ best, (cosineF32Chunk twoRows twoNorms 2 2 twoRows 5)[0]? = some best ∧
        ∀ score ∈ cosineF32Chunk twoRows twoNorms 2 2 twoRows 5, score ≤ best := by
  have rows : ∀ i < 2, twoNorms i ^ 2 = ∑ j ∈ range 2, packedRow twoRows 2 i j ^ 2 := by
    intro i hi
    obtain rfl | rfl : i = 0 ∨ i = 1 := by omega
    · norm_num [twoNorms, packedRow, twoRows, sum_range_succ]
    · norm_num [twoNorms, packedRow, twoRows, sum_range_succ]
  have query : (5 : ℝ) ^ 2 = ∑ j ∈ range 2, twoRows j ^ 2 := by
    norm_num [twoRows, sum_range_succ]
  have nonzero : ∃ j < 2, twoRows j ≠ 0 := ⟨0, by norm_num, by norm_num [twoRows]⟩
  have same : ∀ j < 2, packedRow twoRows 2 0 j = twoRows j := by
    intro j _
    rw [packedRow, Nat.zero_mul, Nat.zero_add]
  obtain ⟨fast, -, bounded, best⟩ := kernels_exact rows query
  exact ⟨fast, bounded, (best 0 (by norm_num) nonzero same).1 (by norm_num [twoNorms])⟩

end ChronosVector
