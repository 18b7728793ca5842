import ChronosVector.CosineRange
import ChronosVector.NearestN
import ChronosVector.RangeQueries
import ChronosVector.RecoveredNorms
import ChronosVector.Lib.Perturbation

/-!
# Queries on quantized vectors

How far the scores of an INT8 ring are from those of the vectors that were
appended, and what that leaves of the ranking.

* `QuantizedFrom`: an entry is what `Append` stores for a vector;
* `Metric.loss`, `score_near`: the bound on the error of a score;
* `samples`, `run_quantized`: the window of a run next to what the calls passed;
* `int8_query_near`: no vector that a query leaves out is ahead of one it returns
  by more than the loss of both.
-/

namespace ChronosVector

open Finset Perturbation HeapSelect

/-- The entry holds the vector, rounded to its grid, and its norm before that. -/
structure QuantizedFrom (sh : RingShape) (v : Nat → ℝ) (x : Entry ℝ) : Prop where
  component : ∀ i < sh.dim,
    (x.vec.getD i default).int8.toInt = FloatArith.lround (gridPos v sh.dim i)
  scale : x.scale.getD 0 = peak v sh.dim / 127
  norm : x.norm = len (range sh.dim) v

/-- The score without quantization: the cosine, or the squared distance. -/
noncomputable def Metric.exact (m : Metric) (v q : Nat → ℝ) (dim : Nat) : ℝ :=
  match m with
  | .cosine => similarity v q dim
  | .euclidean => sqDist v q dim

/-- How far rounding can move the inner product, relative to the lengths. -/
noncomputable def relLoss (dim : Nat) : ℝ := (1 + √dim / 254) ^ 2 - 1

/-- How far quantization can move a score. -/
noncomputable def Metric.loss (m : Metric) (v q : Nat → ℝ) (dim : Nat) : ℝ :=
  match m with
  | .cosine => relLoss dim
  | .euclidean => (2 : ℕ) * (len (range dim) v * len (range dim) q * relLoss dim)

/-- By how much the score `a` is the better one. -/
def Metric.ahead (m : Metric) (a b : ℝ) : ℝ :=
  match m with
  | .cosine => a - b
  | .euclidean => b - a

/-! ## The error of a score -/

section
variable {v q : Nat → ℝ} {dim : Nat}

theorem relLoss_nonneg (dim : Nat) : 0 ≤ relLoss dim := by
  have : 0 ≤ √dim / 254 := div_nonneg (Real.sqrt_nonneg _) (by norm_num)
  unfold relLoss
  nlinarith

/-- On its grid a vector that is not zero is no shorter than its peak. -/
theorem gridLen_ge (nonzero : ∃ i < dim, v i ≠ 0) : 127 ≤ len (range dim) (gridPos v dim) := by
  obtain ⟨i, hi, reaches⟩ := gridPos_attained (peak_pos nonzero)
  apply Real.le_sqrt_of_sq_le
  calc (127 : ℝ) ^ 2 = gridPos v dim i ^ 2 := by rw [← reaches, sq_abs]
    _ ≤ ∑ j ∈ range dim, gridPos v dim j ^ 2 :=
      single_le_sum (fun j _ => sq_nonneg (gridPos v dim j)) (mem_range.mpr hi)

theorem len_scaled (v : Nat → ℝ) (dim : Nat) :
    len (range dim) v = peak v dim / 127 * len (range dim) (gridPos v dim) := norm_scaled v dim

theorem dot_scaled (v q : Nat → ℝ) (dim : Nat) : ∑ i ∈ range dim, v i * q i =
    peak v dim / 127 * (peak q dim / 127) * ∑ i ∈ range dim, gridPos v dim i * gridPos q dim i := by
  rw [mul_sum]
  apply sum_congr rfl
  intro i hi
  have place := gridPos_scaled (v := v) (mem_range.mp hi)
  have place' := gridPos_scaled (v := q) (mem_range.mp hi)
  calc v i * q i
      = gridPos v dim i * (peak v dim / 127) * (gridPos q dim i * (peak q dim / 127)) := by
        rw [place, place']
    _ = _ := by ring

/-- The inner product of the rounded vectors, in the units of the originals. -/
noncomputable def roundedDot (v q : Nat → ℝ) (dim : Nat) : ℝ :=
  peak v dim / (127 : ℕ) * (peak q dim / (127 : ℕ)) *
    ∑ i ∈ range dim, (FloatArith.lround (gridPos v dim i) : ℝ) * FloatArith.lround (gridPos q dim i)

theorem roundedDot_eq (v q : Nat → ℝ) (dim : Nat) :
    roundedDot v q dim = peak v dim / 127 * (peak q dim / 127) *
      ∑ i ∈ range dim, (FloatArith.lround (gridPos v dim i) : ℝ) * FloatArith.lround (gridPos q dim i) := by
  simp only [roundedDot, Nat.cast_ofNat]

theorem roundedDot_zero (zero : peak v dim = 0 ∨ peak q dim = 0) : roundedDot v q dim = 0 := by
  obtain zero | zero := zero
  · simp [roundedDot, zero]
  · simp [roundedDot, zero]

theorem dot_zero (zero : peak v dim = 0 ∨ peak q dim = 0) : ∑ i ∈ range dim, v i * q i = 0 := by
  rw [dot_scaled v q]
  obtain zero | zero := zero
  · simp [zero]
  · simp [zero]

theorem nonzero_of_peak (pos : peak v dim ≠ 0) : ∃ i < dim, v i ≠ 0 := by
  by_contra none
  push Not at none
  exact pos (peak_eq_zero_iff.mpr none)

/-- **Rounding and the inner product.** -/
theorem roundedDot_near (v q : Nat → ℝ) (dim : Nat) :
    |roundedDot v q dim - ∑ i ∈ range dim, v i * q i| ≤
      len (range dim) v * len (range dim) q * relLoss dim := by
  by_cases zero : peak v dim = 0 ∨ peak q dim = 0
  · rw [roundedDot_zero zero, dot_zero zero, sub_zero, abs_zero]
    exact mul_nonneg (mul_nonneg len_nonneg len_nonneg) (relLoss_nonneg dim)
  · push Not at zero
    have hv := nonzero_of_peak zero.1
    have hq := nonzero_of_peak zero.2
    have unit : 0 < peak v dim / 127 * (peak q dim / 127) :=
      mul_pos (div_pos (peak_pos hv) (by norm_num)) (div_pos (peak_pos hq) (by norm_num))
    have grid := dot_near_rel (s := range dim) (l := 127) (δ := 1 / 2) (by norm_num) (by norm_num)
      (fun i _ => lround_near (gridPos v dim i)) (fun i _ => lround_near (gridPos q dim i))
      (gridLen_ge hv) (gridLen_ge hq)
    have loss : (1 + 1 / 2 * √((range dim).card : ℝ) / 127) ^ 2 - 1 = relLoss dim := by
      rw [card_range, relLoss]
      ring
    rw [loss] at grid
    rw [roundedDot_eq, dot_scaled v q, ← mul_sub, abs_mul, abs_of_pos unit, len_scaled v, len_scaled q]
    calc peak v dim / 127 * (peak q dim / 127) * _
        ≤ peak v dim / 127 * (peak q dim / 127) *
          (len (range dim) (gridPos v dim) * len (range dim) (gridPos q dim) * relLoss dim) :=
          mul_le_mul_of_nonneg_left grid unit.le
      _ = _ := by ring

end

section
variable {sh : RingShape} {v q : Nat → ℝ} {x : Entry ℝ}

/-- What both INT8 kernels take for the inner product. -/
theorem product_rounded (hdim : sh.dim ≤ 65536) (from_ : QuantizedFrom sh v x) :
    FloatArith.ofInt (dotI8 (fun j => (x.vec.getD j default).int8)
        (quantizeF32ToI8 q sh.dim).1 sh.dim) * x.scale.getD 0 * (quantizeF32ToI8 q sh.dim).2 =
      roundedDot v q sh.dim := by
  obtain ⟨places, scale⟩ := quantize_real q sh.dim
  have sum : (FloatArith.ofInt (dotI8 (fun j => (x.vec.getD j default).int8)
      (quantizeF32ToI8 q sh.dim).1 sh.dim) : ℝ) =
      ∑ i ∈ range sh.dim, (FloatArith.lround (gridPos v sh.dim i) : ℝ) *
        FloatArith.lround (gridPos q sh.dim i) := by
    rw [dotI8_sum _ _ hdim, ofInt_real]
    push_cast
    apply sum_congr rfl
    intro i hi
    rw [from_.component i (mem_range.mp hi), places i (mem_range.mp hi)]
  rw [sum, from_.scale, scale, roundedDot]
  ring

theorem cosine_near (int8 : sh.dtype = .int8) (hdim : sh.dim ≤ 65536)
    (from_ : QuantizedFrom sh v x) :
    |entryScore sh .cosine q sh.dim x - similarity v q sh.dim| ≤ relLoss sh.dim := by
  have product := product_rounded (q := q) hdim from_
  have length : l2NormF32 q sh.dim = len (range sh.dim) q := l2NormF32_real q sh.dim
  have positive {y : ℝ} : FloatArith.le y 0 = decide (y ≤ 0) := rfl
  have near := roundedDot_near v q sh.dim
  simp only [entryScore, int8, cosineI8]
  by_cases zero : peak v sh.dim = 0 ∨ peak q sh.dim = 0
  · -- the kernel answers zero next to a zero vector
    have none : similarity v q sh.dim = 0 := by rw [similarity, dot_zero zero, zero_div]
    have scale := (quantize_real q sh.dim).2
    obtain zero | zero := zero
    · rw [from_.scale, zero, none]
      simpa [positive] using relLoss_nonneg sh.dim
    · rw [scale, zero, none]
      simpa [positive] using relLoss_nonneg sh.dim
  · push Not at zero
    have scale : 0 < x.scale.getD 0 := by
      rw [from_.scale]
      exact div_pos (peak_pos (nonzero_of_peak zero.1)) (by norm_num)
    have qScale : 0 < (quantizeF32ToI8 q sh.dim).2 := by
      rw [(quantize_real q sh.dim).2]
      exact div_pos (peak_pos (nonzero_of_peak zero.2)) (by norm_num)
    have long : 0 < len (range sh.dim) v := by
      rw [len_scaled]
      exact mul_pos (div_pos (peak_pos (nonzero_of_peak zero.1)) (by norm_num))
        (lt_of_lt_of_le (by norm_num) (gridLen_ge (nonzero_of_peak zero.1)))
    have qLong : 0 < len (range sh.dim) q := by
      rw [len_scaled]
      exact mul_pos (div_pos (peak_pos (nonzero_of_peak zero.2)) (by norm_num))
        (lt_of_lt_of_le (by norm_num) (gridLen_ge (nonzero_of_peak zero.2)))
    have whole : 0 < len (range sh.dim) v * len (range sh.dim) q := mul_pos long qLong
    rw [product, length, from_.norm]
    simp only [positive, not_le.mpr scale, not_le.mpr qScale, not_le.mpr long, not_le.mpr qLong,
      decide_false, Bool.or_false, Bool.false_eq_true, if_false]
    have quotient : roundedDot v q sh.dim *
        (FloatArith.ofInt 1 / len (range sh.dim) q / len (range sh.dim) v) =
        roundedDot v q sh.dim / (len (range sh.dim) v * len (range sh.dim) q) := by
      rw [ofInt_real, Int.cast_one, div_div, mul_one_div, mul_comm (len _ q)]
    have exact_ : similarity v q sh.dim =
        (∑ i ∈ range sh.dim, v i * q i) / (len (range sh.dim) v * len (range sh.dim) q) := rfl
    rw [quotient, exact_, ← sub_div, abs_div, abs_of_pos whole, div_le_iff₀ whole,
      mul_comm (relLoss _)]
    exact near

theorem euclidean_near (int8 : sh.dtype = .int8) (hdim : sh.dim ≤ 65536)
    (from_ : QuantizedFrom sh v x) :
    |entryScore sh .euclidean q sh.dim x - sqDist v q sh.dim| ≤
      2 * (len (range sh.dim) v * len (range sh.dim) q * relLoss sh.dim) := by
  have product := product_rounded (q := q) hdim from_
  have length : l2NormF32 q sh.dim = len (range sh.dim) q := l2NormF32_real q sh.dim
  have square (w : Nat → ℝ) : len (range sh.dim) w * len (range sh.dim) w =
      ∑ i ∈ range sh.dim, w i ^ 2 := Real.mul_self_sqrt sqNorm_nonneg
  have expanded : sqDist v q sh.dim = ∑ i ∈ range sh.dim, v i ^ 2 + ∑ i ∈ range sh.dim, q i ^ 2 -
      2 * ∑ i ∈ range sh.dim, v i * q i := by
    rw [sqDist, mul_sum, ← sum_add_distrib, ← sum_sub_distrib]
    apply sum_congr rfl
    intro i _
    ring
  have near := abs_le.mp (roundedDot_near v q sh.dim)
  have nonneg : 0 ≤ sqDist v q sh.dim := sqDist_nonneg
  simp only [entryScore, int8, euclideanSqI8]
  rw [product, length, from_.norm, square, square, ofInt_real, Int.cast_ofNat]
  simp only [lt_real]
  -- clamping at zero comes nearer to a distance that is not negative
  split
  · rename_i negative
    rw [abs_le]
    constructor
    · linarith [near.1, near.2]
    · linarith [near.1, near.2]
  · rw [abs_le]
    constructor
    · linarith [near.1, near.2]
    · linarith [near.1, near.2]

/-- **The error of a score.** -/
theorem score_near (m : Metric) (int8 : sh.dtype = .int8) (hdim : sh.dim ≤ 65536)
    (from_ : QuantizedFrom sh v x) :
    |entryScore sh m q sh.dim x - m.exact v q sh.dim| ≤ m.loss v q sh.dim := by
  cases m with
  | cosine => exact cosine_near int8 hdim from_
  | euclidean => exact euclidean_near int8 hdim from_

end

/-! ## Runs -/

/-- A vector as a client passes it. -/
structure Sample (F : Type) where
  ts : Int64
  vec : Nat → F

/-- The vectors that a call's arguments hold for sensor `s`. -/
def Call.samples {F : Type} (s : SensorId) : Call F → List (Sample F)
  | .append id ts (some vec) _ _ => if id = some s.bytes then [⟨ts, vec⟩] else []
  | .appendBatch id (some ts) (some vecs) count dim _ =>
    if id = some s.bytes then (List.range count).map fun i => ⟨ts i, fun j => vecs (i * dim + j)⟩
    else []
  | _ => []

/-- What a run appended to `s`, in order: the vectors of the calls that returned `ok`. -/
def Engine.samples {F : Type} [FloatArith F] :
    List (Env F × Call F) → Engine F → SensorId → List (Sample F)
  | [], _, _ => []
  | (env, c) :: rest, e, s =>
    (if (e.call env c).1 = .ok then c.samples s else []) ++ samples rest (e.call env c).2 s

/-- The entry is what `Append` makes of the vector. -/
structure SampleOf (sh : RingShape) (v : Sample ℝ) (x : Entry ℝ) : Prop where
  ts : x.ts = v.ts
  quantized : QuantizedFrom sh v.vec x

section
variable {r : SensorRing ℝ} {e : Engine ℝ} {env : Env ℝ} {s : SensorId} {c : Call ℝ}

theorem ingested_sample (int8 : r.shape.dtype = .int8) (ts : Int64) (v : Nat → ℝ)
    (payload : Option (Nat → UInt8)) :
    SampleOf r.shape ⟨ts, v⟩ (r.ingested ts v r.shape.dim payload) where
  ts := by
    simp only [SensorRing.ingested]
    split
    · rfl
    · rfl
  quantized :=
    { component := fun _ hi => ingested_component int8 ts v payload hi
      scale := ingested_scale int8 ts v payload
      norm := ingested_norm r ts v r.shape.dim payload }

theorem ingestedAll_samples (int8 : r.shape.dtype = .int8) (rows : List (Engine.BatchRow ℝ)) :
    List.Forall₂ (SampleOf r.shape) (rows.map fun b => ⟨b.ts, b.vec⟩)
      (Engine.ingestedAll r.shape.dim rows r) := by
  induction rows generalizing r with
  | nil => exact .nil
  | cons b rest ih =>
    have shape := SensorRing.ingest_shape (r := r) b.ts b.vec r.shape.dim b.payload
    have rest := ih (r := r.ingest b.ts b.vec r.shape.dim b.payload) (by rw [shape]; exact int8)
    rw [shape] at rest
    exact .cons (ingested_sample int8 b.ts b.vec b.payload) rest

theorem samples_none (none : ¬ c.Brings s) : c.samples s = [] := by
  unfold Call.samples
  split
  · exact if_neg (Engine.append_elsewhere none)
  · split
    · rename_i named
      rw [Engine.batch_empty none named]
      rfl
    · rfl
  · rfl

/-- A call that brings rows and returns `ok` has vectors of the schema's dimension. -/
theorem append_dim {ts : Int64} {vec : Nat → ℝ} {dim : Nat} {payload : Option (Nat → UInt8)}
    (returned : (e.call env (.append (some s.bytes) ts (some vec) dim payload)).1 = .ok) :
    dim = e.cfg.dim.toNat := by
  simp only [Engine.call, Engine.chronosvAppend, withSensor, SensorId.parse_bytes,
    Engine.append] at returned
  by_contra other
  split at returned
  · cases returned
  · split at returned
    · cases returned
    · cases returned

theorem appendBatch_dim {ts : Nat → Int64} {vecs : Nat → ℝ} {count dim : Nat} (pos : 0 < count)
    {payloads : Option (Nat → UInt8)}
    (returned : (e.call env (.appendBatch (some s.bytes) (some ts) (some vecs) count dim
      payloads)).1 = .ok) :
    dim = e.cfg.dim.toNat := by
  have rows : count ≠ 0 := Nat.ne_of_gt pos
  simp only [Engine.call, Engine.chronosvAppendBatch, withSensor, SensorId.parse_bytes, rows,
    if_false, Option.isNone_some, Bool.false_eq_true, or_self, Engine.appendBatch] at returned
  by_contra other
  split at returned
  · cases returned
  · split at returned
    · cases returned
    · cases returned

/-- What lands in a ring is what the call passed. -/
theorem landing_samples (int8 : e.cfg.shape.dtype = .int8) (shape : r.shape = e.cfg.shape)
    (returned : (e.call env c).1 = .ok) :
    List.Forall₂ (SampleOf e.cfg.shape) (c.samples s) (e.landing s r c) := by
  have dtype : r.shape.dtype = .int8 := by rw [shape, int8]
  have wide : r.shape.dim = e.cfg.dim.toNat := by rw [shape]; rfl
  by_cases brings : c.Brings s
  · cases brings with
    | append ts vec dim payload =>
      have fits := append_dim returned
      rw [← wide] at fits
      subst fits
      simp only [Engine.landing, Call.samples, if_true, ← shape]
      exact .cons (ingested_sample dtype ts vec payload) .nil
    | @appendBatch ts vecs count pos dim payloads =>
      have fits := appendBatch_dim pos returned
      rw [← wide] at fits
      subst fits
      simp only [Engine.landing, Call.samples, if_true, ← shape]
      have all := ingestedAll_samples dtype ((List.range count).map
        (Engine.batchRow ts vecs r.shape.dim e.cfg.payloadSizeBytes.toNat payloads))
      rw [List.map_map] at all
      exact all
  · rw [Engine.landing_none brings, samples_none brings]
    exact .nil

theorem appended_samples (ok : e.Ok) (int8 : e.cfg.shape.dtype = .int8) (c : Call ℝ) :
    List.Forall₂ (SampleOf e.cfg.shape)
      (if (e.call env c).1 = .ok then c.samples s else []) (e.appended env c s) := by
  by_cases returned : (e.call env c).1 = .ok
  · simp only [Engine.appended, returned, if_true]
    split
    · rename_i failed
      have none : c.samples s = [] := by
        apply samples_none
        intro brings
        obtain ⟨e', r, found⟩ := Engine.ring_of_brings brings returned
        rw [failed] at found
        cases found
      rw [none]
      exact .nil
    · rename_i e' r found
      have att := Engine.getOrCreateRing_attached ok found
      obtain ⟨shape, -⟩ := att.ok s r (by simp [Engine.ring_eq att.slot])
      exact landing_samples int8 (shape.trans (by rw [att.cfg])) returned
  · rw [if_neg returned, Engine.appended_failed returned]
    exact .nil

theorem run_quantized (ok : e.Ok) (int8 : e.cfg.shape.dtype = .int8)
    (steps : List (Env ℝ × Call ℝ)) :
    List.Forall₂ (SampleOf e.cfg.shape) (Engine.samples steps e s) (Engine.history steps e s) := by
  induction steps generalizing e with
  | nil => exact .nil
  | cons x rest ih =>
    have frame := Engine.call_frame ok x.1 x.2
    have later := ih frame.ok (by rw [frame.shape, int8])
    rw [frame.shape] at later
    exact List.rel_append (appended_samples ok int8 x.2) later

end

/-- What a query's rows say about the vectors of the window: `best` are those of
the rows, and `left` the others. -/
structure NearRanking (m : Metric) (q : Nat → ℝ) (dim : Nat) (rows : List (Int64 × ℝ))
    (best left : List (Sample ℝ)) : Prop where
  rows : List.Forall₂ (fun v row => row.1 = v.ts ∧
    |row.2 - m.exact v.vec q dim| ≤ m.loss v.vec q dim) best rows
  sorted : best.Pairwise fun v w => m.ahead (m.exact w.vec q dim) (m.exact v.vec q dim) ≤
    m.loss w.vec q dim + m.loss v.vec q dim
  top : ∀ v ∈ best, ∀ w ∈ left, m.ahead (m.exact w.vec q dim) (m.exact v.vec q dim) ≤
    m.loss w.vec q dim + m.loss v.vec q dim

section
variable {m : Metric} {q : Nat → ℝ} {sh : RingShape} {v w : Sample ℝ} {x y : Entry ℝ}

/-- Two entries in the right order are vectors in nearly the right order. -/
theorem ahead_near (int8 : sh.dtype = .int8) (hdim : sh.dim ≤ 65536) (ofV : SampleOf sh v x)
    (ofW : SampleOf sh w y)
    (order : m.better (entryScore sh m q sh.dim y) (entryScore sh m q sh.dim x) = false) :
    m.ahead (m.exact w.vec q sh.dim) (m.exact v.vec q sh.dim) ≤
      m.loss w.vec q sh.dim + m.loss v.vec q sh.dim := by
  have nearV := abs_le.mp (score_near m int8 hdim ofV.quantized (q := q))
  have nearW := abs_le.mp (score_near m int8 hdim ofW.quantized (q := q))
  cases m with
  | cosine =>
    have order := not_lt.mp (of_decide_eq_false order)
    simp only [Metric.ahead]
    linarith [nearV.1, nearV.2, nearW.1, nearW.2]
  | euclidean =>
    have order := not_lt.mp (of_decide_eq_false order)
    simp only [Metric.ahead]
    linarith [nearV.1, nearV.2, nearW.1, nearW.2]

theorem exists_partner {α β : Type} {R : α → β → Prop} {as : List α} {bs : List β} {a : α}
    (matched : List.Forall₂ R as bs) (mem : a ∈ as) : ∃ b ∈ bs, R a b := by
  induction matched with
  | nil => cases mem
  | cons first rest ih =>
    obtain rfl | mem := List.mem_cons.mp mem
    · exact ⟨_, List.mem_cons_self, first⟩
    · obtain ⟨b, hb, of⟩ := ih mem
      exact ⟨b, List.mem_cons_of_mem _ hb, of⟩

theorem pairwise_partners {α β : Type} {R : α → β → Prop} {S : α → α → Prop} {T : β → β → Prop}
    {as : List α} {bs : List β} (matched : List.Forall₂ R as bs)
    (carries : ∀ a a' b b', R a b → R a' b' → T b b' → S a a') (sorted : bs.Pairwise T) :
    as.Pairwise S := by
  induction matched with
  | nil => exact .nil
  | cons first rest ih =>
    obtain ⟨head, tail⟩ := List.pairwise_cons.mp sorted
    apply List.Pairwise.cons
    · intro a ha
      obtain ⟨b, hb, of⟩ := exists_partner rest ha
      exact carries _ _ _ _ first of (head b hb)
    · exact ih tail

/-- The best of a window rank the vectors it was made of. -/
theorem TopN.near {window best left : List (Entry ℝ)} {samples : List (Sample ℝ)} {n : Nat}
    (top : TopN m.better (entryScore sh m q sh.dim) n window best left)
    (int8 : sh.dtype = .int8) (hdim : sh.dim ≤ 65536)
    (made : List.Forall₂ (SampleOf sh) samples window) :
    ∃ vBest vLeft, (vBest ++ vLeft).Perm samples ∧
      NearRanking m q sh.dim (best.map fun x => (x.ts, entryScore sh m q sh.dim x)) vBest vLeft := by
  obtain ⟨vs, matched, perm⟩ := List.perm_comp_forall₂ (r := flip (SampleOf sh)) top.split made.flip
  have ofBest := List.forall₂_take_append _ _ _ matched.flip
  have ofLeft := List.forall₂_drop_append _ _ _ matched.flip
  refine ⟨vs.take best.length, vs.drop best.length, ?_, ?_, ?_, ?_⟩
  · rw [List.take_append_drop]
    exact perm
  · rw [List.forall₂_map_right_iff]
    exact ofBest.imp fun v x of => ⟨of.ts, score_near m int8 hdim of.quantized⟩
  · exact pairwise_partners ofBest
      (fun _ _ _ _ ofV ofW order => ahead_near int8 hdim ofV ofW order) top.sorted
  · intro v hv w hw
    obtain ⟨x, hx, ofV⟩ := exists_partner ofBest hv
    obtain ⟨y, hy, ofW⟩ := exists_partner ofLeft hw
    exact ahead_near int8 hdim ofV ofW (top.top x hx y hy)

end

/-- The rows of a query are the best of the window by its scores. -/
theorem Engine.query_top {std : HeapOps (ℝ × Nat)}
    {Heap : (ℝ × Nat → ℝ × Nat → Bool) → List (ℝ × Nat) → Prop} (contract : std.Standard Heap)
    {e : Engine ℝ} {s : SensorId} {r : SensorRing ℝ} {q : Nat → ℝ} {dim : Nat} {n : Int}
    (opened : e.closed = false) (fits : dim = e.cfg.dim.toNat) (pos : 0 < n)
    (found : e.ring s = some r) (some_ : 0 < r.window.length) (small : r.window.length < 2 ^ 31) :
    ∃ best left, TopN e.cfg.metric.better (entryScore r.shape e.cfg.metric q dim) n.toNat
        r.window best left ∧
      (e.queryNearestNBy std s (some q) dim n true).2.1 =
        some (best.map fun x => (x.ts, entryScore r.shape e.cfg.metric q dim x)) := by
  have size : r.snapshot.2 - r.snapshot.1 = r.window.length := SensorRing.window_length.symm
  have ordered : StrictWeak FloatArith.lt
      (r.window.map (entryScore r.shape e.cfg.metric q dim)) := strictWeak_of_linear fun _ _ => rfl
  obtain ⟨best, left, top, rows⟩ := selectTopKBy_top contract
    (lt_min pos (Int.natCast_pos.mpr some_)) (better_weak ordered)
  have length : best.length = min n.toNat r.window.length := by
    have := top.length
    omega
  refine ⟨best, left, { top with length := length }, ?_⟩
  obtain ⟨⟨_, next⟩, lookup, rfl⟩ := Option.bind_eq_some_iff.mp found
  have scores := fillScores_window r e.cfg.metric q dim
  rw [size] at scores
  rw [← scores] at rows
  have valid : ¬ (n ≤ 0 ∨ true = false) := by
    simpa using pos
  simp only [Engine.queryNearestNBy, opened, Bool.false_eq_true, if_false, ← fits, ne_eq,
    not_true_eq_false, lookup, size, wrapInt32_of_lt small, ← rows]
  rw [if_neg valid, if_neg (Nat.ne_of_gt some_)]
  rfl

/-- **Queries on quantized vectors.** After any run that has not dropped the
sensor, a query on an INT8 ring returns a score within the loss for each of
`min n` vectors of the window, and no vector of the window that ranks lower, or
is left out, is ahead of one that ranks higher by more than the losses of both. -/
theorem Engine.int8_query_near {std : HeapOps (ℝ × Nat)}
    {Heap : (ℝ × Nat → ℝ × Nat → Bool) → List (ℝ × Nat) → Prop} (contract : std.Standard Heap)
    {env₀ : Env ℝ} {cfgIn : Config} {path : Option (ColdTier ℝ)} {e₀ : Engine ℝ} {s : SensorId}
    (created : Engine.create env₀ cfgIn path = .ok e₀) (int8 : e₀.cfg.shape.dtype = .int8)
    {steps : List (Env ℝ × Call ℝ)} (noDrop : ∀ x ∈ steps, x.2.drops s = false)
    {r : SensorRing ℝ} {q : Nat → ℝ} {n : Int} (opened : (Engine.run steps e₀).closed = false)
    (pos : 0 < n) (found : (Engine.run steps e₀).ring s = some r)
    (some_ : 0 < r.window.length) (small : r.window.length < 2 ^ 31) :
    let e := Engine.run steps e₀
    let dim := e₀.cfg.dim.toNat
    ∃ rows best left, (e.queryNearestNBy std s (some q) dim n true).2.1 = some rows ∧
      rows.length = min n.toNat r.window.length ∧
      (best ++ left).Perm ((Engine.samples steps e₀ s).drop r.snapshot.1) ∧
      NearRanking e.cfg.metric q dim rows best left := by
  intro e dim
  have ok := (Engine.create_start created).1
  have frame := Engine.run_frame steps ok
  have shape : r.shape = e₀.cfg.shape := (frame.ok s r found).1.trans frame.shape
  have wide : dim = e.cfg.dim.toNat := congrArg RingShape.dim frame.shape.symm
  have hot : (e.tier s).hot = r.queue := by
    simp only [Engine.tier, e, found]
  have kept : (Engine.history steps e₀ s).drop r.snapshot.1 = r.window := by
    have suffix := run_suffix created noDrop
    rw [hot] at suffix
    exact suffix.1.symm
  have made := List.forall₂_drop r.snapshot.1 (run_quantized ok int8 steps (s := s))
  rw [kept] at made
  obtain ⟨best, left, top, answer⟩ :=
    Engine.query_top contract (q := q) opened wide pos found some_ small
  rw [shape] at top answer
  obtain ⟨vBest, vLeft, perm, ranking⟩ := top.near int8 e₀.cfg.dim_le made
  refine ⟨_, vBest, vLeft, answer, ?_, perm, ranking⟩
  rw [List.length_map, top.length]

/-- The engine that `int8Config` creates in memory, over the real numbers. -/
noncomputable def realInt8 : Engine ℝ := .init Engine.int8Valid Engine.int8Config.uuid .null

theorem realInt8_created : Engine.create (.calm ℝ 0) Engine.int8Config none = .ok realInt8 := rfl

/-- Two vectors, the diagonal and the second unit. -/
noncomputable def twoVectors : List (Env ℝ × Call ℝ) :=
  [(.calm ℝ 0, .appendBatch (some sensorA.bytes) (some Int64.ofNat)
    (some fun i => if i = 2 then 0 else 1) 2 2 none)]

theorem twoVectors_ring : ∃ r, (Engine.run twoVectors realInt8).ring sensorA = some r ∧
    r.snapshot.1 = 0 ∧ r.window.length = 2 := ⟨_, rfl, rfl, SensorRing.window_length⟩

/-- The query for the second unit asks for one of the two. -/
theorem twoVectors_near : ∃ rows best left,
    ((Engine.run twoVectors realInt8).queryNearestNBy .ordered sensorA
      (some fun j => if j = 1 then 1 else 0) 2 1 true).2.1 = some rows ∧ rows.length = 1 ∧
    (best ++ left).Perm (Engine.samples twoVectors realInt8 sensorA) ∧
    NearRanking .cosine (fun j => if j = 1 then 1 else 0) 2 rows best left := by
  obtain ⟨r, found, first, length⟩ := twoVectors_ring
  obtain ⟨rows, best, left, answer, one, perm, near⟩ := Engine.int8_query_near
    HeapOps.ordered_standard realInt8_created rfl (by simp [twoVectors]; rfl) rfl Int.one_pos found
    (by omega) (by omega)
  rw [first] at perm
  exact ⟨rows, best, left, answer, by omega, perm, near⟩

end ChronosVector
