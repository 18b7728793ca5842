import ChronosVector.Detections
import ChronosVector.OwnCalls
import ChronosVector.QueryRace

/-!
# Answers by window

Where a window lies in its ring, how often the ring has wrapped and what its other
slots hold, does not show in an answer.

* `Engine.SameWindow`: two engines with the same schema and, for one sensor, the
  same window;
* `topRows_congr`, `scanRange_congr`, `anomalyDistance_congr`: the three loops;
* `answers_by_window`: in FLOAT32 the two queries of the sensor get the same answer,
  to the bit, and so does a detection where both windows wrap at the same entry.
-/

namespace ChronosVector

variable {F : Type}

/-- The engines differ for `s` at most in where its window lies. -/
structure Engine.SameWindow (s : SensorId) (e e' : Engine F) : Prop where
  closed : e'.closed = e.closed
  shape : e'.cfg.shape = e.cfg.shape
  metric : e'.cfg.metric = e.cfg.metric
  window : (e'.sensors.lookup s).map (fun slot => slot.ring.map SensorRing.window) =
    (e.sensors.lookup s).map (fun slot => slot.ring.map SensorRing.window)

/-- Both rings of one shape hold the same window. -/
structure SensorRing.SameWindow (r r' : SensorRing F) : Prop where
  shape : r'.shape = r.shape
  window : r'.window = r.window

namespace SensorRing.SameWindow

variable {r r' : SensorRing F}

theorem size (h : r.SameWindow r') :
    r'.snapshot.2 - r'.snapshot.1 = r.snapshot.2 - r.snapshot.1 := by
  rw [← window_length, ← window_length, h.window]

theorem entry (h : r.SameWindow r') {i : Nat} (inside : i < r.snapshot.2 - r.snapshot.1) :
    r'.entryAt (r'.snapshot.1 + i) = r.entryAt (r.snapshot.1 + i) := by
  have there := congrArg (fun l : List (Entry F) => l[i]?) h.window
  have inside' := h.size.symm ▸ inside
  simpa [SensorRing.window, inside, inside'] using there

end SensorRing.SameWindow

variable [FloatArith F] {r r' : SensorRing F}

/-! ## The three loops -/

/-- The loop of `QueryRange` over the same entries. -/
theorem scanRange_congr (float : r.shape.dtype = .float32) (float' : r'.shape.dtype = .float32)
    (tStart tEnd : Int64) (max : Nat) {b b' n : Nat}
    (same : ∀ i < n, r'.entryAt (b' + i) = r.entryAt (b + i)) (sc : RangeScan F) :
    scanRange r' tStart tEnd max b' n sc = scanRange r tStart tEnd max b n sc := by
  induction n generalizing b b' sc with
  | zero => rfl
  | succ n ih =>
    have here : r'.entryAt b' = r.entryAt b := same 0 (Nat.succ_pos n)
    have reading := congrArg Entry.reading here
    rw [← floatsAt_eq float', ← floatsAt_eq float] at reading
    obtain ⟨ts, floats⟩ := Prod.mk.inj reading
    have rest : ∀ i < n, r'.entryAt (b' + 1 + i) = r.entryAt (b + 1 + i) := by
      intro i hi
      have next := same (i + 1) (Nat.succ_lt_succ hi)
      rwa [← Nat.add_assoc, ← Nat.add_assoc, Nat.add_right_comm, Nat.add_right_comm b] at next
    simp only [scanRange, ts, floats, ih rest]

theorem anomalyDistance_congr (m : Metric) (mean mean' v : Nat → F) {dim : Nat}
    (same : ∀ j < dim, mean' j = mean j) :
    Engine.anomalyDistance m mean' v dim = Engine.anomalyDistance m mean v dim := by
  have products : dot mean' v dim = dot mean v dim := dot_congr same
  have squares : dot mean' mean' dim = dot mean mean dim := by
    apply List.foldl_ext
    intro acc j hj
    rw [same j (List.mem_range.mp hj)]
  have norm : l2NormF32 mean' dim = l2NormF32 mean dim := congrArg FloatArith.sqrt squares
  have cosine (a b : F) : cosineF32 mean' a dim v b = cosineF32 mean a dim v b := by
    rw [cosineF32, cosineF32, products]
  have euclidean (a b : F) : euclideanSqF32 mean' a dim v b = euclideanSqF32 mean a dim v b := by
    rw [euclideanSqF32, euclideanSqF32, products]
  cases m with
  | cosine => rw [Engine.anomalyDistance, Engine.anomalyDistance, norm, cosine]
  | euclidean => rw [Engine.anomalyDistance, Engine.anomalyDistance, norm, euclidean]

/-- The rows of `QueryNearestN`: the selected scores with their timestamps. -/
theorem topRows_congr (h : r.SameWindow r') (m : Metric) (q : Nat → F) (dim : Nat) (take : Int) :
    ((selectTopK m.better take (r'.window.map (entryScore r'.shape m q dim))).map fun p =>
        (r'.timestampAt (r'.snapshot.1 + p.2), p.1)) =
      (selectTopK m.better take (r.window.map (entryScore r.shape m q dim))).map fun p =>
        (r.timestampAt (r.snapshot.1 + p.2), p.1) := by
  rw [h.window, h.shape]
  apply List.map_congr_left
  intro p hp
  have inside := (List.getElem?_eq_some_iff.mp (mem_selectTopK hp)).1
  rw [List.length_map, SensorRing.window_length] at inside
  have ts := congrArg (fun x : Entry F => x.ts) (h.entry inside)
  exact congrArg (fun t => (t, p.1)) ts

/-! ## The queries -/

namespace Engine

variable {e e' : Engine F} {s : SensorId}

omit [FloatArith F] in
/-- What both engines have of the sensor. -/
theorem SameWindow.lookup (h : e.SameWindow s e') (ok : e.Ok) (ok' : e'.Ok) :
    (e.sensors.lookup s = none ∧ e'.sensors.lookup s = none) ∨
    (∃ next next', e.sensors.lookup s = some ⟨none, next⟩ ∧
      e'.sensors.lookup s = some ⟨none, next'⟩) ∨
    ∃ r r' next next', e.sensors.lookup s = some ⟨some r, next⟩ ∧
      e'.sensors.lookup s = some ⟨some r', next'⟩ ∧ r.shape = e.cfg.shape ∧ r.SameWindow r' := by
  have window := h.window
  cases found : e.sensors.lookup s with
  | none =>
    rw [found, Option.map_none, Option.map_eq_none_iff] at window
    exact .inl ⟨rfl, window⟩
  | some slot =>
    rw [found, Option.map_some, Option.map_eq_some_iff] at window
    obtain ⟨⟨ring', next'⟩, found', same⟩ := window
    obtain ⟨ring, next⟩ := slot
    cases ring with
    | none =>
      obtain rfl : ring' = none := by simpa using same
      exact .inr (.inl ⟨next, next', rfl, found'⟩)
    | some r =>
      obtain ⟨r', rfl, view⟩ := Option.map_eq_some_iff.mp same
      have shape := (ok s r (ring_eq found)).1
      have shape' := (ok' s r' (ring_eq found')).1
      exact .inr (.inr ⟨r, r', next, next', rfl, found', shape,
        shape'.trans (h.shape.trans shape.symm), view⟩)

theorem SameWindow.nearest (h : e.SameWindow s e') (ok : e.Ok) (ok' : e'.Ok)
    (target : Option (Nat → F)) (dim : Nat) (n : Int) (outs : Bool) :
    (e'.queryNearestN s target dim n outs).1 = (e.queryNearestN s target dim n outs).1 ∧
      (e'.queryNearestN s target dim n outs).2.1 = (e.queryNearestN s target dim n outs).2.1 := by
  have dims : e'.cfg.dim.toNat = e.cfg.dim.toNat := congrArg RingShape.dim h.shape
  simp only [queryNearestN, h.closed, dims, h.metric]
  split
  · exact ⟨rfl, rfl⟩
  split
  · exact ⟨rfl, rfl⟩
  split
  · exact ⟨rfl, rfl⟩
  rename_i q
  split
  · exact ⟨rfl, rfl⟩
  obtain ⟨none, none'⟩ | ⟨next, next', found, found'⟩ |
    ⟨r, r', next, next', found, found', -, same⟩ := h.lookup ok ok'
  · simp only [none, none', and_self]
  · simp only [found, found', and_self]
  · have scores := fillScores_window r e.cfg.metric q dim
    have scores' := fillScores_window r' e.cfg.metric q dim
    rw [same.size] at scores'
    simp only [int8Query] at scores scores'
    simp only [found, found', same.size, scores, scores']
    split
    · exact ⟨rfl, rfl⟩
    · exact ⟨rfl, congrArg some (topRows_congr same _ _ _ _)⟩

theorem SameWindow.range (h : e.SameWindow s e') (ok : e.Ok) (ok' : e'.Ok)
    (float : e.cfg.shape.dtype = .float32) (tStart tEnd : Int64) (max : Int) (outs : Bool) :
    (e'.queryRange s tStart tEnd max outs).1 = (e.queryRange s tStart tEnd max outs).1 ∧
      (e'.queryRange s tStart tEnd max outs).2.1 = (e.queryRange s tStart tEnd max outs).2.1 := by
  simp only [queryRange, h.closed]
  split
  · exact ⟨rfl, rfl⟩
  split
  · exact ⟨rfl, rfl⟩
  split
  · exact ⟨rfl, rfl⟩
  obtain ⟨none, none'⟩ | ⟨next, next', found, found'⟩ |
    ⟨r, r', next, next', found, found', shape, same⟩ := h.lookup ok ok'
  · simp only [none, none', and_self]
  · simp only [found, found', and_self]
  · rw [← shape] at float
    have scanned := scanRange_congr float (same.shape ▸ float) tStart tEnd max.toNat
      (fun i hi => same.entry hi) ⟨[], Int64.maxValue⟩
    simp only [found, found', same.size, scanned, and_self]

omit [FloatArith F] in
/-- How many entries of the sensor's window are in the first chunk. -/
def firstLen (e : Engine F) (s : SensorId) : Nat :=
  match e.ring s with
  | none => 0
  | some r => r.firstLen

omit [FloatArith F] in
theorem firstLen_ring {next : Nat} (found : e.sensors.lookup s = some ⟨some r, next⟩) :
    e.firstLen s = r.firstLen := by
  rw [firstLen, ring_eq found]

/-- The mean is summed chunk by chunk, so a detection sees where the window wraps. -/
theorem SameWindow.anomaly (h : e.SameWindow s e') (ok : e.Ok) (ok' : e'.Ok)
    (float : e.cfg.shape.dtype = .float32) (wrap : e'.firstLen s = e.firstLen s)
    (v : Option (Nat → F)) (dim : Nat) (threshold : F) (outs : Bool) :
    (e'.detectAnomaly s v dim threshold outs).1 = (e.detectAnomaly s v dim threshold outs).1 ∧
      (e'.detectAnomaly s v dim threshold outs).2.1 =
        (e.detectAnomaly s v dim threshold outs).2.1 := by
  have dims : e'.cfg.dim.toNat = e.cfg.dim.toNat := congrArg RingShape.dim h.shape
  simp only [detectAnomaly, h.closed, dims, h.metric]
  split
  · exact ⟨rfl, rfl⟩
  split
  · exact ⟨rfl, rfl⟩
  rename_i fits
  split
  · exact ⟨rfl, rfl⟩
  rename_i v
  split
  · exact ⟨rfl, rfl⟩
  obtain ⟨none, none'⟩ | ⟨next, next', found, found'⟩ |
    ⟨r, r', next, next', found, found', shape, same⟩ := h.lookup ok ok'
  · simp only [none, none', and_self]
  · simp only [found, found', and_self]
  · rw [← shape] at float
    have dims : dim = r.shape.dim := (not_not.mp fits).trans (congrArg RingShape.dim shape).symm
    rw [firstLen_ring found, firstLen_ring found'] at wrap
    have mean : ∀ j < dim, windowMean r' r'.snapshot.1 (r.snapshot.2 - r.snapshot.1) j =
        windowMean r r.snapshot.1 (r.snapshot.2 - r.snapshot.1) j := by
      intro j hj
      rw [dims] at hj
      rw [← same.size, windowMean_entries (same.shape ▸ float) (same.shape ▸ hj), same.size,
        windowMean_entries float hj, same.window, wrap]
    have distance := anomalyDistance_congr e.cfg.metric _ _ v mean
    simp only [found, found', same.size, distance]
    split <;> exact ⟨rfl, rfl⟩

deriving instance DecidableEq for Entry

end Engine

end ChronosVector
