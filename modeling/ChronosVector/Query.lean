import Mathlib.Data.List.Sort
import ChronosVector.Engine

/-!
# Queries

`QueryNearestN`, `QueryRange` and `DetectAnomaly` over the hot window. A query
changes one counter of the engine and nothing else.

Out-parameters are results: `none` is an out-parameter left as it was. The
argument `outs` says whether every out-pointer is non-null.
-/

namespace ChronosVector

variable {F : Type} [FloatArith F]

namespace SensorRing

variable (r : SensorRing F)

/-- The byte of an INT8 cell. -/
def cellByte (i : Nat) : UInt32 := (r.vectors i).int8.toUInt8.toUInt32

/-- Float `j` of the vector column read as floats from cell `start` on. In an
INT8 ring a cell is one byte, and a float spans four of them. -/
def floatFrom (start j : Nat) : F :=
  match r.shape.dtype with
  | .float32 => (r.vectors (start + j)).float
  | .int8 =>
    let a := start + 4 * j
    FloatArith.ofBits (r.cellByte a ||| (r.cellByte (a + 1) <<< 8) |||
      (r.cellByte (a + 2) <<< 16) ||| (r.cellByte (a + 3) <<< 24))

/-- The floats a `memcpy` of `dim * sizeof(float)` bytes from a slot copies. -/
def floatsAt (idx : Nat) : List F :=
  (List.range r.shape.dim).map (r.floatFrom (r.slotOf idx * r.shape.dim))

end SensorRing

/-! ## Range queries -/

/-- The locals of the loop of `QueryRange`. -/
structure RangeScan (F : Type) where
  written : List (Int64 × List F)
  oldest : Int64

/-- The loop of `QueryRange` over the `n` indices from `idx` on. -/
def scanRange (r : SensorRing F) (tStart tEnd : Int64) (max : Nat) :
    Nat → Nat → RangeScan F → RangeScan F
  | _, 0, sc => sc
  | idx, n + 1, sc =>
    if sc.written.length < max then
      let ts := r.timestampAt idx
      let oldest := if ts < sc.oldest then ts else sc.oldest
      let written :=
        if ts < tStart ∨ tEnd < ts then sc.written else sc.written ++ [(ts, r.floatsAt idx)]
      scanRange r tStart tEnd max (idx + 1) n ⟨written, oldest⟩
    else sc

/-! ## Scores -/

/-- The score of one physical slot. -/
def slotScore (r : SensorRing F) (metric : Metric) (q : Nat → F) (qn : F) (qi8 : Nat → Int8)
    (qScale : F) (slot : Nat) : F :=
  let dim := r.shape.dim
  match r.shape.dtype, metric with
  | .float32, .cosine => cosineF32 (fun j => (r.vectors (slot * dim + j)).float) (r.norms slot) dim q qn
  | .float32, .euclidean =>
    euclideanSqF32 (fun j => (r.vectors (slot * dim + j)).float) (r.norms slot) dim q qn
  | .int8, .cosine =>
    cosineI8 (fun j => (r.vectors (slot * dim + j)).int8) (r.scales slot) (r.norms slot) dim qi8
      qScale qn
  | .int8, .euclidean =>
    euclideanSqI8 (fun j => (r.vectors (slot * dim + j)).int8) (r.scales slot) (r.norms slot) dim
      qi8 qScale qn

/-- The physical slots of `n` entries from `b` on: up to two contiguous chunks. -/
def chunkSlots (r : SensorRing F) (b n : Nat) : List Nat :=
  let start := r.slotOf b
  let firstLen := min n (r.shape.capacity - start)
  List.range' start firstLen ++ List.range (n - firstLen)

/-- `FillScoresForRange`. -/
def fillScoresForRange (r : SensorRing F) (b n : Nat) (metric : Metric) (q : Nat → F) (qn : F)
    (qi8 : Nat → Int8) (qScale : F) : List F :=
  (chunkSlots r b n).map (slotScore r metric q qn qi8 qScale)

/-- Whether score `a` ranks before `b`. -/
def Metric.better (m : Metric) (a b : F) : Bool :=
  match m with
  | .cosine => FloatArith.lt b a
  | .euclidean => FloatArith.lt a b

/-- `push_heap` on a heap kept worst first. Among equal scores, whose order the
standard leaves open, the new one goes last. -/
def heapPush (better : F → F → Bool) (p : F × Nat) : List (F × Nat) → List (F × Nat)
  | [] => [p]
  | a :: rest => if better a.1 p.1 then p :: a :: rest else a :: heapPush better p rest

/-- One turn of the selection loop. A full heap that is empty has no front to
compare with; the source would read past it. -/
def topkStep (better : F → F → Bool) (take : Int) (heap : List (F × Nat)) (p : F × Nat) :
    List (F × Nat) :=
  if (heap.length : Int) < take then heapPush better p heap
  else
    match heap with
    | [] => []
    | worst :: rest => if better p.1 worst.1 then heapPush better p rest else worst :: rest

/-- The selection loop and the final sort, best first. -/
def selectTopK (better : F → F → Bool) (take : Int) (scores : List F) : List (F × Nat) :=
  (scores.zipIdx.foldl (topkStep better take) []).insertionSort fun a b => better a.1 b.1

/-! ## The three calls -/

namespace Engine

variable (e : Engine F)

def countQuery : Engine F := { e with totalQueries := e.totalQueries + 1 }

def countAnomalyCheck : Engine F := { e with totalAnomalyChecks := e.totalAnomalyChecks + 1 }

def queryNearestN (s : SensorId) (target : Option (Nat → F)) (dim : Nat) (n : Int)
    (outs : Bool) : ErrorCode × Option (List (Int64 × F)) × Engine F :=
  if e.closed then (.closed, none, e)
  else if dim ≠ e.cfg.dim.toNat then (.dimMismatch, none, e)
  else
    match target with
    | none => (.invalidArg, none, e)
    | some q =>
      if n ≤ 0 ∨ outs = false then (.invalidArg, none, e)
      else
        match e.sensors.lookup s with
        | none => (.notFound, some [], e)
        | some ⟨none, _⟩ => (.warnPartialResult, some [], e)
        | some ⟨some r, _⟩ =>
          let (b, end_) := r.snapshot
          let size := end_ - b
          if size = 0 then (.warnPartialResult, some [], e)
          else
            let qn := l2NormF32 q dim
            let (qi8, qScale) :=
              if r.shape.dtype = .int8 then quantizeF32ToI8 q dim else (fun _ => 0, 0)
            let scores := fillScoresForRange r b size e.cfg.metric q qn qi8 qScale
            let take := min n (wrapInt32 size)
            let rows := (selectTopK e.cfg.metric.better take scores).map fun p =>
              (r.timestampAt (b + p.2), p.1)
            (if take < n then .warnPartialResult else .ok, some rows, e.countQuery)

def queryRange (s : SensorId) (tStart tEnd : Int64) (max : Int) (outs : Bool) :
    ErrorCode × Option (List (Int64 × List F)) × Engine F :=
  if e.closed then (.closed, none, e)
  else if max ≤ 0 ∨ outs = false then (.invalidArg, none, e)
  else if tEnd < tStart then (.invalidArg, none, e)
  else
    match e.sensors.lookup s with
    | none => (.notFound, some [], e)
    | some ⟨none, _⟩ => (.ok, some [], e)
    | some ⟨some r, _⟩ =>
      let (b, end_) := r.snapshot
      let sc := scanRange r tStart tEnd max.toNat b (end_ - b) ⟨[], Int64.maxValue⟩
      (if 0 < end_ - b ∧ tStart < sc.oldest then .warnRangeTruncated else .ok,
        some sc.written, e.countQuery)

/-- `W.rowwise().sum()` over a chunk, read through the vector column as floats. In
which order the sum adds them is left to the library. -/
def chunkSum (r : SensorRing F) (slots : List Nat) (j : Nat) : F :=
  slots.foldl (fun acc slot => acc + r.floatFrom 0 (slot * r.shape.dim + j)) 0

/-- The mean of the window: the sum of each chunk is added to the zeroed buffer, the
second one where the window wraps. -/
def windowMean (r : SensorRing F) (b n j : Nat) : F :=
  let start := r.slotOf b
  let firstLen := min n (r.shape.capacity - start)
  let mean := 0 + chunkSum r (List.range' start firstLen) j
  let mean := if firstLen < n then mean + chunkSum r (List.range (n - firstLen)) j else mean
  mean / FloatArith.ofInt n

/-- The distance between the window's mean and the candidate. -/
def anomalyDistance (metric : Metric) (mean v : Nat → F) (dim : Nat) : F :=
  match metric with
  | .cosine =>
    FloatArith.ofInt 1 - cosineF32 mean (l2NormF32 mean dim) dim v (l2NormF32 v dim)
  | .euclidean =>
    let sq := euclideanSqF32 mean (l2NormF32 mean dim) dim v (l2NormF32 v dim)
    FloatArith.sqrt (if FloatArith.lt 0 sq then sq else 0)

def detectAnomaly (s : SensorId) (v : Option (Nat → F)) (dim : Nat) (threshold : F)
    (outs : Bool) : ErrorCode × Option Bool × Engine F :=
  if e.closed then (.closed, none, e)
  else if dim ≠ e.cfg.dim.toNat then (.dimMismatch, none, e)
  else
    match v with
    | none => (.invalidArg, none, e)
    | some v =>
      if outs = false then (.invalidArg, none, e)
      else
        match e.sensors.lookup s with
        | none => (.notFound, some false, e)
        | some ⟨none, _⟩ => (.ok, some false, e)
        | some ⟨some r, _⟩ =>
          let (b, end_) := r.snapshot
          let size := end_ - b
          if size = 0 then (.ok, some false, e.countAnomalyCheck)
          else
            let distance := anomalyDistance e.cfg.metric (windowMean r b size) v dim
            (.ok, some (FloatArith.lt threshold distance), e.countAnomalyCheck)

end Engine

end ChronosVector
