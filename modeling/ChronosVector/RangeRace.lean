import ChronosVector.QueryRace
import ChronosVector.RangeQueries

/-!
# A range query against the producer

`QueryRange` takes one snapshot and then reads the ring twice for a row: its
timestamp, and if that is in the interval, its vector. The producer appends in
between.

* `RangeRace`: the ring, where the query stands, and for every row the entries its
  timestamp and its vector are from;
* `range_alone`: without the producer the steps are `Engine.queryRange`;
* `rows_whole`: a row is of one entry as long as no append reused its slot between
  the two reads, and not otherwise where the entries can be told apart.
-/

namespace ChronosVector

variable {F : Type}

structure RangeArgs where
  tStart : Int64
  tEnd : Int64
  max : Nat

/-- A row that was written: the index it was read at, the indices of the entries its
timestamp and its vector are from, and whether an append reused the slot between the
two reads. -/
structure WrittenRow (F : Type) where
  args : RangeArgs
  index : Nat
  ts : Int64
  vec : List F
  readFrom : Nat
  copiedFrom : Nat
  reused : Bool

/-- The locals of the loop: the window, the index, `written` and
`oldest_ts_in_ring`. -/
structure RangeLoop where
  args : RangeArgs
  b : Nat
  e : Nat
  idx : Nat
  written : Nat
  oldest : Int64

/-- Where the query stands: at the head of the loop, or between the two reads. -/
inductive RangePoint
  | idle
  | scanning (l : RangeLoop)
  | copying (l : RangeLoop) (ts : Int64) (readFrom : Nat) (reused : Bool)

structure RangeRace (F : Type) where
  ring : SensorRing F
  point : RangePoint
  log : List (Entry F)
  rows : List (WrittenRow F)
  codes : List ErrorCode

inductive RangeAction (F : Type)
  | append (a : AppendArgs F)
  | advanceTail (newTail : Nat)
  | snapshot (a : RangeArgs)
  | timestamp
  | copy
  | finish

/-- The condition of the loop. -/
def RangeLoop.Goes (l : RangeLoop) : Prop := l.idx < l.e ∧ l.written < l.args.max

instance (l : RangeLoop) : Decidable l.Goes := inferInstanceAs (Decidable (_ ∧ _))

/-- An append writes to the slot of `head`. -/
def RangePoint.write (r : SensorRing F) : RangePoint → RangePoint
  | .copying l ts from_ reused =>
    .copying l ts from_ (if r.slotOf l.idx = r.slotOf r.head then true else reused)
  | p => p

namespace RangeRace

/-- A ring nobody has used. -/
def start (sh : RingShape) (mem : Columns F) : RangeRace F := ⟨.new sh mem, .idle, [], [], []⟩

/-- `Append`. -/
def produce (c : RangeRace F) (a : AppendArgs F) : RangeRace F :=
  { c with
    ring := c.ring.append a.ts a.vec a.norm a.payload a.scale
    point := c.point.write c.ring
    log := c.log ++ [c.ring.stored a.ts a.vec a.norm a.payload a.scale] }

def step [FloatArith F] (c : RangeRace F) : RangeAction F → Option (RangeRace F)
  | .append a => some (c.produce a)
  | .advanceTail newTail =>
    if c.ring.tail ≤ newTail ∧ newTail ≤ c.ring.head then
      some { c with ring := c.ring.advanceTail newTail }
    else none
  | .snapshot a =>
    match c.point with
    | .idle =>
      let (b, e) := c.ring.snapshot
      some { c with point := .scanning ⟨a, b, e, b, 0, Int64.maxValue⟩ }
    | _ => none
  | .timestamp =>
    match c.point with
    | .scanning l =>
      if l.Goes then
        let ts := c.ring.timestampAt l.idx
        let oldest := if ts < l.oldest then ts else l.oldest
        if ts < l.args.tStart ∨ l.args.tEnd < ts then
          some { c with point := .scanning { l with idx := l.idx + 1, oldest := oldest } }
        else
          some
            { c with
              point := .copying { l with oldest := oldest } ts (c.ring.holder l.idx) false }
      else none
    | _ => none
  | .copy =>
    match c.point with
    | .copying l ts from_ reused =>
      some
        { c with
          point := .scanning { l with idx := l.idx + 1, written := l.written + 1 }
          rows := c.rows ++
            [⟨l.args, l.idx, ts, c.ring.floatsAt l.idx, from_, c.ring.holder l.idx, reused⟩] }
    | _ => none
  | .finish =>
    match c.point with
    | .scanning l =>
      if l.Goes then none
      else
        some
          { c with
            point := .idle
            codes := c.codes ++
              [if 0 < l.e - l.b ∧ l.args.tStart < l.oldest then .warnRangeTruncated else .ok] }
    | _ => none

abbrev run [FloatArith F] (c : RangeRace F) (acts : List (RangeAction F)) : Option (RangeRace F) :=
  Runs.run step c acts

/-! ## The invariant -/

/-- The slot of an index in reach is not written next. -/
theorem reused_lapped {r : SensorRing F} {idx : Nat} (before : idx < r.head)
    (slot : r.slotOf idx = r.slotOf r.head) : idx + r.shape.capacity ≤ r.head := by
  by_contra near
  exact SensorRing.slotOf_ne before (by omega) slot

section
variable [FloatArith F]

/-- What the query has read so far. -/
def PointInv (c : RangeRace F) : Prop :=
  match c.point with
  | .idle => True
  | .scanning l => l.e ≤ c.ring.head
  | .copying l ts from_ reused =>
    l.e ≤ c.ring.head ∧ l.idx < l.e ∧ ¬ (ts < l.args.tStart ∨ l.args.tEnd < ts) ∧
      (c.log[from_]?).map (fun x => x.ts) = some ts ∧ from_ < c.ring.head ∧
      (from_ = c.ring.holder l.idx ↔ reused = false) ∧
      (reused = true → l.idx + c.ring.shape.capacity < c.ring.head)

/-- A row that was written: its timestamp and its vector are from logged entries,
the same one exactly when the slot was not reused in between. -/
structure RowInv (sh : RingShape) (log : List (Entry F)) (p : WrittenRow F) : Prop where
  range : ¬ (p.ts < p.args.tStart ∨ p.args.tEnd < p.ts)
  ts : (log[p.readFrom]?).map (fun x => x.ts) = some p.ts
  vec : (log[p.copiedFrom]?).map (fun x => x.reading.2) = some p.vec
  reused : p.readFrom = p.copiedFrom ↔ p.reused = false
  lapped : p.reused = true → p.index + sh.capacity < log.length

structure Inv (sh : RingShape) (c : RangeRace F) : Prop where
  shape : c.ring.shape = sh
  ring : ∃ lost, Race.RingInv c.ring c.log lost
  point : c.PointInv
  rows : ∀ p ∈ c.rows, RowInv sh c.log p

variable {sh : RingShape} {c c' : RangeRace F} {p : WrittenRow F}

theorem start_inv (sh : RingShape) (mem : Columns F) : (start sh mem).Inv sh where
  shape := rfl
  ring := ⟨[], (Race.start_inv sh mem .empty).ring⟩
  point := trivial
  rows := by
    intro p hp
    cases hp

theorem RowInv.append {log : List (Entry F)} (h : RowInv sh log p) (y : Entry F) :
    RowInv sh (log ++ [y]) p := by
  obtain ⟨range, ts, vec, reused, lapped⟩ := h
  refine ⟨range, ?_, ?_, reused, fun hit => ?_⟩
  · obtain ⟨x, found, -⟩ := Option.map_eq_some_iff.mp ts
    rwa [List.getElem?_append_left (List.getElem?_eq_some_iff.mp found).1]
  · obtain ⟨x, found, -⟩ := Option.map_eq_some_iff.mp vec
    rwa [List.getElem?_append_left (List.getElem?_eq_some_iff.mp found).1]
  · rw [List.length_append, List.length_singleton]
    exact Nat.lt_succ_of_lt (lapped hit)

theorem Inv.produce (inv : c.Inv sh) (args : AppendArgs F) : (c.produce args).Inv sh := by
  obtain ⟨lost, ring⟩ := inv.ring
  have point := inv.point
  refine ⟨inv.shape, ⟨Race.lostBy c.ring lost, ring.append⟩, ?_,
    fun p hp => (inv.rows p hp).append _⟩
  simp only [PointInv, RangeRace.produce] at point ⊢
  cases at_ : c.point with
  | idle => trivial
  | scanning l =>
    rw [at_] at point
    exact Nat.le_succ_of_le point
  | copying l ts from_ reused =>
    rw [at_] at point
    obtain ⟨inside, before, range, read, old, held, lapped⟩ := point
    have grows (y : Entry F) : (c.log ++ [y])[from_]? = c.log[from_]? :=
      List.getElem?_append_left (by rw [ring.logged]; exact old)
    have reached : l.idx < c.ring.head := Nat.lt_of_lt_of_le before inside
    have holder := QueryRace.holder_append args reached
    simp only [RangePoint.write]
    refine ⟨Nat.le_succ_of_le inside, before, range, (grows _).symm ▸ read,
      Nat.lt_succ_of_lt old, ?_, ?_⟩
    · rw [holder]
      split
      · constructor
        · intro same
          omega
        · intro clear
          cases clear
      · exact held
    · split
      · rename_i here
        exact fun _ => Nat.lt_succ_of_le (reused_lapped reached here)
      · exact fun hit => Nat.lt_succ_of_lt (lapped hit)

theorem Inv.advanceTail (inv : c.Inv sh) {t : Nat} (high : t ≤ c.ring.head) :
    Inv sh { c with ring := c.ring.advanceTail t } := by
  obtain ⟨lost, ring⟩ := inv.ring
  exact ⟨inv.shape, ⟨lost, ring.advanceTail high⟩, inv.point, inv.rows⟩

/-- A timestamp in the interval was read. -/
theorem Inv.found (inv : c.Inv sh) {l : RangeLoop} {oldest : Int64} (at_ : c.point = .scanning l)
    (goes : l.Goes)
    (range : ¬ (c.ring.timestampAt l.idx < l.args.tStart ∨
      l.args.tEnd < c.ring.timestampAt l.idx)) :
    Inv sh { c with
      point := .copying { l with oldest := oldest } (c.ring.timestampAt l.idx)
        (c.ring.holder l.idx) false } := by
  obtain ⟨lost, ring⟩ := inv.ring
  have point := inv.point
  simp only [PointInv, at_] at point
  have reached : l.idx < c.ring.head := Nat.lt_of_lt_of_le goes.1 point
  refine ⟨inv.shape, inv.ring, ⟨point, goes.1, range, ?_, Race.holder_lt reached,
    iff_of_true rfl rfl, fun hit => by cases hit⟩, inv.rows⟩
  rw [ring.held_entry reached]
  rfl

/-- One more row is written. -/
theorem Inv.copy (float : sh.dtype = .float32) (inv : c.Inv sh) {l : RangeLoop} {ts : Int64}
    {from_ : Nat} {reused : Bool} (at_ : c.point = .copying l ts from_ reused) :
    Inv sh { c with
      point := .scanning { l with idx := l.idx + 1, written := l.written + 1 }
      rows := c.rows ++
        [⟨l.args, l.idx, ts, c.ring.floatsAt l.idx, from_, c.ring.holder l.idx, reused⟩] } := by
  obtain ⟨lost, ring⟩ := inv.ring
  have point := inv.point
  simp only [PointInv, at_] at point
  obtain ⟨inside, before, range, read, old, held, lapped⟩ := point
  have reached : l.idx < c.ring.head := Nat.lt_of_lt_of_le before inside
  have float : c.ring.shape.dtype = .float32 := inv.shape ▸ float
  refine ⟨inv.shape, inv.ring, inside, ?_⟩
  intro q hq
  obtain hq | hq := List.mem_append.mp hq
  · exact inv.rows q hq
  · rw [List.mem_singleton.mp hq]
    refine ⟨range, read, ?_, held, ?_⟩
    · rw [ring.held_entry reached, Option.map_some, ← floatsAt_eq float]
    · rw [ring.logged, ← inv.shape]
      exact lapped

/-- **One step** of the producer, the eviction or the query. -/
theorem step_inv (float : sh.dtype = .float32) {act : RangeAction F} (inv : c.Inv sh)
    (h : c.step act = some c') : c'.Inv sh := by
  have point := inv.point
  cases act with
  | append args =>
    cases h
    exact inv.produce args
  | advanceTail t =>
    simp only [step] at h
    split at h <;> cases h
    rename_i range
    exact inv.advanceTail range.2
  | snapshot a =>
    simp only [step] at h
    split at h <;> cases h
    exact ⟨inv.shape, inv.ring, Nat.le_refl _, inv.rows⟩
  | timestamp =>
    simp only [step] at h
    split at h
    · rename_i l at_
      split at h
      · rename_i goes
        split at h <;> cases h
        · simp only [PointInv, at_] at point
          exact ⟨inv.shape, inv.ring, point, inv.rows⟩
        · rename_i range
          exact inv.found at_ goes range
      · cases h
    · cases h
  | copy =>
    simp only [step] at h
    split at h
    · rename_i l ts from_ reused at_
      cases h
      exact inv.copy float at_
    · cases h
  | finish =>
    simp only [step] at h
    split at h
    · split at h <;> cases h
      exact ⟨inv.shape, inv.ring, trivial, inv.rows⟩
    · cases h

theorem run_inv (float : sh.dtype = .float32) {acts : List (RangeAction F)} (inv : c.Inv sh)
    (h : c.run acts = some c') : c'.Inv sh :=
  Runs.run_preserves (fun _ _ _ inv stepped => step_inv float inv stepped) inv h

/-! ## Without the producer -/

/-- A step of the querying thread. -/
def ByQuery : RangeAction F → Prop
  | .append _ => False
  | .advanceTail _ => False
  | _ => True

/-- A row as it is returned. -/
def row (p : WrittenRow F) : Int64 × List F := (p.ts, p.vec)

/-- The query alone goes from `l` to the end of its loop at `l'` and writes `more`. -/
structure Scans (c : RangeRace F) (l l' : RangeLoop) (acts : List (RangeAction F))
    (more : List (WrittenRow F)) : Prop where
  own : ∀ act ∈ acts, ByQuery act
  reached : c.run acts = some { c with point := .scanning l', rows := c.rows ++ more }
  ends : ¬ l'.Goes
  args : l'.args = l.args
  b : l'.b = l.b
  e : l'.e = l.e

section
variable {l l' : RangeLoop} {acts : List (RangeAction F)} {more : List (WrittenRow F)}

theorem Scans.stop (at_ : c.point = .scanning l) (ends : ¬ l.Goes) : c.Scans l l [] [] where
  own := by
    intro act hact
    cases hact
  reached := by
    rw [List.append_nil, ← at_]
    rfl
  ends := ends
  args := rfl
  b := rfl
  e := rfl

/-- `oldest_ts_in_ring` after a timestamp was read. -/
def seen (c : RangeRace F) (l : RangeLoop) : Int64 :=
  if c.ring.timestampAt l.idx < l.oldest then c.ring.timestampAt l.idx else l.oldest

/-- A turn that finds its timestamp outside the interval. -/
theorem Scans.skip (at_ : c.point = .scanning l) (goes : l.Goes)
    (out : c.ring.timestampAt l.idx < l.args.tStart ∨ l.args.tEnd < c.ring.timestampAt l.idx)
    (h : Scans { c with point := .scanning { l with idx := l.idx + 1, oldest := c.seen l } }
      { l with idx := l.idx + 1, oldest := c.seen l } l' acts more) :
    c.Scans l l' (.timestamp :: acts) more := by
  refine ⟨List.forall_mem_cons.mpr ⟨trivial, h.own⟩, ?_, h.ends, h.args, h.b, h.e⟩
  refine Runs.run_cons.mpr ⟨_, ?_, h.reached⟩
  simp only [step, at_, goes, if_true]
  rw [if_pos out]
  rfl

/-- The row that a turn writes. -/
def readAt (c : RangeRace F) (l : RangeLoop) : WrittenRow F :=
  ⟨l.args, l.idx, c.ring.timestampAt l.idx, c.ring.floatsAt l.idx, c.ring.holder l.idx,
    c.ring.holder l.idx, false⟩

/-- A turn that writes a row. -/
theorem Scans.write (at_ : c.point = .scanning l) (goes : l.Goes)
    (inside : ¬ (c.ring.timestampAt l.idx < l.args.tStart ∨
      l.args.tEnd < c.ring.timestampAt l.idx))
    (h : Scans { c with
        point := .scanning
          { l with idx := l.idx + 1, written := l.written + 1, oldest := c.seen l }
        rows := c.rows ++ [c.readAt l] }
      { l with idx := l.idx + 1, written := l.written + 1, oldest := c.seen l } l' acts more) :
    c.Scans l l' (.timestamp :: .copy :: acts) (c.readAt l :: more) := by
  refine ⟨?_, ?_, h.ends, h.args, h.b, h.e⟩
  · exact List.forall_mem_cons.mpr ⟨trivial, List.forall_mem_cons.mpr ⟨trivial, h.own⟩⟩
  · have read : c.step .timestamp = some
        { c with
          point := .copying { l with oldest := c.seen l } (c.ring.timestampAt l.idx)
            (c.ring.holder l.idx) false } := by
      simp only [step, at_, goes, if_true]
      rw [if_neg inside]
      rfl
    have reached := h.reached
    rw [List.append_assoc] at reached
    exact Runs.run_cons.mpr ⟨_, read, Runs.run_cons.mpr ⟨_, rfl, reached⟩⟩

end

/-- The loop alone does what `scanRange` does. -/
theorem run_scanning {l : RangeLoop} {n : Nat} (sc : RangeScan F) (at_ : c.point = .scanning l)
    (rest : l.e = l.idx + n) (count : l.written = sc.written.length)
    (least : l.oldest = sc.oldest) :
    ∃ acts more l', c.Scans l l' acts more ∧
      scanRange c.ring l.args.tStart l.args.tEnd l.args.max l.idx n sc =
        ⟨sc.written ++ more.map row, l'.oldest⟩ := by
  induction n generalizing c l sc with
  | zero =>
    refine ⟨[], [], l, .stop at_ (fun goes => ?_), ?_⟩
    · have := goes.1
      omega
    · rw [List.map_nil, List.append_nil, least]
      rfl
  | succ n ih =>
    by_cases full : sc.written.length < l.args.max
    · have goes : l.Goes := ⟨by omega, by rw [count]; exact full⟩
      by_cases out : c.ring.timestampAt l.idx < l.args.tStart ∨
          l.args.tEnd < c.ring.timestampAt l.idx
      · obtain ⟨acts, more, l', scans, scanned⟩ :=
          ih (c := { c with point := .scanning { l with idx := l.idx + 1, oldest := c.seen l } })
            ⟨sc.written, c.seen l⟩ rfl (by simp only; omega) count rfl
        refine ⟨_, more, l', scans.skip at_ goes out, ?_⟩
        rw [← scanned]
        simp only [scanRange, full, if_true, ← least]
        rw [if_pos out]
        rfl
      · obtain ⟨acts, more, l', scans, scanned⟩ :=
          ih (c := { c with
              point := .scanning
                { l with idx := l.idx + 1, written := l.written + 1, oldest := c.seen l }
              rows := c.rows ++ [c.readAt l] })
            ⟨sc.written ++ [row (c.readAt l)], c.seen l⟩ rfl (by simp only; omega)
            (by rw [List.length_append, List.length_singleton, ← count]) rfl
        refine ⟨_, c.readAt l :: more, l', scans.write at_ goes out, ?_⟩
        rw [List.map_cons, ← List.singleton_append, ← List.append_assoc, ← scanned]
        simp only [scanRange, full, if_true, ← least]
        rw [if_neg out]
        rfl
    · refine ⟨[], [], l, .stop at_ (fun goes => ?_), ?_⟩
      · have := goes.2
        omega
      · rw [List.map_nil, List.append_nil, least]
        simp only [scanRange, full, if_false]

/-- **The query alone.** Its steps with nobody in between answer what `queryRange`
answers. -/
theorem range_alone {e : Engine F} {s : SensorId} {tStart tEnd : Int64} {max : Int}
    (opened : e.closed = false) (pos : 0 < max) (ordered : ¬ tEnd < tStart)
    (found : e.ring s = some c.ring) (ok : c.ring.Ok) (idle : c.point = .idle) :
    ∃ acts more code, (∀ act ∈ acts, ByQuery act) ∧
      c.run acts = some { c with rows := c.rows ++ more, codes := c.codes ++ [code] } ∧
      (e.queryRange s tStart tEnd max true).1 = code ∧
      (e.queryRange s tStart tEnd max true).2.1 = some (more.map row) := by
  let b := c.ring.snapshot.1
  let size := c.ring.snapshot.2 - b
  let l : RangeLoop := ⟨⟨tStart, tEnd, max.toNat⟩, b, c.ring.snapshot.2, b, 0, Int64.maxValue⟩
  let begun : RangeRace F := { c with point := .scanning l }
  have taken : c.step (.snapshot l.args) = some begun := by
    simp only [step, idle]
    rfl
  obtain ⟨acts, more, l', ⟨own, reached, ends, args, lb, le⟩, scanned⟩ :=
    run_scanning (c := begun) (l := l) (n := size) ⟨[], Int64.maxValue⟩ rfl
      (Nat.add_sub_cancel' (SensorRing.snapshot_le ok)).symm rfl rfl
  let code : ErrorCode :=
    if 0 < l'.e - l'.b ∧ l'.args.tStart < l'.oldest then .warnRangeTruncated else .ok
  refine ⟨.snapshot l.args :: (acts ++ [.finish]), more, code, ?_, ?_, ?_⟩
  · intro act hact
    obtain rfl | hact := List.mem_cons.mp hact
    · trivial
    obtain hact | hact := List.mem_append.mp hact
    · exact own act hact
    · rw [List.mem_singleton.mp hact]
      trivial
  · refine Runs.run_cons.mpr ⟨begun, taken, Runs.run_append.mpr ⟨_, reached, ?_⟩⟩
    refine Runs.run_cons.mpr ⟨_, ?_, rfl⟩
    simp only [step, ends, if_false, begun]
    rw [← idle]
  · obtain ⟨⟨_, next⟩, lookup, ring⟩ := Option.bind_eq_some_iff.mp found
    have valid : ¬ (max ≤ 0 ∨ true = false) := by
      simpa using pos
    dsimp only at ring
    subst ring
    simp only [Engine.queryRange, opened, Bool.false_eq_true, if_false, lookup]
    rw [if_neg valid, if_neg ordered]
    have answer : scanRange c.ring tStart tEnd max.toNat c.ring.snapshot.1
        (c.ring.snapshot.2 - c.ring.snapshot.1) ⟨[], Int64.maxValue⟩ =
        ⟨more.map row, l'.oldest⟩ := scanned
    simp only [answer, code, args, lb, le]
    exact ⟨rfl, trivial⟩

/-! ## Rows -/

/-- The row is the timestamp and the vector of one appended entry. -/
def Whole (p : WrittenRow F) (log : List (Entry F)) : Prop := ∃ x ∈ log, (p.ts, p.vec) = x.reading

instance [DecidableEq F] (p : WrittenRow F) (log : List (Entry F)) : Decidable (Whole p log) :=
  inferInstanceAs (Decidable (∃ x ∈ log, (p.ts, p.vec) = x.reading))

/-- No two entries have the same timestamp, or the same vector. -/
def ToldApart (log : List (Entry F)) : Prop :=
  ∀ (i j : Nat) (x y : Entry F), log[i]? = some x → log[j]? = some y →
    x.ts = y.ts ∨ x.reading.2 = y.reading.2 → i = j

/-- **Rows are whole** as long as no append reuses the slot of a row between its
timestamp and its vector, for which the producer must be a lap ahead of it; and where
the entries can be told apart, only then. -/
theorem rows_whole (float : sh.dtype = .float32) {mem : Columns F} {acts : List (RangeAction F)}
    (h : (start sh mem).run acts = some c) (hp : p ∈ c.rows) :
    ¬ (p.ts < p.args.tStart ∨ p.args.tEnd < p.ts) ∧
      (p.reused = true → p.index + sh.capacity < c.log.length) ∧
      (p.reused = false → Whole p c.log) ∧
      (ToldApart c.log → Whole p c.log → p.reused = false) := by
  obtain ⟨range, ts, vec, reused, lapped⟩ := (run_inv float (start_inv sh mem) h).rows p hp
  obtain ⟨x, read, hx⟩ := Option.map_eq_some_iff.mp ts
  obtain ⟨y, copied, hy⟩ := Option.map_eq_some_iff.mp vec
  refine ⟨range, lapped, ?_, ?_⟩
  · intro calm
    rw [reused.mpr calm, copied, Option.some.injEq] at read
    subst read
    refine ⟨y, List.mem_of_getElem? copied, ?_⟩
    rw [← hx, ← hy]
    rfl
  · rintro apart ⟨z, hz, same⟩
    obtain ⟨k, at_⟩ := List.getElem?_of_mem hz
    obtain ⟨sameTs, sameVec⟩ := Prod.mk.inj same
    apply reused.mp
    have when_ := apart _ k x z read at_ (.inl (hx.trans sameTs))
    have from_ := apart _ k y z copied at_ (.inr (hy.trans sameVec))
    exact when_.trans from_.symm

end

/-! ## A full ring -/

/-- Append a row of one component to a ring of `smallConfig`. -/
def appendOne (ts : Int64) (x : ℚ) : RangeAction ℚ := .append ⟨ts, fun _ => .f32 x, x, none, 0⟩

/-- Everything. -/
def allTimes : RangeArgs := ⟨0, 100, 8⟩

/-- The producer appends between the two reads of a row, with room left. -/
def calmScan : List (RangeAction ℚ) :=
  [appendOne 1 5, appendOne 2 3, .snapshot allTimes, .timestamp, appendOne 3 0, .copy, .timestamp,
    .copy, appendOne 4 0, .finish]

theorem calm_scan_whole :
    ∃ c, (start smallValid.shape (.zero ℚ)).run calmScan = some c ∧
      c.rows.map row = [(1, [5]), (2, [3])] ∧ ∀ p ∈ c.rows, Whole p c.log := by
  have seen : ((start smallValid.shape (.zero ℚ)).run calmScan).map
      (fun c => (c.rows.map row, c.rows.map WrittenRow.reused)) =
        some ([(1, [5]), (2, [3])], [false, false]) := by
    decide +kernel
  obtain ⟨c, reached, fields⟩ := Option.map_eq_some_iff.mp seen
  obtain ⟨rows, calm⟩ := Prod.mk.inj fields
  refine ⟨c, reached, rows, fun p hp => (rows_whole rfl reached hp).2.2.1 ?_⟩
  have flag := List.mem_map_of_mem (f := WrittenRow.reused) hp
  rw [calm] at flag
  simpa using flag

/-- The ring of 64 is full. The producer appends once between the two reads of the
oldest row. -/
def lappedScan : List (RangeAction ℚ) :=
  (List.range 64).map (fun i => appendOne (.ofNat i) 1) ++
    [.snapshot allTimes, .timestamp, appendOne 64 2, .copy]

/-- The row has the timestamp of the replaced entry and the vector of the new one. -/
theorem scan_mixes :
    ∃ c, (start smallValid.shape (.zero ℚ)).run lappedScan = some c ∧
      ∃ p ∈ c.rows, row p = (0, [2]) ∧ ¬ Whole p c.log := by
  have seen : ((start smallValid.shape (.zero ℚ)).run lappedScan).map
      (fun c => c.rows.map fun p => (row p, decide (Whole p c.log))) =
        some [((0, [2]), false)] := by
    decide +kernel
  obtain ⟨c, reached, rows⟩ := Option.map_eq_some_iff.mp seen
  obtain ⟨p, only, fields⟩ := List.map_eq_singleton_iff.mp rows
  obtain ⟨is, mixed⟩ := Prod.mk.inj fields
  refine ⟨c, reached, p, ?_, is, of_decide_eq_false mixed⟩
  rw [only]
  exact List.mem_cons_self

end RangeRace

end ChronosVector
