import ChronosVector.Exact

/-!
# Range queries and what has left the window

* `scanRange_spec`: what the loop of `QueryRange` writes, and the minimum it
  keeps;
* `range_query_exact`: what a FLOAT32 query returns;
* `run_suffix`, `run_window_suffix`: after any run without drops, the window is the
  end of what was appended, or of that and the window before;
* `range_honest_iff`: when a range query tells the caller about rows that have
  left the window.

The warning is derived from the rows scanned, not from the rows that left.
-/

namespace ChronosVector

variable {F : Type} {α : Type}

/-! ## A scan that stops after `m` matches -/

/-- The items looked at. -/
def visited (p : α → Bool) : Nat → List α → List α
  | _, [] => []
  | 0, _ :: _ => []
  | m + 1, x :: l => x :: visited p (if p x then m else m + 1) l

theorem visited_zero (p : α → Bool) (l : List α) : visited p 0 l = [] := by
  cases l <;> rfl

theorem visited_subset {p : α → Bool} {m : Nat} {l : List α} {x : α} (h : x ∈ visited p m l) :
    x ∈ l := by
  induction l generalizing m with
  | nil => cases m <;> cases h
  | cons y l ih =>
    cases m with
    | zero => cases h
    | succ m =>
      obtain rfl | later := List.mem_cons.mp h
      · exact List.mem_cons_self
      · exact List.mem_cons_of_mem y (ih later)

theorem exists_visited {p : α → Bool} {m : Nat} {l : List α} (hm : 0 < m) (hl : l ≠ []) :
    ∃ x, x ∈ visited p m l := by
  cases l with
  | nil => exact absurd rfl hl
  | cons x l =>
    cases m with
    | zero => omega
    | succ m => exact ⟨x, List.mem_cons_self⟩

/-- A scan that found fewer matches than it wanted saw everything. -/
theorem visited_all {p : α → Bool} {m : Nat} {l : List α}
    (h : ((visited p m l).filter p).length < m) : visited p m l = l := by
  induction l generalizing m with
  | nil => cases m <;> rfl
  | cons x l ih =>
    cases m with
    | zero => omega
    | succ m =>
      simp only [visited] at h ⊢
      by_cases hx : p x = true
      · simp only [List.filter_cons, hx, if_true, List.length_cons] at h ⊢
        rw [ih (by omega)]
      · simp only [List.filter_cons, hx] at h ⊢
        rw [ih h]

/-- The matches among the items looked at are the first `m` of all. -/
theorem filter_visited (p : α → Bool) (m : Nat) (l : List α) :
    (visited p m l).filter p = (l.filter p).take m := by
  induction l generalizing m with
  | nil => cases m <;> rfl
  | cons x l ih =>
    cases m with
    | zero => rfl
    | succ m =>
      simp only [visited]
      by_cases match_x : p x = true
      · rw [List.filter_cons_of_pos match_x, List.filter_cons_of_pos match_x, if_pos match_x, ih,
          List.take_succ_cons]
      · rw [List.filter_cons_of_neg match_x, List.filter_cons_of_neg match_x, if_neg match_x, ih]

theorem visited_map {β : Type} (f : β → α) (p : α → Bool) (m : Nat) (l : List β) :
    visited p m (l.map f) = (visited (p ∘ f) m l).map f := by
  induction l generalizing m with
  | nil => cases m <;> rfl
  | cons x l ih =>
    cases m with
    | zero => rfl
    | succ m => simp only [List.map_cons, visited, Function.comp_apply, ih]

/-! ## The loop of `QueryRange` -/

/-- The entry's timestamp is in the queried interval. -/
def Entry.InRange (tStart tEnd : Int64) (x : Entry F) : Bool := ¬ (x.ts < tStart ∨ tEnd < x.ts)

/-- What a FLOAT32 query returns of an entry. -/
def Entry.reading [FloatArith F] (x : Entry F) : Int64 × List F := (x.ts, x.vec.map Elem.float)

section
variable [FloatArith F] {r : SensorRing F} {tStart tEnd : Int64} {max : Nat}

theorem floatFrom_eq (float : r.shape.dtype = .float32) (start : Nat) :
    r.floatFrom start = fun j => (r.vectors (start + j)).float := by
  funext j
  simp only [SensorRing.floatFrom, float]

theorem floatsAt_eq (float : r.shape.dtype = .float32) (idx : Nat) :
    (r.timestampAt idx, r.floatsAt idx) = (r.entryAt idx).reading := by
  simp only [Entry.reading, SensorRing.entryAt, SensorRing.floatsAt, floatFrom_eq float,
    Cells.load, SensorRing.vectorAt, List.map_map, Nat.zero_add]
  rfl

theorem min_lt_iff (b ts oldest : Int64) :
    b < (if ts < oldest then ts else oldest) ↔ b < oldest ∧ b < ts := by
  simp only [Int64.lt_iff_toInt_lt]
  split <;> omega

/-- What one turn writes for an index. -/
def SensorRing.rangeRow (r : SensorRing F) (idx : Nat) : Int64 × List F :=
  (r.timestampAt idx, r.floatsAt idx)

/-- **The loop, by index.** It writes a row for each match among the indices it
visits and keeps the least timestamp of all of these. -/
theorem scanRange_rows (tStart tEnd : Int64) (idx n : Nat) (sc : RangeScan F)
    (room : sc.written.length ≤ max) :
    let seen := visited (Entry.InRange tStart tEnd ∘ r.entryAt) (max - sc.written.length)
      (List.range' idx n)
    let sc' := scanRange r tStart tEnd max idx n sc
    sc'.written =
      sc.written ++ (seen.filter (Entry.InRange tStart tEnd ∘ r.entryAt)).map r.rangeRow ∧
    ∀ b, b < sc'.oldest ↔ b < sc.oldest ∧ ∀ i ∈ seen, b < r.timestampAt i := by
  induction n generalizing idx sc with
  | zero => simp [scanRange, visited]
  | succ n ih =>
    by_cases full : sc.written.length < max
    · obtain ⟨m, hm⟩ : ∃ m, max - sc.written.length = m + 1 := ⟨max - sc.written.length - 1, by omega⟩
      let oldest := if r.timestampAt idx < sc.oldest then r.timestampAt idx else sc.oldest
      have least (b : Int64) : b < oldest ↔ b < sc.oldest ∧ b < r.timestampAt idx :=
        min_lt_iff b _ _
      simp only [scanRange, full, if_true, List.range'_succ, hm, visited, Function.comp_apply]
      by_cases out : r.timestampAt idx < tStart ∨ tEnd < r.timestampAt idx
      · -- not a match: only the minimum moves
        have no : Entry.InRange tStart tEnd (r.entryAt idx) = false :=
          decide_eq_false (not_not_intro out)
        obtain ⟨hw, ho⟩ := ih (idx + 1) ⟨sc.written, oldest⟩ room
        simp only [out, if_true, no, Bool.false_eq_true, if_false, ← hm, List.filter_cons,
          List.forall_mem_cons, Function.comp_apply]
        exact ⟨hw, fun b => (ho b).trans (by rw [least, and_assoc])⟩
      · have yes : Entry.InRange tStart tEnd (r.entryAt idx) = true :=
          decide_eq_true out
        obtain ⟨hw, ho⟩ := ih (idx + 1) ⟨sc.written ++ [r.rangeRow idx], oldest⟩ (by
          rw [List.length_append, List.length_singleton]
          omega)
        have hm' : max - (sc.written ++ [r.rangeRow idx]).length = m := by
          rw [List.length_append, List.length_singleton]
          omega
        rw [hm'] at hw ho
        simp only [out, if_false, yes, if_true, List.filter_cons, List.forall_mem_cons,
          Function.comp_apply]
        refine ⟨hw.trans ?_, fun b => (ho b).trans (by rw [least, and_assoc])⟩
        rw [List.map_cons, List.append_assoc, List.singleton_append]
    · have h0 : max - sc.written.length = 0 := by omega
      simp [scanRange, full, h0, visited_zero]

/-- **The loop.** In FLOAT32 the rows are the entries'. -/
theorem scanRange_spec (tStart tEnd : Int64) (float : r.shape.dtype = .float32) (idx n : Nat)
    (sc : RangeScan F)
    (room : sc.written.length ≤ max) :
    let seen := visited (Entry.InRange tStart tEnd) (max - sc.written.length)
      ((List.range' idx n).map r.entryAt)
    let sc' := scanRange r tStart tEnd max idx n sc
    sc'.written = sc.written ++ (seen.filter (Entry.InRange tStart tEnd)).map Entry.reading ∧
    ∀ b, b < sc'.oldest ↔ b < sc.oldest ∧ ∀ x ∈ seen, b < x.ts := by
  obtain ⟨hw, ho⟩ := scanRange_rows tStart tEnd idx n sc room
  have rows : r.rangeRow = Entry.reading ∘ r.entryAt := funext (floatsAt_eq float)
  simp only [visited_map, List.filter_map, List.map_map, List.forall_mem_map]
  exact ⟨rows ▸ hw, ho⟩

/-! ## The call -/

variable {e : Engine F} {s : SensorId} {max : Int}

omit [FloatArith F] in
theorem warns_iff {c : Prop} [Decidable c] :
    (if c then ErrorCode.warnRangeTruncated else .ok) = .warnRangeTruncated ↔ c := by
  split <;> simp_all

/-- What a well-formed query of an open engine answers. -/
theorem queryRange_answer (ok : e.Ok) (float : e.cfg.shape.dtype = .float32)
    (closed : e.closed = false) (pos : 0 < max) (ordered : tStart ≤ tEnd) :
    let q := e.chronosvQueryRange (some s.bytes) tStart tEnd max true
    let window := (e.tier s).hot.items
    let seen := visited (Entry.InRange tStart tEnd) max.toNat window
    q.2.1 = some ((seen.filter (Entry.InRange tStart tEnd)).map Entry.reading) ∧
    (q.1 = .warnRangeTruncated ↔ window ≠ [] ∧ ∀ x ∈ seen, tStart < x.ts) := by
  have h1 : ¬ (max ≤ 0 ∨ true = false) := by simp [pos]
  have h2 : ¬ tEnd < tStart := by simpa using ordered
  simp only [Engine.chronosvQueryRange, SensorId.parse_bytes, Engine.queryRange, closed, h1, h2,
    Bool.false_eq_true, if_false]
  split
  · -- not registered
    rename_i hl
    simp [Engine.hot_of_lookup_none hl, visited]
  · rename_i next hl
    simp [Engine.tier, Engine.ring, hl, visited]
  · rename_i r next hl
    obtain ⟨hsh, -⟩ := ok s r (Engine.ring_eq hl)
    have hot : (e.tier s).hot.items = r.window := by
      simp only [Engine.tier, Engine.ring_eq hl]
      rfl
    have hn : 0 < r.snapshot.2 - r.snapshot.1 ↔ r.window ≠ [] := by
      rw [← SensorRing.window_length, List.length_pos_iff]
    obtain ⟨hw, ho⟩ := scanRange_spec tStart tEnd (hsh ▸ float) r.snapshot.1
      (r.snapshot.2 - r.snapshot.1) ⟨[], Int64.maxValue⟩ (Nat.zero_le max.toNat)
    simp only [List.length_nil, Nat.sub_zero, List.nil_append] at hw ho
    rw [hot]
    refine ⟨congrArg some hw, ?_⟩
    apply warns_iff.trans ?_
    rw [hn, ho, and_congr_right_iff]
    intro hne
    refine ⟨fun h => h.2, fun h => ⟨?_, h⟩⟩
    -- the first entry of the window is visited, and no timestamp exceeds the initial minimum
    obtain ⟨x, hx⟩ := exists_visited (p := Entry.InRange tStart tEnd) (m := max.toNat) (by omega) hne
    have := h x hx
    have := Int64.le_maxValue x.ts
    simp only [Int64.lt_iff_toInt_lt, Int64.le_iff_toInt_le] at *
    omega

/-- **Range queries are exact.** The rows are the first `max` entries of the
window with a timestamp in the interval, oldest append first. -/
theorem range_query_exact (reachable : Engine.Reachable e) (float : e.cfg.shape.dtype = .float32)
    (opened : e.closed = false) (pos : 0 < max) (ordered : tStart ≤ tEnd) (s : SensorId) :
    let found := (e.tier s).hot.items.filter (Entry.InRange tStart tEnd)
    ∃ rows, (e.chronosvQueryRange (some s.bytes) tStart tEnd max true).2.1 = some rows ∧
      rows = (found.take max.toNat).map Entry.reading ∧ (rows.length : Int) = min max found.length := by
  obtain ⟨answer, -⟩ := queryRange_answer (Engine.reachable_ok reachable) (s := s) float opened pos
    ordered
  rw [filter_visited] at answer
  refine ⟨_, answer, rfl, ?_⟩
  rw [List.length_map, List.length_take]
  omega

/-! ## Runs -/

/-- The window is the end of what was appended since the engine was created. -/
theorem run_suffix {env₀ : Env F} {cfgIn : Config} {path : Option (ColdTier F)}
    (created : Engine.create env₀ cfgIn path = .ok e) {steps : List (Env F × Call F)}
    (noDrop : ∀ x ∈ steps, x.2.drops s = false) :
    ((Engine.run steps e).tier s).hot.Suffix (Engine.history steps e s) := by
  obtain ⟨ok, start⟩ := Engine.create_start created
  have empty : (e.tier s).hot.Suffix [] := by
    rw [start s]
    exact BoundedQueue.suffix_empty
  have h := Engine.run_tier (fun log t => t.hot.Suffix log) (P := fun _ c => c.drops s = false) ?_
    ok rfl rfl noDrop empty
  · simpa using h
  · intro e' env c log t' hsh _ nodrop h step
    cases step with
    | append =>
      rw [Tier.pushAll_hot]
      exact h.pushAll e'.cfg.shape.capacity_pos _
    | evict _ _ _ _ _ silent evicts =>
      rw [silent, List.append_nil]
      cases evicts with
      | idle => exact h
      | wrote =>
        rw [Tier.evict_hot]
        exact h.pop
    | drop _ drops =>
      rw [nodrop] at drops
      cases drops

/-- In a run from any engine on, the window is the end of what it was and of what was
appended. -/
theorem run_window_suffix (ok : e.Ok) {steps : List (Env F × Call F)}
    (noDrop : ∀ x ∈ steps, x.2.drops s = false) :
    ((Engine.run steps e).tier s).hot.items <:+
      (e.tier s).hot.items ++ Engine.history steps e s := by
  apply Engine.run_tier (fun log t => t.hot.items <:+ log) (P := fun _ c => c.drops s = false) ?_
    ok rfl rfl noDrop List.suffix_rfl
  intro e' env c log t' _ _ nodrop h step
  cases step with
  | append =>
    rw [Tier.pushAll_hot]
    exact (BoundedQueue.pushAll_isSuffix _ _ _).trans (List.suffix_append_self_iff.mpr h)
  | evict _ _ _ _ _ silent evicts =>
    rw [silent, List.append_nil]
    cases evicts with
    | idle => exact h
    | wrote =>
      rw [Tier.evict_hot]
      exact (List.drop_suffix _ _).trans h
  | drop _ drops =>
    rw [nodrop] at drops
    cases drops

/-- The entries that have left the window, by eviction or overwriting. -/
def Engine.left (e : Engine F) (s : SensorId) (log : List (Entry F)) : List (Entry F) :=
  log.take (log.length - (e.tier s).hot.items.length)

/-- A query is honest about `log`, the entries ever appended to `s`: an `ok` that
did not fill the buffers returns all of the range, and when some of the range has
left the window, the call warns. -/
structure Engine.RangeHonest (e : Engine F) (s : SensorId) (log : List (Entry F))
    (tStart tEnd : Int64) (max : Int) : Prop where
  complete : (e.chronosvQueryRange (some s.bytes) tStart tEnd max true).1 = .ok →
    ∀ rows, (e.chronosvQueryRange (some s.bytes) tStart tEnd max true).2.1 = some rows →
      rows.length < max → ∀ x ∈ log, x.InRange tStart tEnd → x.reading ∈ rows
  warned : (∃ x ∈ e.left s log, x.InRange tStart tEnd) →
    (e.chronosvQueryRange (some s.bytes) tStart tEnd max true).1 = .warnRangeTruncated

/-- All entries ever appended to `s`: those that engines before have appended and this
one did not recover, the window it started with, and what the run appended. -/
def Engine.everAppended (past : List (Entry F)) (steps : List (Env F × Call F)) (e : Engine F)
    (s : SensorId) : List (Entry F) :=
  past ++ ((e.tier s).hot.items ++ Engine.history steps e s)

/-- **When range queries are honest.** A query after a run, of an engine created or
opened, is honest exactly when no entry of the range has left the window, or the
window is not empty and every entry that the query looks at is younger than the
range's start. -/
theorem range_honest_iff (reachable : Engine.Reachable e) (float : e.cfg.shape.dtype = .float32)
    (past : List (Entry F)) {steps : List (Env F × Call F)}
    (noDrop : ∀ x ∈ steps, x.2.drops s = false)
    (closed : (Engine.run steps e).closed = false) (pos : 0 < max) (ordered : tStart ≤ tEnd) :
    (Engine.run steps e).RangeHonest s (Engine.everAppended past steps e s) tStart tEnd max ↔
      (∀ x ∈ (Engine.run steps e).left s (Engine.everAppended past steps e s),
        x.InRange tStart tEnd = false) ∨
      (((Engine.run steps e).tier s).hot.items ≠ [] ∧
        ∀ x ∈ visited (Entry.InRange tStart tEnd) max.toNat ((Engine.run steps e).tier s).hot.items,
          tStart < x.ts) := by
  have ok := Engine.reachable_ok reachable
  have frame := Engine.run_frame steps ok
  obtain ⟨answer, warns⟩ := queryRange_answer frame.ok (s := s) (frame.shape ▸ float) closed pos
    ordered
  have split_log : (Engine.run steps e).left s (Engine.everAppended past steps e s) ++
      ((Engine.run steps e).tier s).hot.items = Engine.everAppended past steps e s := by
    obtain ⟨gone, all⟩ := (run_window_suffix ok noDrop (s := s)).trans (List.suffix_append past _)
    rw [Engine.left, Engine.everAppended, ← all, List.length_append, Nat.add_sub_cancel,
      List.take_left]
  constructor
  · intro honest
    by_cases lost : ∃ x ∈ (Engine.run steps e).left s (Engine.everAppended past steps e s),
        x.InRange tStart tEnd
    · exact .inr (warns.mp (honest.warned lost))
    · exact .inl fun x hx => by simpa using fun h => lost ⟨x, hx, h⟩
  · rintro (kept | late)
    · refine ⟨fun _ rows hrows hlen x hx inRange => ?_, fun ⟨x, hx, inRange⟩ => ?_⟩
      · rw [answer] at hrows
        cases hrows
        rw [← split_log, List.mem_append] at hx
        have hot := hx.resolve_left fun hl => by simp [kept x hl] at inRange
        rw [List.length_map] at hlen
        rw [visited_all (by omega)]
        exact List.mem_map_of_mem (List.mem_filter.mpr ⟨hot, inRange⟩)
      · rw [kept x hx] at inRange
        cases inRange
    · have code := warns.mpr late
      refine ⟨fun isOk => ?_, fun _ => code⟩
      rw [isOk] at code
      cases code

end

/-- 70 rows in 64 slots, the odd ones with falling timestamps. -/
def lappedTimes : List (Env ℚ × Call ℚ) :=
  calmly 0 [.appendBatch (some sensorA.bytes)
    (some fun i => .ofNat (if i % 2 = 0 then i else 100 - i)) (some fun i => (i : ℚ)) 70 1 none]

/-- The first seven of the ten rows between 60 and 70. -/
theorem range_query_lapped :
    ∃ rows, ((Engine.run lappedTimes smallEngine).chronosvQueryRange (some sensorA.bytes) 60 70 7
      true).2.1 = some rows ∧
      rows = [(69, [31]), (67, [33]), (65, [35]), (63, [37]), (61, [39]), (60, [60]), (62, [62])] ∧
      (rows.length : Int) = 7 := by
  have ordered : (60 : Int64) ≤ 70 := by decide
  have room : (0 : Int) < 7 := by decide
  obtain ⟨rows, answer, first, -⟩ :=
    range_query_exact (.run (.created (smallEngine_created 0)) lappedTimes) rfl rfl room ordered sensorA
  have seven : rows = [(69, [31]), (67, [33]), (65, [35]), (63, [37]), (61, [39]), (60, [60]),
      (62, [62])] := first.trans (by decide +kernel)
  exact ⟨rows, answer, seven, by rw [seven]; rfl⟩

/-- A flush empties the window, and a query of an empty window never warns. -/
theorem range_query_silent :
    ¬ ∀ (env₀ : Env ℚ) (cfg : Config) (e : Engine ℚ) (s : SensorId)
      (steps : List (Env ℚ × Call ℚ)) (tStart tEnd : Int64) (max : Int),
      Engine.create env₀ cfg (some .empty) = .ok e → e.cfg.shape.dtype = .float32 →
      (∀ x ∈ steps, x.2.drops s = false) → (Engine.run steps e).closed = false → 0 < max →
      tStart ≤ tEnd →
      (Engine.run steps e).RangeHonest s (Engine.everAppended [] steps e s) tStart tEnd max := by
  intro h
  let steps := calmly 0 [Call.append (some sensorA.bytes) 1 (some fun _ => (1 : ℚ)) 1 none, .flush]
  have honest := h (.calm ℚ 0) smallConfig smallEngine sensorA steps 0 10 5 (smallEngine_created 0)
    rfl (by decide) rfl (by decide) (by decide)
  have lost : (((Engine.run steps smallEngine).left sensorA
      (Engine.everAppended [] steps smallEngine sensorA)).any (Entry.InRange 0 10)) = true := by
    decide +kernel
  have code : ((Engine.run steps smallEngine).chronosvQueryRange (some sensorA.bytes) 0 10 5
      true).1 = .ok := by
    decide +kernel
  have warned := honest.warned (List.any_eq_true.mp lost)
  rw [code] at warned
  cases warned

/-- Two rows, the older of which an eviction took. -/
def evictedOne : List (Env ℚ × Call ℚ) :=
  calmly 0 [.append (some sensorA.bytes) 1 (some fun _ => 1) 1 none,
    .append (some sensorA.bytes) 50 (some fun _ => 2) 1 none, .maintainSlidingWindow 20]

/-- The query then warns about a range that starts before the younger row. -/
theorem range_honest_evicted :
    (Engine.run evictedOne smallEngine).RangeHonest sensorA
      (Engine.everAppended [] evictedOne smallEngine sensorA) 0 100 5 :=
  (range_honest_iff (.created (smallEngine_created 0)) rfl [] (by decide) rfl (by decide)
    (by decide)).mpr
    (.inr ⟨by decide +kernel, by decide +kernel⟩)

end ChronosVector
