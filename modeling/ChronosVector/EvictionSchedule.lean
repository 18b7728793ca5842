import ChronosVector.FailedWrites
import ChronosVector.WindowEviction
import ChronosVector.Lib.Runs
import ChronosVector.Lib.SlidingWindow

/-!
# When passes run does not matter

How often the background thread wakes up and who else runs passes is a matter of
time. For a sensor whose timestamps do not decrease it shows in no row.

* `Engine.Steady`: what a run must not do, step by step;
* `run_scheduled`: what such a run keeps, whatever passes it has;
* `tiers_split`: after a pass, where a row is depends on what was appended and on
  the window of that pass only.
-/

namespace ChronosVector

variable {F : Type}

def Row.time (x : Row F) : Int := x.ts.toInt

/-- What any schedule of passes with a window of at least `w` keeps of a sensor
that was given the entries in `log`, unless some were overwritten. -/
structure Tier.Scheduled (cap : Nat) (w : Int) (log : List (Entry F)) (t : Tier F) : Prop where
  behind : t.hot.dropped = 0 →
    SlidingWindow.Behind Row.time w (log.map Entry.toRow) t.coldRows t.hotRows
  fits : t.hot.items.length ≤ cap
  past : ∀ id ∈ t.blocks.keys, id < t.nextBlockId

variable {cap : Nat} {w : Int} {log : List (Entry F)} {t t' : Tier F} {s : SensorId}

theorem Tier.scheduled_empty : (Tier.empty : Tier F).Scheduled cap w [] :=
  ⟨fun _ => SlidingWindow.behind_empty, Nat.zero_le _,
    fun _ h => by simp [Tier.empty, SortedMap.keys, SortedMap.empty] at h⟩

theorem Tier.Scheduled.pushAll (h : t.Scheduled cap w log) (hc : 0 < cap) (xs : List (Entry F)) :
    (t.pushAll cap xs).Scheduled cap w (log ++ xs) where
  behind := by
    intro lossless
    rw [Tier.pushAll_hot] at lossless
    obtain ⟨none, all⟩ := BoundedQueue.pushAll_lossless lossless
    have hot : (t.pushAll cap xs).hotRows = t.hotRows ++ xs.map Entry.toRow := by
      rw [Tier.hotRows, Tier.pushAll_hot, all, List.map_append, Tier.hotRows]
    have cold : (t.pushAll cap xs).coldRows = t.coldRows := by
      rw [Tier.coldRows, Tier.pushAll_blocks, Tier.coldRows]
    rw [hot, cold, List.map_append]
    exact (h.behind none).append _
  fits := by
    rw [Tier.pushAll_hot]
    exact BoundedQueue.pushAll_length_le xs h.fits hc
  past := by simpa using h.past

variable [FloatArith F] {env : Env F} {sh : RingShape} {w' : Int64} {own : List (Block F)}

/-- An eviction moves rows from the front of the window behind the persisted ones. -/
theorem Tier.Evicts.moves_rows (h : t.Evicts env true sh w' s t' own)
    (past : ∀ id ∈ t.blocks.keys, id < t.nextBlockId) (small : t.hot.items.length < 2 ^ 32)
    (written : env.storage.writeBlock s = .ok) :
    t'.coldRows = t.coldRows ++ t.hotRows.take (t.evictedCount env w' s) ∧
      t'.hotRows = t.hotRows.drop (t.evictedCount env w' s) ∧
      t'.hot.dropped = t.hot.dropped ∧ ∀ id ∈ t'.blocks.keys, id < t'.nextBlockId := by
  have le := t.evictedCount_le env w' s
  cases h with
  | idle zero =>
    rw [zero, List.take_zero, List.append_nil, List.drop_zero]
    exact ⟨rfl, rfl, rfl, past⟩
  | wrote k blk count pos sensor id cut =>
    rw [count]
    simp only [WriteOutcome.of, written, if_true, Bool.true_eq_false, if_false]
    refine ⟨?_, ?_, by rw [Tier.evict_hot, BoundedQueue.pop_dropped], past_put past _ _⟩
    · rw [coldRows_put past, cut.rows_eq (by omega)]
    · rw [Tier.hotRows, Tier.evict_hot, BoundedQueue.pop, List.map_drop, Tier.hotRows]

omit [FloatArith F] in
theorem timestampsOf_rows (items : List (Entry F)) :
    {t | ∃ x ∈ items.map Entry.toRow, Row.time x = t} = timestampsOf items := by
  ext t
  simp [timestampsOf, Row.time]

omit [FloatArith F] in
/-- A pass takes the longest prefix of old rows. -/
theorem evictedCount_rows {m : Int} (positive : 0 < w'.toInt)
    (newest : IsGreatest (timestampsOf t.hot.items) m) (fits : -2 ^ 63 ≤ m - w'.toInt)
    (memory : 4 ≤ env.scratchMemory s) :
    IsLongestPrefix (fun x => Row.time x < m - w'.toInt) t.hotRows (t.evictedCount env w' s) := by
  rw [Tier.evictedCount, if_neg (Nat.not_lt.mpr memory)]
  exact IsLongestPrefix.map (f := Entry.toRow) (evictCount_isLongestPrefix positive newest fits)

theorem Tier.Scheduled.evicts (h : t.Scheduled sh.capacity w log) (small : sh.capacity < 2 ^ 31)
    (positive : 0 < w) (wide : w ≤ w'.toInt)
    (fits : ∀ x ∈ t.hot.items, -2 ^ 63 ≤ x.ts.toInt - w'.toInt)
    (written : env.storage.writeBlock s = .ok) (evicts : t.Evicts env true sh w' s t' own) :
    t'.Scheduled sh.capacity w log := by
  have room := h.fits
  obtain ⟨cold, hot, dropped, past⟩ := evicts.moves_rows h.past (by omega) written
  have length : t'.hotRows.length ≤ sh.capacity := by
    rw [hot, List.length_drop, Tier.hotRows, List.length_map]
    omega
  refine ⟨fun lossless => ?_, by simpa [Tier.hotRows] using length, past⟩
  have behind := h.behind (dropped.symm.trans lossless)
  rw [cold, hot]
  obtain none | some := Nat.eq_zero_or_pos (t.evictedCount env w' s)
  · rwa [none, List.take_zero, List.append_nil, List.drop_zero]
  · have memory : 4 ≤ env.scratchMemory s := by
      by_contra short
      rw [Tier.evictedCount, if_pos (by omega)] at some
      exact Nat.lt_irrefl 0 some
    have nonempty : t.hot.items ≠ [] := by
      have le := t.evictedCount_le env w' s
      exact List.ne_nil_of_length_pos (by omega)
    have newest := latestTs_isGreatest nonempty
    obtain ⟨y, mem, same⟩ := newest.1
    have longest := evictedCount_rows (by omega) newest (same ▸ fits y mem) memory
    exact behind.evict wide ⟨y.toRow, List.mem_map_of_mem mem, same⟩ longest.holds

namespace Engine

/-- A call that does not drop `s`, and if it runs a pass, then with a window of at
least `w` that does not leave the 64 bits, and its write succeeds. -/
structure Steady (s : SensorId) (w : Int) (e : Engine F) (x : Env F × Call F) : Prop where
  kept : x.2.drops s = false
  written : e.pass x.2 ≠ none → x.1.storage.writeBlock s = .ok
  wide : ∀ e' w', e.pass x.2 = some (e', w') → w ≤ w'.toInt
  fits : ∀ e' w', e.pass x.2 = some (e', w') →
    ∀ y ∈ (e.tier s).hot.items, -2 ^ 63 ≤ y.ts.toInt - w'.toInt

variable {e : Engine F}

/-- **One call.** -/
theorem call_scheduled {x : Env F × Call F} (ok : e.Ok) (per : e.backend.persists = true)
    (small : e.cfg.shape.capacity < 2 ^ 31) (positive : 0 < w) (steady : e.Steady s w x)
    (h : (e.tier s).Scheduled e.cfg.shape.capacity w log) :
    ((e.call x.1 x.2).2.tier s).Scheduled e.cfg.shape.capacity w (log ++ e.appended x.1 x.2 s) := by
  have step := call_step ok x.1 x.2 s
  generalize (e.call x.1 x.2).2.tier s = t' at step
  cases step with
  | append => exact h.pushAll e.cfg.shape.capacity_pos _
  | evict e' w' own _ pass silent evicts =>
    rw [per] at evicts
    rw [silent, List.append_nil]
    exact h.evicts small positive (steady.wide e' w' pass) (steady.fits e' w' pass)
      (steady.written (by simp [pass])) evicts
  | drop _ drops =>
    rw [steady.kept] at drops
    cases drops

/-- The calls of a run, one after the other. -/
def called (e : Engine F) (x : Env F × Call F) : Engine F := (e.call x.1 x.2).2

theorem run_eq_foldl (calls : List (Env F × Call F)) (e : Engine F) :
    run calls e = calls.foldl called e := by
  induction calls generalizing e with
  | nil => rfl
  | cons x rest ih => exact ih (called e x)

/-- **Any schedule.** -/
theorem run_scheduled {calls : List (Env F × Call F)} (ok : e.Ok) (per : e.backend.persists = true)
    (small : e.cfg.shape.capacity < 2 ^ 31) (positive : 0 < w)
    (steady : Runs.Each called (Steady s w) e calls)
    (h : (e.tier s).Scheduled e.cfg.shape.capacity w log) :
    ((run calls e).tier s).Scheduled e.cfg.shape.capacity w (log ++ history calls e s) := by
  induction calls generalizing e log with
  | nil => simpa [history, run] using h
  | cons x rest ih =>
    have frame := call_frame ok x.1 x.2
    have next := call_scheduled ok per small positive steady.1 h
    rw [← frame.shape] at next small ⊢
    have last := ih frame.ok (frame.persists.trans per) small steady.2 next
    simpa only [run, history, List.append_assoc] using last

/-- **The schedule does not show.** On an initially empty path, let a sensor be
given entries with timestamps that do not decrease, none of them overwritten, by a
run with any passes whose windows are at least `w`. After one more pass with
window `w`, the persisted rows are those older than the newest by more than `w`,
the window has the others, and both are in the order of their arrival. -/
theorem tiers_split {env₀ : Env F} {cfgIn : Config} {e₀ : Engine F}
    (created : create env₀ cfgIn (some .empty) = .ok e₀) (small : e₀.cfg.shape.capacity < 2 ^ 31)
    {calls : List (Env F × Call F)} {s : SensorId} {w : Int64} (positive : 0 < w.toInt)
    {env : Env F} {c : Call F} {e' : Engine F}
    (steady : Runs.Each called (Steady s w.toInt) e₀ (calls ++ [(env, c)]))
    (pass : (run calls e₀).pass c = some (e', w)) (memory : 4 ≤ env.scratchMemory s)
    (inOrder : (history calls e₀ s).Pairwise fun x y => x.ts.toInt ≤ y.ts.toInt)
    (lossless : (run calls e₀).overwrittenEntries s = 0) {m : Int}
    (newest : IsGreatest (timestampsOf (history calls e₀ s)) m) :
    let rows := (history calls e₀ s).map Entry.toRow
    let t := ((run calls e₀).call env c).2.tier s
    t.coldRows = rows.filter (fun x => x.time < m - w.toInt) ∧
      t.hotRows = rows.filter (fun x => m - w.toInt ≤ x.time) := by
  intro rows t
  have spec := create_spec created
  have empty : (e₀.tier s).Scheduled e₀.cfg.shape.capacity w.toInt [] := by
    rw [spec.tier s]
    exact Tier.scheduled_empty
  obtain ⟨before, ⟨last, -⟩⟩ := Runs.each_append.mp steady
  rw [← run_eq_foldl] at last
  have scheduled := run_scheduled spec.ok spec.persists small positive before empty
  rw [List.nil_append] at scheduled
  have frame := run_frame calls spec.ok
  rw [← frame.shape] at scheduled small
  have room := scheduled.fits
  obtain ⟨own, evicts, -⟩ := call_pass_evicts pass frame.ok env s
  rw [frame.persists.trans spec.persists] at evicts
  obtain ⟨cold, hot, -⟩ :=
    evicts.moves_rows scheduled.past (by omega) (last.written (by simp [pass]))
  rw [overwrittenEntries_eq] at lossless
  have behind := scheduled.behind lossless
  have greatest : IsGreatest {t | ∃ x ∈ rows, Row.time x = t} m := by
    rwa [timestampsOf_rows]
  have newestHot := behind.newest_hot positive greatest
  rw [Tier.hotRows, timestampsOf_rows] at newestHot
  obtain ⟨y, mem, same⟩ := newestHot.1
  have longest := evictedCount_rows positive newestHot (same ▸ last.fits e' w pass y mem) memory
  have sorted : rows.Pairwise (Row.time · ≤ Row.time ·) := List.pairwise_map.mpr inOrder
  rw [cold, hot]
  exact behind.split positive sorted greatest longest

omit [FloatArith F] in
theorem steady_of_no_pass {x : Env F × Call F} (kept : x.2.drops s = false)
    (none : e.pass x.2 = none) : e.Steady s w x :=
  ⟨kept, fun some => absurd none some, by simp [none], by simp [none]⟩

omit [FloatArith F] in
theorem steady_maintain {windowMs : Int64} (wide : w ≤ windowMs.toInt)
    (fits : ∀ y ∈ (e.tier s).hot.items, -2 ^ 63 ≤ y.ts.toInt - windowMs.toInt)
    (written : env.storage.writeBlock s = .ok) :
    e.Steady s w (env, .maintainSlidingWindow windowMs) := by
  have window : ∀ e' w', e.pass (.maintainSlidingWindow windowMs) = some (e', w') →
      w' = windowMs := by
    intro e' w' pass
    simp only [Engine.pass] at pass
    split at pass
    · cases pass
    · split at pass
      · cases pass
      · cases pass
        rfl
  refine ⟨rfl, fun _ => written, ?_, ?_⟩
  · intro e' w' pass
    rwa [window e' w' pass]
  · intro e' w' pass
    rwa [window e' w' pass]

/-- Two rows with a pass between them. -/
def twoRows : List (Env ℚ × Call ℚ) :=
  calmly 0 [.append (some sensorA.bytes) 1 (some fun _ => 1) 1 none, .maintainSlidingWindow 50,
    .append (some sensorA.bytes) 100 (some fun _ => 1) 1 none]

theorem twoRows_steady : Runs.Each called (Steady sensorA (20 : Int64).toInt) smallEngine
    (twoRows ++ [(.calm ℚ 0, .maintainSlidingWindow 20)]) := by
  refine ⟨steady_of_no_pass rfl rfl, steady_maintain (by decide) ?_ rfl,
    steady_of_no_pass rfl rfl, steady_maintain (by decide) ?_ rfl, trivial⟩
  · decide +kernel
  · decide +kernel

/-- The older row is persisted, the newer one in the window. -/
theorem twoRows_split :
    let rows := (history twoRows smallEngine sensorA).map Entry.toRow
    let t := ((run twoRows smallEngine).call (.calm ℚ 0) (.maintainSlidingWindow 20)).2.tier sensorA
    t.coldRows = rows.filter (fun x => x.time < 100 - (20 : Int64).toInt) ∧
      t.hotRows = rows.filter (fun x => 100 - (20 : Int64).toInt ≤ x.time) := by
  have newest : IsGreatest (timestampsOf (history twoRows smallEngine sensorA)) 100 := by
    have latest : (latestTs (history twoRows smallEngine sensorA)).toInt = 100 := by decide +kernel
    rw [← latest]
    exact latestTs_isGreatest (List.ne_nil_of_length_pos (by decide +kernel))
  have inOrder : (history twoRows smallEngine sensorA).Pairwise
      fun x y => x.ts.toInt ≤ y.ts.toInt := by decide +kernel
  have lossless : (run twoRows smallEngine).overwrittenEntries sensorA = 0 := by decide +kernel
  exact tiers_split (smallEngine_created 0) (by decide) (by decide) twoRows_steady rfl (Nat.le_refl 4)
    inOrder lossless newest

end Engine

end ChronosVector
