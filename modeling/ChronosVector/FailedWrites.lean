import ChronosVector.Durability

/-!
# After a failed write

A pass moves the tail before it writes, and the branch that handles the error
moves nothing back.

* `Selects`, `Offers`: which entries a pass takes from a window, and which ones
  it hands to `WriteBlock`, by their numbers in the ring;
* `failed_write_loses`: what a failed write took is gone from the window, never
  offered again and counted nowhere;
* `appended_accounted`: over a run, the entries that failed writes took are
  exactly the ones that the other accounts miss.
-/

namespace ChronosVector

variable {F : Type} [FloatArith F]

namespace Engine

/-- Entry number `i` of sensor `s` is among those the call's pass takes. -/
def Selects (e : Engine F) (env : Env F) (c : Call F) (s : SensorId) (i : Nat) : Prop :=
  ∃ e' w, e.pass c = some (e', w) ∧ (e.tier s).hot.first ≤ i ∧
    i < (e.tier s).hot.first + (e.tier s).evictedCount env w s

/-- Entry number `i` of sensor `s` is in a block that the call hands to
`WriteBlock`, whose rows are the entries from the window's first on. -/
def Offers (e : Engine F) (env : Env F) (c : Call F) (s : SensorId) (i : Nat) : Prop :=
  ∃ blk ∈ e.writes env c, blk.sensorId = s ∧ (e.tier s).hot.first ≤ i ∧
    i < (e.tier s).hot.first + blk.stored.rows.length

/-- The call hands `blk` to `WriteBlock`, which returns an error. The code it
returns depends on which backend it is, not on what is in it. -/
def WriteFails (e : Engine F) (env : Env F) (c : Call F) (blk : Block F) : Prop :=
  blk ∈ e.writes env c ∧
  (e.backend.writeBlock (env.storage.writeBlock blk.sensorId) blk).1 ≠ .ok

/-- A retry of what a pass took from `s`: it is still in the window, the next
flush offers it again, and the accounts of the sensor have not changed. -/
structure Retried (e : Engine F) (env : Env F) (c : Call F) (s : SensorId) : Prop where
  kept : ∀ i, e.Selects env c s i →
    ((e.call env c).2.tier s).hot.numbered i = (e.tier s).hot.numbered i
  offered : ∀ i, e.Selects env c s i → ∀ env' : Env F, 4 ≤ env'.scratchMemory s →
    (e.call env c).2.Offers env' .flush s i
  counted : ((e.call env c).2.tier s).coldRows.length +
      ((e.call env c).2.tier s).hot.items.length + ((e.call env c).2.tier s).hot.dropped =
    (e.tier s).coldRows.length + (e.tier s).hot.items.length + (e.tier s).hot.dropped

variable {e : Engine F} {env : Env F} {c : Call F} {s : SensorId} {blk : Block F} {i : Nat}

/-! ## Blocks handed to the backend -/

theorem evictSensor_complete {slot : SensorSlot F} {w : Int64}
    (h : blk ∈ (e.evictSensor env s slot w).2.toList) : blk.Complete := by
  simp only [evictSensor] at h
  split at h
  · cases h
  split at h
  · cases h
  split at h
  · cases h
  split at h
  · cases h
  · simp only [persistEvicted, Option.toList_some, List.mem_singleton] at h
    rw [h]
    exact EvictScratch.block_complete _ _ _

theorem evictSensors_complete {w : Int64} {ids : List SensorId}
    (h : blk ∈ (evictSensors env w ids e).2) : blk.Complete := by
  induction ids generalizing e with
  | nil => cases h
  | cons s rest ih =>
    simp only [evictSensors] at h
    split at h
    · exact ih h
    · obtain h | h := List.mem_append.mp h
      · exact evictSensor_complete h
      · exact ih h

/-- Every block that is handed to `WriteBlock` is well formed. -/
theorem writes_complete (h : blk ∈ e.writes env c) : blk.Complete := by
  simp only [writes] at h
  split at h
  · cases h
  · exact evictSensors_complete h

/-- A write of a block that the engine made fails only with the storage. -/
theorem WriteFails.status (h : e.WriteFails env c blk) :
    e.backend.persists = true ∧ env.storage.writeBlock blk.sensorId ≠ .ok := by
  obtain ⟨written, failed⟩ := h
  have complete := writes_complete written
  cases hb : e.backend with
  | null =>
    rw [hb] at failed
    exact absurd rfl failed
  | rocksdb db =>
    refine ⟨rfl, fun isOk => failed ?_⟩
    simp only [hb, Backend.writeBlock, complete, not_true, if_false, isOk, if_true]

/-- Row `j` of an offered block is entry number `j` of the window. -/
theorem Offers.row (ok : e.Ok) (h : e.Offers env c s i) :
    ∃ blk ∈ e.writes env c, blk.sensorId = s ∧
      blk.stored.rows[i - (e.tier s).hot.first]? =
        ((e.tier s).hot.numbered i).map Entry.toRow := by
  obtain ⟨blk, written, sensor, lo, hi⟩ := h
  refine ⟨blk, written, sensor, ?_⟩
  cases pass : e.pass c with
  | none => simp [writes, pass] at written
  | some p =>
    obtain ⟨own, evicts, mem⟩ := call_pass_evicts pass ok env s
    have ours := (mem blk).mpr ⟨written, sensor⟩
    generalize (e.call env c).2.tier s = t' at evicts
    cases evicts with
    | idle => cases ours
    | wrote k blk' _ _ _ _ cut =>
      obtain rfl := List.mem_singleton.mp ours
      have short : i - (e.tier s).hot.first < (blk.stored.rows).length := by omega
      rw [cut.rows, List.length_take, List.length_take] at short
      rw [cut.rows, List.getElem?_take_of_lt (by omega), List.getElem?_take_of_lt (by omega),
        Tier.hotRows, List.getElem?_map, BoundedQueue.numbered_queued lo]

/-! ## One failed write -/

/-- A failed write leaves the tier as it is, less what the pass took. -/
theorem WriteFails.tier (ok : e.Ok) (h : e.WriteFails env c blk) :
    ∃ e' w k, e.pass c = some (e', w) ∧
      (e.tier blk.sensorId).evictedCount env w blk.sensorId = k ∧ 0 < k ∧
      k ≤ (e.tier blk.sensorId).hot.items.length ∧
      (e.call env c).2.tier blk.sensorId = (e.tier blk.sensorId).evict k .failed := by
  obtain ⟨per, failed⟩ := h.status
  have written := h.1
  cases pass : e.pass c with
  | none => simp [writes, pass] at written
  | some p =>
    obtain ⟨e', w⟩ := p
    obtain ⟨own, evicts, mem⟩ := call_pass_evicts pass ok env blk.sensorId
    have ours := (mem blk).mpr ⟨written, rfl⟩
    generalize (e.call env c).2.tier blk.sensorId = t' at evicts
    cases evicts with
    | idle => cases ours
    | wrote k blk' count pos =>
      refine ⟨e', w, k, rfl, count, pos, ?_, ?_⟩
      · exact count ▸ Tier.evictedCount_le _ env w blk.sensorId
      · simp only [WriteOutcome.of, per, Bool.true_eq_false, if_false, failed]

/-- Numbers that the window has passed stay passed while the sensor lives. -/
theorem run_passed {m : Nat} {steps : List (Env F × Call F)} (ok : e.Ok)
    (kept : ∀ x ∈ steps, x.2.drops s = false) (h : m ≤ (e.tier s).hot.first) :
    m ≤ ((run steps e).tier s).hot.first := by
  apply run_tier (fun _ t => m ≤ t.hot.first) (P := fun _ c => c.drops s = false) ?_ ok rfl rfl kept h
  · intro e' env c log t' _ _ keeps h step
    cases step with
    | append =>
      rw [Tier.pushAll_hot]
      exact Nat.le_trans h (BoundedQueue.first_le_pushAll _)
    | evict _ _ _ _ _ _ evicts =>
      cases evicts with
      | idle => exact h
      | wrote =>
        rw [Tier.evict_hot]
        exact Nat.le_trans h BoundedQueue.first_le_pop
    | drop _ drops =>
      rw [keeps] at drops
      cases drops
  -- the invariant does not read the log
  · exact []

/-- **A failed write loses what it was given.** The pass has removed the entries
from the window, under a number that never comes back; they are neither
persisted nor counted as overwritten, and no later pass offers one of them. -/
theorem failed_write_loses (ok : e.Ok) (fails : e.WriteFails env c blk) :
    ¬ e.Retried env c blk.sensorId ∧
    ∃ k, 0 < k ∧
      (∀ i, e.Selects env c blk.sensorId i ↔
        (e.tier blk.sensorId).hot.first ≤ i ∧ i < (e.tier blk.sensorId).hot.first + k) ∧
      (e.call env c).2.tier blk.sensorId =
        { e.tier blk.sensorId with hot := (e.tier blk.sensorId).hot.pop k } ∧
      ∀ steps : List (Env F × Call F), (∀ x ∈ steps, x.2.drops blk.sensorId = false) →
        ∀ i, e.Selects env c blk.sensorId i →
          ((run steps (e.call env c).2).tier blk.sensorId).hot.numbered i = none ∧
          ∀ env' c', ¬ (run steps (e.call env c).2).Offers env' c' blk.sensorId i := by
  obtain ⟨e', w, k, pass, count, pos, le, after⟩ := fails.tier ok
  have ok' := (call_frame ok env c).ok
  have selects (i : Nat) : e.Selects env c blk.sensorId i ↔
      (e.tier blk.sensorId).hot.first ≤ i ∧ i < (e.tier blk.sensorId).hot.first + k := by
    constructor
    · rintro ⟨e'', w', pass', lo, hi⟩
      obtain ⟨rfl, rfl⟩ := Prod.mk.inj (Option.some.inj (pass.symm.trans pass'))
      exact ⟨lo, count ▸ hi⟩
    · rintro ⟨lo, hi⟩
      exact ⟨e', w, pass, lo, count.symm ▸ hi⟩
  have first : ((e.call env c).2.tier blk.sensorId).hot.first =
      (e.tier blk.sensorId).hot.first + k := by
    rw [after, Tier.evict_hot, BoundedQueue.pop, Nat.min_eq_left le]
  refine ⟨fun retried => ?_, k, pos, selects, after, fun steps kept i sel => ?_⟩
  · -- the accounts are `k` entries short
    have counted := retried.counted
    rw [after] at counted
    simp only [Tier.evict, Tier.coldRows, BoundedQueue.pop, List.length_drop] at counted
    omega
  · have passed : (e.tier blk.sensorId).hot.first + k ≤
        ((run steps (e.call env c).2).tier blk.sensorId).hot.first :=
      run_passed ok' kept (Nat.le_of_eq first.symm)
    have beyond := ((selects i).mp sel).2
    refine ⟨BoundedQueue.numbered_passed (Nat.lt_of_lt_of_le beyond passed), ?_⟩
    rintro env' c' ⟨blk', -, -, lo, -⟩
    omega

end Engine

/-- The block of a flush on a full disk. -/
theorem smallAppended_writeFails :
    ∃ blk, smallAppended.WriteFails writeFails .flush blk ∧ blk.sensorId = sensorA := by
  have sensors : (smallAppended.writes writeFails .flush).map Block.sensorId = [sensorA] := by
    decide +kernel
  have failed : ∀ blk ∈ smallAppended.writes writeFails .flush,
      (smallAppended.backend.writeBlock .io blk).1 ≠ .ok := by decide +kernel
  obtain ⟨blk, written, sensor⟩ := List.mem_map.mp (sensors ▸ List.mem_singleton_self sensorA)
  exact ⟨blk, ⟨written, failed blk written⟩, sensor⟩

/-- The row that a flush could not write is gone, and nothing counts it. -/
theorem failed_flush_loses : ∃ blk, smallAppended.WriteFails writeFails .flush blk ∧
    ¬ smallAppended.Retried writeFails .flush blk.sensorId := by
  obtain ⟨blk, fails, -⟩ := smallAppended_writeFails
  exact ⟨blk, fails,
    (Engine.failed_write_loses (Engine.reachable_ok smallAppended_reachable) fails).1⟩

theorem failed_flush_not_retried :
    ¬ ∀ (e : Engine ℚ) (env : Env ℚ) (c : Call ℚ) (blk : Block ℚ), Engine.Reachable e →
      e.WriteFails env c blk → e.Retried env c blk.sensorId := by
  intro h
  obtain ⟨blk, fails, sensor⟩ := smallAppended_writeFails
  have counted := (h _ _ _ blk smallAppended_reachable fails).counted
  rw [sensor] at counted
  have before : (smallAppended.tier sensorA).coldRows.length +
      (smallAppended.tier sensorA).hot.items.length + (smallAppended.tier sensorA).hot.dropped =
      1 := by decide +kernel
  have after : ((smallAppended.call writeFails .flush).2.tier sensorA).coldRows.length +
      ((smallAppended.call writeFails .flush).2.tier sensorA).hot.items.length +
      ((smallAppended.call writeFails .flush).2.tier sensorA).hot.dropped = 0 := by decide +kernel
  omega

/-! ## The account of a run -/

/-- Of `n` entries appended, `m` were taken for writes that failed. -/
structure Tier.Counted (cap n m : Nat) (t : Tier F) : Prop where
  count : n = t.coldRows.length + t.hot.items.length + t.hot.dropped + m
  fits : t.hot.items.length ≤ cap
  past : ∀ id ∈ t.blocks.keys, id < t.nextBlockId

section
variable {cap n m : Nat} {t t' : Tier F} {env : Env F} {s : SensorId}

omit [FloatArith F] in
theorem Tier.counted_empty : (Tier.empty : Tier F).Counted cap 0 0 :=
  ⟨rfl, Nat.zero_le _, fun _ h => by simp [Tier.empty, SortedMap.keys, SortedMap.empty] at h⟩

omit [FloatArith F] in
theorem Tier.Counted.pushAll (h : t.Counted cap n m) (hc : 0 < cap) (xs : List (Entry F)) :
    (t.pushAll cap xs).Counted cap (n + xs.length) m := by
  obtain ⟨count, fits, past⟩ := h
  have pushed := BoundedQueue.pushAll_count (q := t.hot) hc xs
  refine ⟨?_, ?_, by simpa using past⟩
  · rw [← Tier.pushAll_hot] at pushed
    simp only [Tier.coldRows, Tier.pushAll_blocks] at count ⊢
    omega
  · rw [Tier.pushAll_hot]
    exact BoundedQueue.pushAll_length_le xs fits hc

/-- One eviction moves entries to a block, or to the account of the failed. -/
theorem Tier.Counted.evicts {sh : RingShape} {w : Int64} {own : List (Block F)}
    (h : t.Counted sh.capacity n m) (small : sh.capacity < 2 ^ 31)
    (ev : t.Evicts env true sh w s t' own) :
    t'.Counted sh.capacity n
      (m + if env.storage.writeBlock s = .ok then 0 else t.evictedCount env w s) := by
  obtain ⟨counted, fits, past⟩ := h
  have le := t.evictedCount_le env w s
  cases ev with
  | idle zero =>
    simp only [zero, ite_self, Nat.add_zero]
    exact ⟨counted, fits, past⟩
  | wrote k blk count pos sensor id cut =>
    rw [count] at le ⊢
    simp only [WriteOutcome.of, Bool.true_eq_false, if_false]
    split
    · refine ⟨?_, ?_, past_put past _ _⟩
      · rw [coldRows_put past, cut.rows_eq (by omega), List.length_append, List.length_take,
          Tier.hotRows, List.length_map, Tier.evict_hot, BoundedQueue.pop_dropped,
          BoundedQueue.pop_length]
        omega
      · rw [Tier.evict_hot]
        exact BoundedQueue.pop_length_le fits
    · refine ⟨?_, ?_, past⟩
      · simp only [Tier.evict, Tier.coldRows, BoundedQueue.pop_dropped,
          BoundedQueue.pop_length] at counted ⊢
        omega
      · exact BoundedQueue.pop_length_le fits

namespace Engine

/-- How many entries of `s` a call takes for a write that fails. -/
def lost (e : Engine F) (env : Env F) (c : Call F) (s : SensorId) : Nat :=
  match e.pass c with
  | none => 0
  | some (_, w) =>
    if env.storage.writeBlock s = .ok then 0 else (e.tier s).evictedCount env w s

def lostAll : List (Env F × Call F) → Engine F → SensorId → Nat
  | [], _, _ => 0
  | (env, c) :: rest, e, s => e.lost env c s + lostAll rest (e.call env c).2 s

theorem call_counted {e : Engine F} (env : Env F) {c : Call F} (ok : e.Ok) (per : e.backend.persists = true)
    (small : e.cfg.shape.capacity < 2 ^ 31) (kept : c.drops s = false)
    (h : (e.tier s).Counted e.cfg.shape.capacity n m) :
    ((e.call env c).2.tier s).Counted e.cfg.shape.capacity (n + (e.appended env c s).length)
      (m + e.lost env c s) := by
  have step := call_step ok env c s
  generalize (e.call env c).2.tier s = t' at step
  cases step with
  | append noPass =>
    simp only [Engine.lost, noPass]
    exact h.pushAll e.cfg.shape.capacity_pos _
  | evict e' w own _ pass silent evicts =>
    simp only [Engine.lost, pass, silent]
    rw [per] at evicts
    exact h.evicts small evicts
  | drop _ drops =>
    rw [kept] at drops
    cases drops

theorem run_counted {e : Engine F} {steps : List (Env F × Call F)} (ok : e.Ok)
    (per : e.backend.persists = true) (small : e.cfg.shape.capacity < 2 ^ 31)
    (kept : ∀ x ∈ steps, x.2.drops s = false)
    (h : (e.tier s).Counted e.cfg.shape.capacity n m) :
    ((run steps e).tier s).Counted e.cfg.shape.capacity (n + (history steps e s).length)
      (m + lostAll steps e s) := by
  induction steps generalizing e n m with
  | nil => exact h
  | cons x rest ih =>
    obtain ⟨hx, hrest⟩ := List.forall_mem_cons.mp kept
    have frame := call_frame ok x.1 x.2
    have next := call_counted x.1 ok per small hx h
    rw [← frame.shape] at next small ⊢
    have last := ih frame.ok (frame.persists.trans per) small hrest next
    simpa only [run, history, lostAll, List.length_append, Nat.add_assoc] using last

/-- **The account of a run** from an empty path: an entry that is neither
persisted, in the window nor counted as overwritten was taken for a write that
failed. -/
theorem appended_accounted {env₀ : Env F} {cfgIn : Config} {e : Engine F}
    (created : create env₀ cfgIn (some .empty) = .ok e)
    (small : e.cfg.shape.capacity < 2 ^ 31) {steps : List (Env F × Call F)}
    (kept : ∀ x ∈ steps, x.2.drops s = false) :
    (history steps e s).length =
      ((run steps e).tier s).coldRows.length + ((run steps e).tier s).hotRows.length +
        (run steps e).overwrittenEntries s + lostAll steps e s := by
  have spec := create_spec created
  have start : (e.tier s).Counted e.cfg.shape.capacity 0 0 := by
    rw [spec.tier s]
    exact Tier.counted_empty
  have h := (run_counted spec.ok spec.persists small kept start).count
  rw [overwrittenEntries_eq, Tier.hotRows, List.length_map]
  omega

end Engine

end

end ChronosVector
