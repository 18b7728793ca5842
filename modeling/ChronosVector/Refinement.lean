import ChronosVector.Tier

/-!
# Eviction refines popping

* `Tier.Evicts`: one eviction of a sensor's tier;
* `evictSensor_evicts`: what `EvictSensor` does to the sensor, whatever the
  content of the shared scratch;
* `evictSensors_evicts`: a pass is one eviction of every sensor, whatever the
  iteration order.
-/

namespace ChronosVector

variable {F : Type}

/-- Whether blocks are kept at all. -/
def Backend.persists : Backend F → Bool
  | .null => false
  | .rocksdb _ => true

/-- The outcome of writing a complete block. -/
def WriteOutcome.of (persists : Bool) (status : ErrorCode) (b : StoredBlock F) : WriteOutcome F :=
  if persists = false then .swallowed
  else if status = .ok then .persisted b
  else .failed

/-- How many entries `EvictSensor` takes. -/
def SensorSlot.due (slot : SensorSlot F) (windowMs : Int64) : Nat :=
  match slot.ring with
  | none => 0
  | some r => r.newTail windowMs - r.snapshot.1

/-- How many entries a pass removes from the front of a sensor's window. -/
def Tier.evictedCount (t : Tier F) (env : Env F) (w : Int64) (s : SensorId) : Nat :=
  if env.scratchMemory s < 4 then 0 else evictCount w t.hot.items

theorem Tier.evictedCount_le (t : Tier F) (env : Env F) (w : Int64) (s : SensorId) :
    t.evictedCount env w s ≤ t.hot.items.length := by
  unfold evictedCount
  split
  · exact Nat.zero_le _
  · exact evictCount_le w _

/-- The block of an eviction of `k` entries. -/
structure Tier.IsCut (t : Tier F) (k : Nat) (sh : RingShape) (b : StoredBlock F) : Prop where
  rows : b.rows = (t.hotRows.take k).take (k % 2 ^ 32)
  dim : b.dim = sh.dim
  payloadSizeBytes : b.payloadSizeBytes = sh.payloadSize
  dtype : b.dtype = sh.dtype

/-- One eviction of sensor `s`: the tier after it and the blocks written. -/
inductive Tier.Evicts [FloatArith F] (env : Env F) (persists : Bool) (sh : RingShape) (w : Int64)
    (s : SensorId) (t : Tier F) : Tier F → List (Block F) → Prop
  | idle (zero : t.evictedCount env w s = 0) : Evicts env persists sh w s t t []
  | wrote (k : Nat) (blk : Block F) (count : t.evictedCount env w s = k) (pos : 0 < k)
      (sensor : blk.sensorId = s) (id : blk.blockId = t.nextBlockId)
      (cut : t.IsCut k sh blk.stored) :
      Evicts env persists sh w s t
        (t.evict k (.of persists (env.storage.writeBlock s) blk.stored)) [blk]

theorem Tier.Evicts.sensor [FloatArith F] {env : Env F} {persists : Bool} {sh : RingShape}
    {w : Int64} {s : SensorId} {t t' : Tier F} {blks : List (Block F)} (h : t.Evicts env persists sh w s t' blks) {blk : Block F}
    (hb : blk ∈ blks) : blk.sensorId = s := by
  cases h with
  | idle => cases hb
  | wrote k blk' _ _ sensor => rwa [List.mem_singleton.mp hb]

namespace Engine

variable {e e' e'' : Engine F} {env : Env F} {s t : SensorId} {w : Int64}

/-- What a pass leaves alone. -/
structure PassFrame (e e' : Engine F) : Prop where
  cfg : e'.cfg = e.cfg
  uuid : e'.uuid = e.uuid
  closed : e'.closed = e.closed
  metadata : e'.backend.cold.metadata = e.backend.cold.metadata
  persists : e'.backend.persists = e.backend.persists

theorem PassFrame.refl (e : Engine F) : PassFrame e e := ⟨rfl, rfl, rfl, rfl, rfl⟩

theorem PassFrame.trans (h : PassFrame e e') (h' : PassFrame e' e'') : PassFrame e e'' :=
  ⟨h'.cfg.trans h.cfg, h'.uuid.trans h.uuid, h'.closed.trans h.closed,
    h'.metadata.trans h.metadata, h'.persists.trans h.persists⟩

theorem hot_of_lookup_none (h : e.sensors.lookup s = none) : (e.tier s).hot = .empty := by
  simp [tier, Engine.ring, h]

section
variable [FloatArith F]

theorem evicts_idle_of_empty {persists : Bool} {sh : RingShape} (h : (e.tier s).hot.items = []) :
    (e.tier s).Evicts env persists sh w s (e.tier s) [] := by
  refine .idle ?_
  simp only [Tier.evictedCount, h, evictCount_nil, ite_self]

/-- What writing a complete block does to the directory. -/
theorem writeBlock_outcome {blk : Block F} (hc : blk.Complete) (status : ErrorCode)
    (bk : Backend F) (t : Tier F) (hb : t.blocks = bk.cold.blocks blk.sensorId)
    (hid : blk.blockId = t.nextBlockId) (k : Nat) :
    let r := bk.writeBlock status blk
    (⟨t.hot.pop k, if r.1 = .ok then t.nextBlockId + 1 else t.nextBlockId,
        r.2.cold.blocks blk.sensorId⟩ : Tier F) =
      t.evict k (.of bk.persists status blk.stored) ∧
    (∀ u, u ≠ blk.sensorId → r.2.cold.blocks u = bk.cold.blocks u) ∧
    r.2.cold.metadata = bk.cold.metadata ∧ r.2.persists = bk.persists := by
  cases bk with
  | null =>
    refine ⟨?_, fun _ _ => rfl, rfl, rfl⟩
    simp [WriteOutcome.of, Backend.persists, Tier.evict, Backend.writeBlock, hb]
  | rocksdb db =>
    by_cases hs : status = .ok
    · simp only [Backend.writeBlock, hc, not_true, if_false, hs, if_true]
      refine ⟨?_, fun u hu => db.blocks_put_ne hu _ _, rfl, rfl⟩
      simp only [WriteOutcome.of, Backend.persists, Tier.evict, hb, Backend.cold, ← hid,
        ColdTier.blocks_put_self]
      rfl
    · simp only [Backend.writeBlock, hc, not_true, if_false, hs]
      refine ⟨?_, fun _ _ => trivial, trivial, trivial⟩
      simp [WriteOutcome.of, Backend.persists, Tier.evict, hb, hs]

/-- The write half of an eviction of `k` entries. -/
theorem persistEvicted_evicts (env : Env F) (sc : EvictScratch F) {r : SensorRing F} {next k : Nat}
    (ok : e.Ok)
    (h : e.sensors.lookup s = some ⟨some r, next⟩) (hk : k ≤ r.window.length) :
    let q := e.persistEvicted env s next r (r.snapshot.1 + k) sc
    q.2 = some (sc.block r s next k) ∧
    q.1.tier s = (e.tier s).evict k
      (.of e.backend.persists (env.storage.writeBlock s) (sc.block r s next k).stored) ∧
    (∀ t, t ≠ s → q.1.tier t = e.tier t) ∧ q.1.Ok ∧ PassFrame e q.1 := by
  obtain ⟨hsh, hok⟩ := ok s r (ring_eq h)
  have hq : e.tier s = ⟨r.queue, next, e.backend.cold.blocks s⟩ := by
    simp [tier, Engine.ring, h]
  have hlen : r.window.length = r.snapshot.2 - r.snapshot.1 := SensorRing.window_length
  have hend : r.snapshot.1 + k ≤ r.head := by
    have := SensorRing.snapshot_le hok
    simp only [SensorRing.snapshot] at *
    omega
  have hadv := SensorRing.queue_advanceTail hok (Nat.le_add_right _ k) hend
  rw [Nat.add_sub_cancel_left] at hadv
  obtain ⟨htier, hne, hmeta, hper⟩ := writeBlock_outcome
    (EvictScratch.block_complete s next k : (sc.block r s next k).Complete) (env.storage.writeBlock s)
    e.backend (e.tier s) rfl (by rw [hq]; rfl) k
  simp only [persistEvicted, Nat.add_sub_cancel_left]
  refine ⟨trivial, ?_, ?_, ?_, ⟨rfl, rfl, rfl, hmeta, hper⟩⟩
  · have hl := lookup_setSlot_self (e := e) (s := s)
    rw [← htier, hq]
    simp only [tier, Engine.ring, hl, Option.bind_some, hadv]
    rfl
  · intro t ht
    exact tier_congr (lookup_setSlot_ne ht _) (hne t ht)
  · apply ok_setSlot ok ?_
    rintro r' ⟨⟩
    exact ⟨hsh, SensorRing.advanceTail_ok hend⟩

omit [FloatArith F] in
theorem tier_items {r : SensorRing F} {next : Nat}
    (h : e.sensors.lookup s = some ⟨some r, next⟩) : (e.tier s).hot.items = r.window := by
  simp only [tier, ring_eq h]
  rfl

omit [FloatArith F] in
/-- A window with entries is that of a ring. -/
theorem found_of_items (some : 0 < (e.tier s).hot.items.length) :
    ∃ r next, e.sensors.lookup s = .some ⟨.some r, next⟩ := by
  cases ring : e.ring s with
  | none =>
    rw [tier, ring] at some
    exact absurd some (Nat.lt_irrefl 0)
  | some r =>
    obtain ⟨next, found⟩ := slot_of_ring ring
    exact ⟨r, next, found⟩

omit [FloatArith F] in
/-- What `EvictSensor` takes of the ring, it takes of the window. -/
theorem due_eq (ok : e.Ok) {slot : SensorSlot F} (h : e.sensors.lookup s = some slot) :
    slot.due w = evictCount w (e.tier s).hot.items := by
  obtain ⟨ring, next⟩ := slot
  cases ring with
  | none =>
    have empty : (e.tier s).hot.items = [] := by simp [tier, Engine.ring, h]
    rw [empty, evictCount_nil]
    rfl
  | some r =>
    have tail := SensorRing.newTail_eq (ok s r (ring_eq h)).2 w
    simp only [SensorSlot.due, tail, tier_items h, Nat.add_sub_cancel_left]

/-- An empty window, or nothing older than the cutoff. -/
theorem evictSensor_nothing {slot : SensorSlot F} (h : slot.due w = 0) (ok : ∀ r, slot.ring = some r → r.Ok) :
    e.evictSensor env s slot w = (e, none) := by
  obtain ⟨ring, next⟩ := slot
  cases ring with
  | none => rfl
  | some r =>
    simp only [SensorSlot.due] at h
    have tail := SensorRing.newTail_eq (ok r rfl) w
    have same : r.newTail w = r.snapshot.1 := by omega
    simp only [evictSensor, same, if_true, ite_self]

/-- Some entries are due: their rows are copied and written. -/
theorem evictSensor_due {r : SensorRing F} {next n : Nat} (ok : r.Ok)
    (h : SensorSlot.due ⟨some r, next⟩ w = n) (pos : 0 < n) :
    e.evictSensor env s ⟨some r, next⟩ w =
      if env.scratchMemory s < 4 then
        ({ e with evictScratch := e.evictScratch.reserve r.shape n (env.scratchMemory s) }, none)
      else
        e.persistEvicted env s next r (r.snapshot.1 + n)
          ((e.evictScratch.reserve r.shape n (env.scratchMemory s)).copyRows r r.snapshot.1 n) := by
  simp only [SensorSlot.due] at h
  have tail := SensorRing.newTail_eq ok w
  have inside := evictCount_le w r.window
  have width := SensorRing.window_length (r := r)
  have moved : r.newTail w = r.snapshot.1 + n := by omega
  have nonempty : ¬ r.snapshot.1 = r.snapshot.2 := by omega
  have advanced : ¬ r.snapshot.1 + n = r.snapshot.1 := by omega
  simp only [evictSensor, moved, nonempty, advanced, if_false, Nat.add_sub_cancel_left]

/-- **One sensor of a pass.** -/
theorem evictSensor_evicts (env : Env F) (w : Int64) {slot : SensorSlot F} (ok : e.Ok)
    (h : e.sensors.lookup s = some slot) :
    let q := e.evictSensor env s slot w
    (e.tier s).Evicts env e.backend.persists e.cfg.shape w s (q.1.tier s) q.2.toList ∧
    (∀ t, t ≠ s → q.1.tier t = e.tier t) ∧ q.1.Ok ∧ PassFrame e q.1 := by
  have hdue : slot.due w = evictCount w (e.tier s).hot.items := due_eq ok h
  obtain none | pos := Nat.eq_zero_or_pos (slot.due w)
  · rw [evictSensor_nothing none fun r hr => (ok s r ((ring_eq h).trans hr)).2]
    refine ⟨.idle ?_, fun _ _ => rfl, ok, .refl e⟩
    simp only [Tier.evictedCount, ← hdue, none, ite_self]
  obtain ⟨ring, next⟩ := slot
  cases ring with
  | none => cases pos
  | some r =>
    obtain ⟨hsh, hok⟩ := ok s r (ring_eq h)
    have hitems := tier_items h
    have hle := evictCount_le w r.window
    rw [hitems] at hdue
    rw [evictSensor_due hok hdue (hdue ▸ pos)]
    by_cases hm : env.scratchMemory s < 4
    · rw [if_pos hm]
      refine ⟨.idle ?_, fun _ _ => rfl, ok, ⟨rfl, rfl, rfl, rfl, rfl⟩⟩
      simp only [Tier.evictedCount, hm, if_true]
    · rw [if_neg hm]
      obtain ⟨hblk, htier, hne, hok', hframe⟩ := persistEvicted_evicts env
        ((e.evictScratch.reserve r.shape (evictCount w r.window)
          (env.scratchMemory s)).copyRows r r.snapshot.1 (evictCount w r.window)) ok h hle
      refine ⟨?_, hne, hok', hframe⟩
      rw [hblk, htier]
      refine .wrote _ _ ?_ (hdue ▸ pos) rfl ?_ ⟨?_, congrArg RingShape.dim hsh,
        congrArg RingShape.payloadSize hsh, congrArg RingShape.dtype hsh⟩
      · simp only [Tier.evictedCount, hm, if_false, hitems]
      · simp only [tier, h]
        rfl
      · rw [EvictScratch.stored_rows s next hle, Tier.hotRows, hitems, List.map_take]

/-- What a pass over the sensors `ids` does: the sensors in `ids` are evicted
once, the others not at all, and the blocks written are those of the evictions. -/
structure PassEvicts (env : Env F) (w : Int64) (ids : List SensorId) (e e' : Engine F)
    (blks : List (Block F)) : Prop where
  ok : e'.Ok
  frame : PassFrame e e'
  others : ∀ s, s ∉ ids → e'.tier s = e.tier s ∧ ∀ blk ∈ blks, blk.sensorId ≠ s
  evicts : ∀ s ∈ ids, ∃ own,
    (e.tier s).Evicts env e.backend.persists e.cfg.shape w s (e'.tier s) own ∧
    ∀ blk, blk ∈ own ↔ blk ∈ blks ∧ blk.sensorId = s

/-- **A pass refines one eviction of each sensor**, whatever the order. -/
theorem evictSensors_evicts (env : Env F) (w : Int64) {ids : List SensorId} (nodup : ids.Nodup) (ok : e.Ok) :
    PassEvicts env w ids e (evictSensors env w ids e).1 (evictSensors env w ids e).2 := by
  induction ids generalizing e with
  | nil => exact ⟨ok, .refl e, fun s _ => ⟨rfl, by simp [evictSensors]⟩, by simp⟩
  | cons s₀ rest ih =>
    obtain ⟨fresh, nodup'⟩ := List.nodup_cons.mp nodup
    cases h : e.sensors.lookup s₀ with
    | none =>
      have hres : evictSensors env w (s₀ :: rest) e = evictSensors env w rest e := by
        simp only [evictSensors, h]
      rw [hres]
      obtain ⟨ok', frame, others, evicts⟩ := ih nodup' ok
      refine ⟨ok', frame, fun s hs => others s (List.not_mem_of_not_mem_cons hs), ?_⟩
      intro s hs
      obtain rfl | hs := List.mem_cons.mp hs
      · obtain ⟨same, none⟩ := others s fresh
        rw [same]
        refine ⟨[], evicts_idle_of_empty (by rw [hot_of_lookup_none h, BoundedQueue.empty_items]), fun blk => ?_⟩
        simp only [List.not_mem_nil, false_iff, not_and]
        exact none blk
      · exact evicts s hs
    | some slot =>
      obtain ⟨hev, hne, ok₁, frame₁⟩ := evictSensor_evicts env w ok h
      have hres : evictSensors env w (s₀ :: rest) e =
          ((evictSensors env w rest (e.evictSensor env s₀ slot w).1).1,
            (e.evictSensor env s₀ slot w).2.toList ++
              (evictSensors env w rest (e.evictSensor env s₀ slot w).1).2) := by
        simp only [evictSensors, h]
      rw [hres]
      obtain ⟨ok', frame, others, evicts⟩ := ih nodup' ok₁
      refine ⟨ok', frame₁.trans frame, ?_, ?_⟩
      · intro s hs
        obtain ⟨ne, hs⟩ := not_or.mp (mt List.mem_cons.mpr hs)
        obtain ⟨same, none⟩ := others s hs
        refine ⟨same.trans (hne s ne), fun blk hb => ?_⟩
        obtain hb | hb := List.mem_append.mp hb
        · rw [hev.sensor hb]
          exact Ne.symm ne
        · exact none blk hb
      · intro s hs
        by_cases eq : s = s₀
        · subst eq
          obtain ⟨same, none⟩ := others s fresh
          refine ⟨_, by rw [same]; exact hev, fun blk => ?_⟩
          rw [List.mem_append]
          exact ⟨fun hb => ⟨.inl hb, hev.sensor hb⟩,
            fun hb => hb.1.resolve_right fun h' => none blk h' hb.2⟩
        · obtain ⟨own, hown, hmem⟩ := evicts s ((List.mem_cons.mp hs).resolve_left eq)
          rw [frame₁.persists, frame₁.cfg, hne s eq] at hown
          refine ⟨own, hown, fun blk => ?_⟩
          rw [hmem, List.mem_append]
          exact ⟨fun hb => ⟨.inr hb.1, hb.2⟩,
            fun hb => ⟨hb.1.resolve_left fun h' => eq (hb.2 ▸ hev.sensor h'), hb.2⟩⟩

end

end Engine

end ChronosVector
