import ChronosVector.Exact

/-!
# The window that recovery rebuilds

* `recovery_complete_iff`: when the recovered window holds the newest eligible
  rows that fit;
* `recovery_ordered_iff`: when it lists them in append order.

Both fail on ordinary inputs: a `return` in the replay loop discards the rows
replayed so far, and the loop pushes newer blocks before older ones.
-/

namespace ChronosVector

variable {F : Type} [FloatArith F]

/-- The rows of the sensor's window after `RehydrateSensorRing` on all its
persisted blocks. -/
def hotAfterRecovery (cfg : ValidConfig) (db : ColdTier F) (env : Env F) (s : SensorId)
    (cutoff : Int64) : List (Row F) :=
  windowRows (rehydrateSensorRing cfg (.rocksdb db) env s (db.blocks s).keys cutoff)

/-- The newest of the eligible rows, as many as the ring can hold. -/
def newestEligible (capacity : Nat) (blks : List (StoredBlock F)) (cutoff : Int64) :
    List (Row F) :=
  (appendOrder blks cutoff).drop
    ((appendOrder blks cutoff).length - min capacity (appendOrder blks cutoff).length)

section
variable {cfg : ValidConfig} {db : ColdTier F} {env : Env F} {s : SensorId} {cutoff : Int64}

omit [FloatArith F] in
theorem newestEligible_of_room {capacity : Nat} {blks : List (StoredBlock F)}
    (room : (appendOrder blks cutoff).length ≤ capacity) :
    newestEligible capacity blks cutoff = appendOrder blks cutoff := by
  rw [newestEligible, Nat.min_eq_right room, Nat.sub_self, List.drop_zero]

omit [FloatArith F] in
theorem newestEligible_length (capacity : Nat) (blks : List (StoredBlock F)) (cutoff : Int64) :
    (newestEligible capacity blks cutoff).length =
      min capacity (appendOrder blks cutoff).length := by
  rw [newestEligible, List.length_drop]
  omega

/-- What decides whether recovery keeps the ring. -/
def Recovers (cfg : ValidConfig) (blks : List (StoredBlock F)) (env : Env F) (s : SensorId)
    (cutoff : Int64) : Prop :=
  (appendOrder blks cutoff).length ≤ cfg.shape.capacity ∧
  (∀ b ∈ blks, ¬ b.tEndMs < cutoff) ∧ RecoveryAllocates env s

theorem hot_of_recovers (readable : Readable env s)
    (shape : ∀ b ∈ (db.blocks s).values, b.HasShape cfg.shape)
    (h : Recovers cfg (db.blocks s).values env s cutoff) :
    hotAfterRecovery cfg db env s cutoff = replayOrder (db.blocks s).values cutoff := by
  obtain ⟨room, live, alloc⟩ := h
  by_cases some_ids : (db.blocks s).keys = []
  · have hv : (db.blocks s).values = [] := by
      simpa [SortedMap.keys, SortedMap.values] using some_ids
    simp [hotAfterRecovery, rehydrateSensorRing, some_ids, hv, replayOrder, windowRows]
  · obtain ⟨r, heq, hl⟩ := rehydrate_loaded readable alloc shape live room some_ids
    rw [hotAfterRecovery, heq]
    exact hl.rows_eq

theorem hot_of_not_recovers (readable : Readable env s)
    (shape : ∀ b ∈ (db.blocks s).values, b.HasShape cfg.shape)
    (h : ¬ Recovers cfg (db.blocks s).values env s cutoff) :
    hotAfterRecovery cfg db env s cutoff = [] := by
  rw [hotAfterRecovery, rehydrate_discarded readable shape, windowRows]
  by_cases room : cfg.shape.capacity < (appendOrder (db.blocks s).values cutoff).length
  · exact .inr (.inr room)
  by_cases alloc : RecoveryAllocates env s
  · left
    by_contra live
    refine h ⟨by omega, fun b hb st => live ⟨b, hb, st⟩, alloc⟩
  · exact .inr (.inl alloc)

/-- **When recovery is complete.** The window holds the newest eligible rows
exactly when there are none, or all of them fit and no block is stale. -/
theorem recovery_complete_iff (readable : Readable env s)
    (shape : ∀ b ∈ (db.blocks s).values, b.HasShape cfg.shape) :
    (hotAfterRecovery cfg db env s cutoff).Perm
        (newestEligible cfg.shape.capacity (db.blocks s).values cutoff) ↔
      appendOrder (db.blocks s).values cutoff = [] ∨
      Recovers cfg (db.blocks s).values env s cutoff := by
  by_cases h : Recovers cfg (db.blocks s).values env s cutoff
  · rw [hot_of_recovers readable shape h, newestEligible_of_room h.1]
    exact ⟨fun _ => .inr h, fun _ => replayOrder_perm _ _⟩
  · rw [hot_of_not_recovers readable shape h, List.nil_perm, ← List.length_eq_zero_iff,
      newestEligible_length, ← List.length_eq_zero_iff]
    have hcap := cfg.shape.capacity_pos
    constructor
    · intro hz
      exact .inl (by omega)
    · intro hz
      have := hz.resolve_right h
      omega

/-- A block wholly before the cutoff, and a newer one wholly after it. -/
def staleThenFresh : ColdTier ℚ := smallDb [smallBlock 10 [(10, 1)], smallBlock 2000 [(2000, 2)]]

def twoFresh : ColdTier ℚ := smallDb [smallBlock 1000 [(1000, 1)], smallBlock 2000 [(2000, 2)]]

theorem calm_readable (now : Int64) (s : SensorId) : Readable (.calm ℚ now) s :=
  fun _ => ⟨rfl, rfl⟩

theorem calm_recoveryAllocates (now : Int64) (s : SensorId) :
    RecoveryAllocates (.calm ℚ now) s := ⟨rfl, rfl⟩

/-- The stale block makes the fresh row disappear. -/
theorem recovery_incomplete :
    ¬ ∀ (cfg : ValidConfig) (db : ColdTier ℚ) (env : Env ℚ) (s : SensorId) (cutoff : Int64),
      Readable env s → RecoveryAllocates env s →
      (∀ b ∈ (db.blocks s).values, b.HasShape cfg.shape) →
      (hotAfterRecovery cfg db env s cutoff).Perm
        (newestEligible cfg.shape.capacity (db.blocks s).values cutoff) := by
  intro h
  have hp := h smallValid staleThenFresh (.calm ℚ 0) sensorA 1000 (calm_readable 0 sensorA)
    (calm_recoveryAllocates 0 sensorA) (by decide +kernel)
  have hlen := hp.length_eq
  have hot : (hotAfterRecovery smallValid staleThenFresh (.calm ℚ 0) sensorA 1000).length = 0 := by
    decide +kernel
  have newest : (newestEligible smallValid.shape.capacity
      (staleThenFresh.blocks sensorA).values 1000).length = 1 := by
    decide +kernel
  omega

/-- Two fresh blocks are recovered whole. -/
theorem recovery_complete_twoFresh :
    (hotAfterRecovery smallValid twoFresh (.calm ℚ 0) sensorA 1000).Perm
      (newestEligible smallValid.shape.capacity (twoFresh.blocks sensorA).values 1000) :=
  (recovery_complete_iff (calm_readable 0 sensorA) (by decide +kernel)).mpr
    (.inr ⟨by decide +kernel, by decide +kernel, calm_recoveryAllocates 0 sensorA⟩)

/-- **When recovery keeps the append order.** -/
theorem recovery_ordered_iff (readable : Readable env s)
    (shape : ∀ b ∈ (db.blocks s).values, b.HasShape cfg.shape)
    (eligible : ∀ b ∈ (db.blocks s).values, ∀ row ∈ b.rows, ¬ row.ts < cutoff)
    (room : ((db.blocks s).values.flatMap StoredBlock.rows).length ≤ cfg.shape.capacity) :
    hotAfterRecovery cfg db env s cutoff = (db.blocks s).values.flatMap StoredBlock.rows ↔
      (db.blocks s).values.flatMap StoredBlock.rows = [] ∨
      ((db.blocks s).values.reverse.flatMap StoredBlock.rows =
          (db.blocks s).values.flatMap StoredBlock.rows ∧
        (∀ b ∈ (db.blocks s).values, ¬ b.tEndMs < cutoff) ∧ RecoveryAllocates env s) := by
  have hel : ∀ b ∈ (db.blocks s).values, b.eligible cutoff = b.rows := fun b hb =>
    List.filter_eq_self.mpr fun row hrow => by simpa using eligible b hb row hrow
  have happ : appendOrder (db.blocks s).values cutoff =
      (db.blocks s).values.flatMap StoredBlock.rows := List.flatMap_congr hel
  have hrep : replayOrder (db.blocks s).values cutoff =
      (db.blocks s).values.reverse.flatMap StoredBlock.rows :=
    List.flatMap_congr fun b hb => hel b (List.mem_reverse.mp hb)
  by_cases h : Recovers cfg (db.blocks s).values env s cutoff
  · rw [hot_of_recovers readable shape h, hrep]
    constructor
    · exact fun heq => .inr ⟨heq, h.2⟩
    · rintro (hz | ⟨heq, -⟩)
      · rw [hz, ← List.length_eq_zero_iff, ← hrep, (replayOrder_perm _ _).length_eq, happ, hz,
          List.length_nil]
      · exact heq
  · rw [hot_of_not_recovers readable shape h]
    constructor
    · exact fun heq => .inl heq.symm
    · rintro (hz | ⟨-, hrest⟩)
      · exact hz.symm
      · exact absurd ⟨happ ▸ room, hrest⟩ h

/-- Two fresh blocks are replayed newer first. -/
theorem recovery_reversed :
    ¬ ∀ (cfg : ValidConfig) (db : ColdTier ℚ) (env : Env ℚ) (s : SensorId) (cutoff : Int64),
      Readable env s → RecoveryAllocates env s →
      (∀ b ∈ (db.blocks s).values, b.HasShape cfg.shape) →
      (∀ b ∈ (db.blocks s).values, ∀ row ∈ b.rows, ¬ row.ts < cutoff) →
      ((db.blocks s).values.flatMap StoredBlock.rows).length ≤ cfg.shape.capacity →
      hotAfterRecovery cfg db env s cutoff = (db.blocks s).values.flatMap StoredBlock.rows := by
  intro h
  have heq := h smallValid twoFresh (.calm ℚ 0) sensorA 1000 (calm_readable 0 sensorA)
    (calm_recoveryAllocates 0 sensorA) (by decide +kernel) (by decide +kernel) (by decide +kernel)
  have hot : hotAfterRecovery smallValid twoFresh (.calm ℚ 0) sensorA 1000 =
      [smallRow 2000 2, smallRow 1000 1] := by decide +kernel
  have appended : (twoFresh.blocks sensorA).values.flatMap StoredBlock.rows =
      [smallRow 1000 1, smallRow 2000 2] := by decide +kernel
  rw [hot, appended] at heq
  exact absurd heq (by decide +kernel)

/-- One block is replayed in its own order. -/
theorem recovery_ordered_single :
    hotAfterRecovery smallValid (smallDb [smallBlock 2000 [(1000, 1), (2000, 2)]]) (.calm ℚ 0)
        sensorA 1000 =
      ((smallDb [smallBlock 2000 [(1000, 1), (2000, 2)]]).blocks sensorA).values.flatMap
        StoredBlock.rows :=
  (@recovery_ordered_iff ℚ _ smallValid _ _ _ _ (calm_readable 0 sensorA)
    (by decide +kernel) (by decide +kernel) (by decide +kernel)).mpr
    (.inr ⟨by decide +kernel, by decide +kernel, calm_recoveryAllocates 0 sensorA⟩)

end

end ChronosVector
