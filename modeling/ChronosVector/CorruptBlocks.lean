import ChronosVector.KeySpace
import ChronosVector.Restart

/-!
# Recovery with corrupt blocks

Each block is read twice: its header, then all of it. Both reads run the whole
decoder, so both find a block corrupt or neither does.

* `readBlock_corruption_iff`: the decoder's verdict without the out-pointers;
* `ColdTier.without`: the directory without the corrupt blocks;
* `replayBlocks_skip`: the replay on it is the replay that skips them;
* `open_skips_corrupt`: `Open` succeeds and recovers what it would without them.
-/

namespace ChronosVector

variable {F : Type}

/-- Whether `ReadBlock` reports corruption does not depend on what it copies. -/
theorem Db.readBlock_corruption_iff (status : ErrorCode) (beyond : Nat → UInt8)
    (sensorId : List UInt8) (blockId : Int64) (out out' : OutPointers) (db : Db) :
    db.readBlock status beyond sensorId blockId out = .error .corruption ↔
      db.readBlock status beyond sensorId blockId out' = .error .corruption := by
  simp only [readBlock]
  split
  · rfl
  split
  · rfl
  split
  · rfl
  · rw [decode_corruption_iff, decode_corruption_iff]

/-- The blocks in `corrupt` fail to decode; every other read succeeds. -/
structure CorruptReads (st : StorageStatus) (corrupt : SensorId → Nat → Bool) : Prop where
  lists : st.Lists
  peekBlock : ∀ s id, st.peekBlock s id = if corrupt s id then .corruption else .ok
  readBlock : ∀ s id, st.readBlock s id = if corrupt s id then .corruption else .ok

namespace ColdTier

/-- The directory without the blocks in `corrupt`. -/
def without (db : ColdTier F) (corrupt : SensorId → Nat → Bool) : ColdTier F where
  metadata := db.metadata
  sensors :=
    ⟨db.sensors.entries.map (.map id fun s m => m.filter fun id => !corrupt s id),
      db.sensors.nodupKeys.map₂ _⟩

theorem blocks_without (db : ColdTier F) (corrupt : SensorId → Nat → Bool) (s : SensorId) :
    (db.without corrupt).blocks s = (db.blocks s).filter fun id => !corrupt s id := by
  simp only [blocks, without, AList.lookup, List.dlookup_map₂]
  cases List.dlookup s db.sensors.entries <;> rfl

end ColdTier

/-! ## Replay -/

section
variable [FloatArith F] {cfg : ValidConfig} {db : ColdTier F} {env : Env F}
  {corrupt : SensorId → Nat → Bool} {s : SensorId} {cutoff : Int64}

/-- **One sensor.** The replay of all blocks is that of the readable ones. -/
theorem replayBlocks_skip (reads : CorruptReads env.storage corrupt) (ids : List Nat)
    (r : SensorRing F) (filled : Nat) :
    replayBlocks cfg (.rocksdb db) env s cutoff ids r filled =
      replayBlocks cfg (.rocksdb (db.without corrupt)) env s cutoff
        (ids.filter fun id => !corrupt s id) r filled := by
  induction ids generalizing r filled with
  | nil => rfl
  | cons id rest ih =>
    by_cases bad : corrupt s id = true
    · simp only [bad, List.filter_cons, Bool.not_true, Bool.false_eq_true, if_false, ← ih]
      simp only [replayBlocks, Backend.readBlock, reads.peekBlock, bad, if_true, reduceCtorEq,
        if_false]
    · have good : corrupt s id = false := by simpa using bad
      have same (status : ErrorCode) : (Backend.rocksdb (db.without corrupt)).readBlock status s id =
          (Backend.rocksdb db).readBlock status s id := by
        simp only [Backend.readBlock, db.blocks_without, SortedMap.get_filter, good, Bool.not_false]
      simp only [good, List.filter_cons, Bool.not_false, if_true, replayBlocks, same, ih]

/-- The hot window of a slot's ring. -/
def windowOf (ring : Option (SensorRing F)) : BoundedQueue (Entry F) :=
  match ring with
  | none => .empty
  | some r => r.queue

/-- A sensor all of whose blocks are corrupt gets a ring with nothing in it. -/
theorem rehydrate_skip (reads : CorruptReads env.storage corrupt) (ids : List Nat) :
    windowOf (rehydrateSensorRing cfg (.rocksdb db) env s ids cutoff) =
      windowOf (rehydrateSensorRing cfg (.rocksdb (db.without corrupt)) env s
        (ids.filter fun id => !corrupt s id) cutoff) := by
  unfold rehydrateSensorRing
  by_cases none : ids = []
  · simp [none]
  rw [if_neg none]
  cases env.ringMemory s with
  | none => simp
  | some mem =>
    dsimp only
    rw [replayBlocks_skip reads, List.filter_reverse]
    split
    · rename_i all
      simp [all, replayBlocks, windowOf]
    · rfl

/-- The hot window of a sensor that `Open` registered, or did not. -/
theorem Engine.Opened.window {e : Engine F} (opened : Engine.Opened env db e) (s : SensorId) :
    (e.tier s).hot =
      if e.cfg.recoverHotWindow ≠ 0 then
        windowOf (rehydrateSensorRing e.cfg (.rocksdb db) env s (db.blocks s).keys
          (env.now - e.cfg.windowDurationMs))
      else .empty := by
  by_cases listed : (db.blocks s).keys = []
  · rw [Engine.hot_of_lookup_none (opened.unlisted s listed)]
    simp [listed, rehydrateSensorRing, windowOf]
  · simp only [Engine.tier, Engine.ring_eq (opened.slot s listed), Engine.recoveredSlot]
    by_cases recovers : e.cfg.recoverHotWindow ≠ 0
    · rw [if_pos recovers, if_pos recovers]
      rfl
    · rw [if_neg recovers, if_neg recovers]

/-- **Recovery with corrupt blocks.** On a path with valid metadata, whichever
blocks are corrupt and whatever the cutoff, `Open` succeeds; every sensor's window
is the one recovered from the path without those blocks, and the next block id is
above every persisted one, corrupt or not. -/
theorem open_skips_corrupt (reads : CorruptReads env.storage corrupt) {bytes : List UInt8}
    {m : Metadata} {cfg : ValidConfig} (metadata : db.metadata = some bytes)
    (decodes : deserializeEngineMetadata bytes = .ok m)
    (valid : validateAndDefault (placeholderConfig.adopt m) = .ok cfg) :
    ∃ e e', Engine.openPath env (some db) = .ok e ∧
      Engine.openPath env (some (db.without corrupt)) = .ok e' ∧
      ∀ s, (e.tier s).hot = (e'.tier s).hot ∧
        ∀ id ∈ (db.blocks s).keys, id < (e.tier s).nextBlockId := by
  obtain ⟨e, opens, rfl, -⟩ := Engine.openPath_lists reads.lists metadata decodes valid
  have metadata' : (db.without corrupt).metadata = some bytes := metadata
  obtain ⟨e', opens', same, -⟩ := Engine.openPath_lists reads.lists metadata' decodes valid
  have opened := Engine.openPath_spec opens
  have opened' := Engine.openPath_spec opens'
  refine ⟨e, e', opens, opens', fun s => ⟨?_, ?_⟩⟩
  · rw [opened.window, opened'.window, same, db.blocks_without, SortedMap.keys_filter,
      rehydrate_skip reads]
  · intro id hid
    rw [(opened.tier s).1]
    exact Engine.lt_seedBlockId _ hid

end

/-- Three blocks under the metadata of the small engine. -/
def threeBlocks : ColdTier ℚ :=
  { smallDb [smallBlock 1000 [(1000, 1)], smallBlock 2000 [(2000, 2)], smallBlock 3000 [(3000, 3)]] with
    metadata := some (serializeEngineMetadata (smallValid.metadata smallConfig.uuid)) }

/-- The calm environment, where block 1 of every sensor is corrupt. -/
def blockOneCorrupt (now : Int64) : Env ℚ :=
  { Env.calm ℚ now with
    storage :=
      { StorageStatus.allOk with
        peekBlock := fun _ id => if id == 1 then .corruption else .ok
        readBlock := fun _ id => if id == 1 then .corruption else .ok } }

theorem open_skips_middle :
    ∃ e e', Engine.openPath (blockOneCorrupt 3000) (some threeBlocks) = .ok e ∧
      Engine.openPath (blockOneCorrupt 3000) (some (threeBlocks.without fun _ id => id == 1)) = .ok e' ∧
      ∀ s, (e.tier s).hot = (e'.tier s).hot ∧
        ∀ id ∈ (threeBlocks.blocks s).keys, id < (e.tier s).nextBlockId := by
  have valid : validateAndDefault smallConfig = .ok smallValid := rfl
  obtain ⟨v, accepted, -⟩ := validate_adopt valid smallConfig.uuid
  have reads : CorruptReads (blockOneCorrupt 3000).storage fun _ id => id == 1 :=
    ⟨⟨rfl, rfl, rfl, fun _ => rfl⟩, fun _ _ => rfl, fun _ _ => rfl⟩
  exact open_skips_corrupt reads rfl (deserialize_serialize _) accepted

end ChronosVector
