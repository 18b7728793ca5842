import ChronosVector.KeySpace
import ChronosVector.StorageBackend

/-!
# The key space as a map of sensors

What the listings say about a run of writes and deletes.

* `WellKeyed`, kept by every operation: no key but those of blocks and the one
  of the metadata;
* `listBlocks_spec`, `listSensors_spec`: the listings of such a store;
* `key_space_maps`: the store is a map from sensors to ascending block ids, and
  the metadata entry is out of its way;
* `Holds`: it implements `ColdTier`.
-/

namespace ChronosVector

open PrefixKeys

/-! ## The last of two kinds of events -/

section
variable {α : Type} {P Q : α → Prop}

/-- `P` happened, and `Q` has not happened since. -/
def Since (P Q : α → Prop) (l : List α) : Prop :=
  ∃ pre a post, l = pre ++ a :: post ∧ P a ∧ ∀ b ∈ post, ¬ Q b

theorem not_since_nil : ¬ Since P Q [] := by
  rintro ⟨pre, a, post, h, -⟩
  simp at h

theorem since_concat {l : List α} {a : α} :
    Since P Q (l ++ [a]) ↔ P a ∨ (Since P Q l ∧ ¬ Q a) := by
  constructor
  · rintro ⟨pre, b, post, eq, hb, quiet⟩
    obtain rfl | ⟨post', c, rfl⟩ := List.eq_nil_or_concat post
    · obtain ⟨-, same⟩ := List.append_inj' eq rfl
      cases same
      exact .inl hb
    · rw [List.concat_eq_append] at eq quiet
      have regrouped : l ++ [a] = (pre ++ b :: post') ++ [c] := by
        rw [eq, List.append_assoc, List.cons_append]
      obtain ⟨rfl, same⟩ := List.append_inj' regrouped rfl
      cases same
      right
      constructor
      · exact ⟨pre, b, post', rfl, hb, fun d hd => quiet d (List.mem_append_left _ hd)⟩
      · exact quiet a (List.mem_append_right _ List.mem_cons_self)
  · rintro (ha | ⟨⟨pre, b, post, rfl, hb, quiet⟩, last⟩)
    · exact ⟨l, a, [], rfl, ha, by simp⟩
    · refine ⟨pre, b, post ++ [a], by simp, hb, ?_⟩
      intro d hd
      obtain hd | hd := List.mem_append.mp hd
      · exact quiet d hd
      · rwa [List.mem_singleton.mp hd]

end

namespace Db

/-! ## Keys in use -/

def WellKeyed (db : Db) : Prop :=
  ∀ k ∈ db.keys, k = kMetadataKey ∨ ∃ (s : SensorId) (id : Int64), 0 ≤ id ∧ k = encodeKey s.bytes id

/-- A block is stored under this id. -/
def HasBlock (db : Db) (s : SensorId) (id : Int64) : Prop := (db.get (encodeKey s.bytes id)).isSome

variable {db : Db} {s t : SensorId} {id : Int64}

theorem wellKeyed_step {op : Op} (keyed : db.WellKeyed) (ok : op.IdOk) :
    (db.step op).2.WellKeyed := by
  rw [step_spec]
  split
  · intro k hk
    cases op with
    | writeBlock scratch status s id blk =>
      obtain rfl | hk := SortedMap.mem_keys_put.mp hk
      · exact .inr ⟨s, id, ok, rfl⟩
      · exact keyed k hk
    | deleteSensor status s => exact keyed k (SortedMap.mem_keys_of_eraseRange hk)
    | writeMetadata status data =>
      obtain rfl | hk := SortedMap.mem_keys_put.mp hk
      · exact .inl rfl
      · exact keyed k hk
  · exact keyed

theorem wellKeyed_run {ops : List Op} (ids : ∀ op ∈ ops, op.IdOk) : (run ops).WellKeyed := by
  induction ops using List.reverseRecOn with
  | nil =>
    intro k hk
    cases hk
  | append_singleton ops op ih =>
    rw [run_concat]
    apply wellKeyed_step
    · exact ih fun op' h => ids op' (List.mem_append_left _ h)
    · exact ids op (List.mem_append_right _ List.mem_cons_self)

/-- A key of a sensor is the key of one of its blocks. -/
theorem WellKeyed.block_key {k : List UInt8} (keyed : db.WellKeyed) (hk : k ∈ db.keys)
    (name : List UInt8) (h : beforeSep kSep k = some name) :
    ∃ (s : SensorId) (id : Int64), s.bytes = name ∧ 0 ≤ id ∧ k = encodeKey s.bytes id := by
  obtain rfl | ⟨s, id, nonneg, rfl⟩ := keyed k hk
  · rw [beforeSep_metadata] at h
    cases h
  · rw [beforeSep_encodeKey] at h
    exact ⟨s, id, Option.some.inj h, nonneg, rfl⟩

/-! ## Listings -/

theorem blockIdOf_encodeKey (s : SensorId) (id : Int64) :
    blockIdOf s.bytes (encodeKey s.bytes id) = some id := by
  have length : (encodeKey s.bytes id).length = s.bytes.length + 1 + 8 := by
    simp [encodeKey]
  have rest : (encodeKey s.bytes id).drop (s.bytes.length + 1) = putU64Be id.toUInt64 := by
    rw [encodeKey, List.drop_append_of_le_length (by simp), List.drop_of_length_le (by simp),
      List.nil_append]
  rw [blockIdOf, if_neg (not_not_intro length), rest, getU64Be_putU64Be, id.toInt64_toUInt64]

/-- The entries `ListBlocks` walks over. -/
theorem mem_range_sensor (keyed : db.WellKeyed) {e : List UInt8 × List UInt8}
    (he : e ∈ db.range (rangeBeginKey s.bytes) (rangeEndKey s.bytes)) :
    ∃ id : Int64, 0 ≤ id ∧ e.1 = encodeKey s.bytes id := by
  obtain ⟨found, inside⟩ := SortedMap.mem_range.mp he
  have present : e.1 ∈ db.keys := SortedMap.mem_keys.mpr (by rw [found]; rfl)
  obtain ⟨t, id, same, nonneg, key⟩ :=
    keyed.block_key present s.bytes ((mem_sensor_range s e.1).mp inside)
  rw [same] at key
  exact ⟨id, nonneg, key⟩

theorem listBlocks_spec (keyed : db.WellKeyed) (s : SensorId) :
    ∃ l, db.listBlocks .ok s.bytes = .ok l ∧ l.Pairwise (· < ·) ∧
      ∀ id, id ∈ l ↔ db.HasBlock s id := by
  refine ⟨_, by rw [listBlocks, if_neg s.sep_free.2, if_neg (by simp)], ?_, ?_⟩
  · rw [List.pairwise_filterMap]
    refine (SortedMap.range_sorted db _ _).imp_of_mem ?_
    intro e e' he he' less id hid id' hid'
    obtain ⟨i, nonneg, key⟩ := mem_range_sensor keyed he
    obtain ⟨i', nonneg', key'⟩ := mem_range_sensor keyed he'
    rw [key, blockIdOf_encodeKey, Option.some.injEq] at hid
    rw [key', blockIdOf_encodeKey, Option.some.injEq] at hid'
    subst hid hid'
    rwa [key, key', encodeKey_lt nonneg nonneg'] at less
  · intro id
    rw [List.mem_filterMap]
    constructor
    · rintro ⟨e, he, hid⟩
      obtain ⟨i, -, key⟩ := mem_range_sensor keyed he
      rw [key, blockIdOf_encodeKey, Option.some.injEq] at hid
      rw [HasBlock, ← hid, ← key, (SortedMap.mem_range.mp he).1]
      rfl
    · intro present
      obtain ⟨v, found⟩ := Option.isSome_iff_exists.mp present
      refine ⟨(encodeKey s.bytes id, v), ?_, blockIdOf_encodeKey s id⟩
      exact SortedMap.mem_range.mpr ⟨found, (encodeKey_mem_range s s id).mpr rfl⟩

theorem listSensors_spec (keyed : db.WellKeyed) :
    ∃ l, db.listSensors .ok = .ok l ∧ l.Nodup ∧
      ∀ name, name ∈ l ↔ ∃ s : SensorId, s.bytes = name ∧ ∃ id, db.HasBlock s id := by
  refine ⟨_, by rw [listSensors, if_neg (by simp)], ?_, ?_⟩
  · apply firstOfRuns_nodup db.keys_sorted
    intro x k y name hx hy
    exact beforeSep_between kSep_covBy hx hy
  · intro name
    constructor
    · intro mem
      obtain ⟨k, hk, before⟩ := value_of_firstOfRuns mem
      obtain ⟨s, id, same, -, rfl⟩ := keyed.block_key hk name before
      exact ⟨s, same, id, SortedMap.mem_keys.mp hk⟩
    · rintro ⟨s, rfl, id, present⟩
      have key := SortedMap.mem_keys.mpr present
      have value : ∃ k ∈ db.keys, beforeSep kSep k = some s.bytes :=
        ⟨_, key, beforeSep_encodeKey s id⟩
      obtain empty | mem := mem_firstOfRuns [] value
      · exact absurd empty s.sep_free.2
      · exact mem

/-! ## Runs -/

theorem hasBlock_put (k : List UInt8) (v : List UInt8) :
    HasBlock (db.put k v) s id ↔ k = encodeKey s.bytes id ∨ db.HasBlock s id := by
  rw [HasBlock, HasBlock]
  by_cases same : k = encodeKey s.bytes id
  · simp [same]
  · rw [SortedMap.get_put_ne db (Ne.symm same)]
    simp [same]

theorem hasBlock_eraseRange :
    HasBlock (db.eraseRange (rangeBeginKey t.bytes) (rangeEndKey t.bytes)) s id ↔
      db.HasBlock s id ∧ s ≠ t := by
  rw [HasBlock, HasBlock]
  by_cases same : s = t
  · rw [SortedMap.get_eraseRange_of_mem db ((encodeKey_mem_range t s id).mpr same)]
    simp [same]
  · rw [SortedMap.get_eraseRange_of_not_mem db fun h => same ((encodeKey_mem_range t s id).mp h)]
    simp [same]

@[simp] theorem Op.deleteSensor_writes {status : ErrorCode} {t : SensorId} :
    ¬ (Op.deleteSensor status t).Writes s id := by
  rintro ⟨-, _, _, _, same⟩
  cases same

@[simp] theorem Op.writeMetadata_writes {status : ErrorCode} {data : List UInt8} :
    ¬ (Op.writeMetadata status data).Writes s id := by
  rintro ⟨-, _, _, _, same⟩
  cases same

@[simp] theorem Op.writeBlock_deletes {scratch status t id' blk} :
    ¬ (Op.writeBlock scratch status t id' blk).Deletes s := by
  rintro ⟨-, _, same⟩
  cases same

@[simp] theorem Op.writeMetadata_deletes {status : ErrorCode} {data : List UInt8} :
    ¬ (Op.writeMetadata status data).Deletes s := by
  rintro ⟨-, _, same⟩
  cases same

theorem hasBlock_step (op : Op) :
    (db.step op).2.HasBlock s id ↔ op.Writes s id ∨ (db.HasBlock s id ∧ ¬ op.Deletes s) := by
  rw [step_spec]
  by_cases accepted : op.answer = .ok
  · rw [if_pos accepted]
    cases op with
    | writeBlock scratch status t id' blk =>
      have written : (Op.writeBlock scratch status t id' blk).Writes s id ↔
          encodeKey t.bytes id' = encodeKey s.bytes id := by
        constructor
        · rintro ⟨-, _, _, _, same⟩
          cases same
          rfl
        · intro same
          obtain ⟨rfl, rfl⟩ := encodeKey_inj same
          exact ⟨accepted, scratch, status, blk, rfl⟩
      rw [Op.effect, hasBlock_put, written]
      simp only [Op.writeBlock_deletes, not_false_eq_true, and_true]
    | deleteSensor status t =>
      have deleted : (Op.deleteSensor status t).Deletes s ↔ s = t := by
        constructor
        · rintro ⟨-, _, same⟩
          cases same
          rfl
        · rintro rfl
          exact ⟨accepted, status, rfl⟩
      rw [Op.effect, hasBlock_eraseRange, deleted]
      simp only [Op.deleteSensor_writes, false_or, ne_eq]
    | writeMetadata status data =>
      rw [Op.effect, hasBlock_put]
      simp only [(encodeKey_ne_metadata s id).symm, Op.writeMetadata_writes,
        Op.writeMetadata_deletes, not_false_eq_true, and_true]
  · rw [if_neg accepted]
    have unwritten : ¬ op.Writes s id := fun h => accepted h.1
    have kept : ¬ op.Deletes s := fun h => accepted h.1
    simp only [unwritten, kept, false_or, not_false_eq_true, and_true]

theorem hasBlock_run (ops : List Op) :
    (run ops).HasBlock s id ↔ Since (Op.Writes s id) (Op.Deletes s) ops := by
  induction ops using List.reverseRecOn with
  | nil =>
    constructor
    · intro h
      cases h
    · intro h
      exact absurd h not_since_nil
  | append_singleton ops op ih => rw [run_concat, hasBlock_step, since_concat, ih]

/-! ## The metadata entry -/

/-- An operation on blocks. -/
def Op.OnBlocks : Op → Prop
  | .writeMetadata _ _ => False
  | _ => True

/-- Every operation on blocks answers and does the same. -/
structure SameBlocks (db db' : Db) : Prop where
  listBlocks : ∀ status sensorId, db.listBlocks status sensorId = db'.listBlocks status sensorId
  listSensors : ∀ status, db.listSensors status = db'.listSensors status
  readBlock : ∀ status beyond (s : SensorId) id out,
    db.readBlock status beyond s.bytes id out = db'.readBlock status beyond s.bytes id out
  step : ∀ op : Op, op.OnBlocks → (db.step op).1 = (db'.step op).1 ∧
    ∀ k, k ≠ kMetadataKey → (db.step op).2.get k = (db'.step op).2.get k

theorem metadata_unchanged {op : Op} (blocks : op.OnBlocks) :
    (db.step op).2.get kMetadataKey = db.get kMetadataKey := by
  rw [step_spec]
  split
  · cases op with
    | writeBlock scratch status s id blk =>
      exact SortedMap.get_put_ne db (encodeKey_ne_metadata s id).symm
    | deleteSensor status s =>
      exact SortedMap.get_eraseRange_of_not_mem db (metadata_not_mem_range s.bytes)
    | writeMetadata status data => cases blocks
  · rfl

theorem get_put_congr {db db' : Db} {k k' v : List UInt8} (h : db.get k' = db'.get k') :
    (db.put k v).get k' = (db'.put k v).get k' := by
  by_cases same : k' = k
  · subst same
    simp
  · rw [SortedMap.get_put_ne db same, SortedMap.get_put_ne db' same, h]

theorem get_eraseRange_congr {db db' : Db} {lo hi k : List UInt8} (h : db.get k = db'.get k) :
    (db.eraseRange lo hi).get k = (db'.eraseRange lo hi).get k := by
  by_cases inside : lo ≤ k ∧ k < hi
  · rw [SortedMap.get_eraseRange_of_mem db inside, SortedMap.get_eraseRange_of_mem db' inside]
  · rw [SortedMap.get_eraseRange_of_not_mem db inside,
      SortedMap.get_eraseRange_of_not_mem db' inside, h]

theorem metadata_unread (db : Db) (data : List UInt8) :
    SameBlocks (db.put kMetadataKey data) db where
  listBlocks status sensorId := by
    rw [listBlocks, listBlocks, SortedMap.range_put db (metadata_not_mem_range sensorId)]
  listSensors status := by
    rw [listSensors, listSensors, ← firstOfRuns_filter _ _ (SortedMap.keys _),
      ← firstOfRuns_filter _ _ db.keys, SortedMap.keys_filter_put db]
    rw [beforeSep_metadata]
    rfl
  readBlock status beyond s id out := by
    rw [readBlock, readBlock, SortedMap.get_put_ne db (encodeKey_ne_metadata s id)]
  step op blocks := by
    rw [step_spec, step_spec]
    refine ⟨rfl, ?_⟩
    intro k other
    have same := SortedMap.get_put_ne db (v := data) other
    split
    · cases op with
      | writeBlock scratch status s id blk => exact get_put_congr same
      | deleteSensor status s => exact get_eraseRange_congr same
      | writeMetadata status data' => cases blocks
    · exact same

/-- **The key space.** A store reached by writes and deletes is a map from
sensors to ascending block ids; a delete reaches no other sensor, and blocks and
metadata do not meet. -/
theorem key_space_maps (ops : List Op) (ids : ∀ op ∈ ops, op.IdOk) :
    (∀ s : SensorId, ∃ l, (run ops).listBlocks .ok s.bytes = .ok l ∧ l.Pairwise (· < ·) ∧
      ∀ id, id ∈ l ↔ Since (Op.Writes s id) (Op.Deletes s) ops) ∧
    (∃ l, (run ops).listSensors .ok = .ok l ∧ l.Nodup ∧ ∀ name, name ∈ l ↔
      ∃ s : SensorId, s.bytes = name ∧ ∃ id, Since (Op.Writes s id) (Op.Deletes s) ops) ∧
    (∀ s t : SensorId, t ≠ s → ∀ id,
      ((run ops).deleteSensor .ok s.bytes).2.get (encodeKey t.bytes id) =
        (run ops).get (encodeKey t.bytes id)) ∧
    (∀ op : Op, op.OnBlocks → ((run ops).step op).2.get kMetadataKey =
      (run ops).get kMetadataKey) ∧
    ∀ data, SameBlocks ((run ops).put kMetadataKey data) (run ops) := by
  have keyed := wellKeyed_run ids
  refine ⟨?_, ?_, ?_, ?_, ?_⟩
  · intro s
    obtain ⟨l, listed, ascending, mem⟩ := listBlocks_spec keyed s
    refine ⟨l, listed, ascending, ?_⟩
    intro id
    rw [mem, hasBlock_run]
  · obtain ⟨l, listed, once, mem⟩ := listSensors_spec keyed
    refine ⟨l, listed, once, ?_⟩
    intro name
    simp only [mem, hasBlock_run]
  · intro s t other id
    rw [deleteSensor, if_neg s.sep_free.2, if_pos rfl]
    apply SortedMap.get_eraseRange_of_not_mem
    intro inside
    exact other ((encodeKey_mem_range s t id).mp inside)
  · intro op blocks
    exact metadata_unchanged blocks
  · intro data
    exact metadata_unread (run ops) data

/-! ## An id that is a prefix of another -/

def emptyBlock : RawBlock where
  tStartMs := 0
  tEndMs := 0
  count := 0
  dim := 1
  payloadSizeBytes := 0
  dtype := some .float32
  timestamps := none
  vectors := none
  scales := none
  payloads := none

/-- `"p"`. -/
def pump : SensorId := ⟨[0x70], by decide⟩

/-- `"p\x02"`, with the byte that ends the range of `"p"`. -/
def pumpTwo : SensorId := ⟨[0x70, 0x02], by decide⟩

def prefixedOps : List Op :=
  [.writeBlock 64 .ok pump 256 emptyBlock, .writeBlock 64 .ok pumpTwo 1 emptyBlock,
    .writeMetadata .ok [7], .writeBlock 64 .ok pump 1 emptyBlock, .deleteSensor .ok pumpTwo]

/-- Written out of order, listed in order. -/
theorem key_space_prefixed :
    (run prefixedOps).listBlocks .ok pump.bytes = .ok [1, 256] ∧
      ∀ id, id ∈ [1, 256] ↔ Since (Op.Writes pump id) (Op.Deletes pump) prefixedOps := by
  have ids : ∀ op ∈ prefixedOps, op.IdOk := by
    simp [prefixedOps, Op.IdOk]
  obtain ⟨l, listed, -, mem⟩ := (key_space_maps prefixedOps ids).1 pump
  have found : (run prefixedOps).listBlocks .ok pump.bytes = .ok [1, 256] := by decide +kernel
  rw [found] at listed
  cases listed
  exact ⟨found, mem⟩

/-! ## The cold tier -/

variable {F : Type} {tier : ColdTier F}

/-- The store holds the keys of a cold tier. -/
structure Holds (db : Db) (tier : ColdTier F) : Prop where
  keyed : db.WellKeyed
  metadata : db.get kMetadataKey = tier.metadata
  small : ∀ s, ∀ n ∈ (tier.blocks s).keys, n < 2 ^ 63
  blocks : ∀ s id, db.HasBlock s id ↔ ∃ n ∈ (tier.blocks s).keys, id = Int64.ofNat n

theorem holds_empty : Holds .empty (.empty : ColdTier F) where
  keyed := by
    intro k hk
    cases hk
  metadata := rfl
  small := by
    intro s n hn
    cases hn
  blocks := by
    intro s id
    simp [HasBlock, SortedMap.empty, SortedMap.get, SortedMap.lookup, SortedMap.keys]

theorem ofNat_nonneg {n : Nat} (hn : n < 2 ^ 63) : 0 ≤ Int64.ofNat n := by
  rw [Int64.le_iff_toInt_le, Int64.toInt_ofNat_of_lt hn]
  exact Int.natCast_nonneg n

/-- `Backend.writeBlock`. -/
theorem Holds.put (holds : Holds db tier) {n : Nat} (hn : n < 2 ^ 63) (value : List UInt8)
    (b : StoredBlock F) :
    Holds (SortedMap.put db (encodeKey s.bytes (Int64.ofNat n)) value) (tier.put s n b) where
  keyed := by
    intro k hk
    obtain rfl | hk := SortedMap.mem_keys_put.mp hk
    · exact .inr ⟨s, Int64.ofNat n, ofNat_nonneg hn, rfl⟩
    · exact holds.keyed k hk
  metadata := by
    rw [SortedMap.get_put_ne db (encodeKey_ne_metadata s _).symm]
    exact holds.metadata
  small := by
    intro t m hm
    by_cases same : t = s
    · subst same
      rw [ColdTier.blocks_put_self] at hm
      obtain rfl | hm := SortedMap.mem_keys_put.mp hm
      · exact hn
      · exact holds.small t m hm
    · rw [ColdTier.blocks_put_ne tier same] at hm
      exact holds.small t m hm
  blocks := by
    intro t id
    rw [hasBlock_put, holds.blocks]
    by_cases same : t = s
    · subst same
      rw [ColdTier.blocks_put_self]
      simp only [SortedMap.mem_keys_put]
      constructor
      · rintro (key | ⟨m, hm, rfl⟩)
        · exact ⟨n, .inl rfl, (encodeKey_inj key).2.symm⟩
        · exact ⟨m, .inr hm, rfl⟩
      · rintro ⟨m, rfl | hm, rfl⟩
        · exact .inl rfl
        · exact .inr ⟨m, hm, rfl⟩
    · rw [ColdTier.blocks_put_ne tier same]
      constructor
      · rintro (key | present)
        · exact absurd (encodeKey_inj key).1.symm same
        · exact present
      · exact .inr

/-- `Backend.deleteSensor`. -/
theorem Holds.erase (holds : Holds db tier) (s : SensorId) :
    Holds (SortedMap.eraseRange db (rangeBeginKey s.bytes) (rangeEndKey s.bytes))
      (tier.erase s) where
  keyed := by
    intro k hk
    exact holds.keyed k (SortedMap.mem_keys_of_eraseRange hk)
  metadata := by
    rw [SortedMap.get_eraseRange_of_not_mem db (metadata_not_mem_range s.bytes)]
    exact holds.metadata
  small := by
    intro t m hm
    by_cases same : t = s
    · subst same
      rw [ColdTier.blocks_erase_self] at hm
      cases hm
    · rw [ColdTier.blocks_erase_ne tier same] at hm
      exact holds.small t m hm
  blocks := by
    intro t id
    rw [hasBlock_eraseRange, holds.blocks]
    by_cases same : t = s
    · subst same
      rw [ColdTier.blocks_erase_self]
      simp [SortedMap.empty, SortedMap.keys]
    · rw [ColdTier.blocks_erase_ne tier same]
      exact and_iff_left same

/-- `Backend.writeMetadata`. -/
theorem Holds.putMetadata (holds : Holds db tier) (data : List UInt8) :
    Holds (SortedMap.put db kMetadataKey data) { tier with metadata := some data } where
  keyed := by
    intro k hk
    obtain rfl | hk := SortedMap.mem_keys_put.mp hk
    · exact .inl rfl
    · exact holds.keyed k hk
  metadata := SortedMap.get_put_self db
  small := holds.small
  blocks := by
    intro t id
    rw [hasBlock_put]
    simp only [(encodeKey_ne_metadata t id).symm, false_or]
    exact holds.blocks t id

/-- `Backend.listBlocks`. -/
theorem Holds.listBlocks (holds : Holds db tier) (s : SensorId) :
    db.listBlocks .ok s.bytes = .ok ((tier.blocks s).keys.map Int64.ofNat) := by
  obtain ⟨l, listed, ascending, mem⟩ := listBlocks_spec holds.keyed s
  have numeric : ((tier.blocks s).keys.map Int64.ofNat).Pairwise (· < ·) := by
    rw [List.pairwise_map]
    refine (tier.blocks s).keys_sorted.imp_of_mem ?_
    intro n m hn hm less
    rw [Int64.lt_iff_toInt_lt, Int64.toInt_ofNat_of_lt (holds.small s n hn),
      Int64.toInt_ofNat_of_lt (holds.small s m hm)]
    exact Int.ofNat_lt.mpr less
  have irrefl : Std.Irrefl fun a b : Int64 => a < b := ⟨fun _ => Int64.lt_irrefl⟩
  have antisymm : Std.Antisymm fun a b : Int64 => a < b :=
    ⟨fun _ _ h h' => absurd (Int64.lt_trans h h') Int64.lt_irrefl⟩
  have same : l = (tier.blocks s).keys.map Int64.ofNat := by
    apply ascending.eq_of_mem_iff numeric
    intro id
    rw [mem, holds.blocks, List.mem_map]
    simp only [eq_comm]
  rw [listed, same]

/-- `Backend.listSensors`, up to the order. -/
theorem Holds.listSensors (holds : Holds db tier) {names : List SensorId}
    (listed : (Backend.rocksdb tier).listSensors .ok = .ok names) :
    ∃ l, db.listSensors .ok = .ok l ∧ l.Nodup ∧
      ∀ name, name ∈ l ↔ ∃ s ∈ names, s.bytes = name := by
  obtain ⟨l, found, once, mem⟩ := listSensors_spec holds.keyed
  refine ⟨l, found, once, ?_⟩
  intro name
  rw [mem]
  constructor
  · rintro ⟨s, rfl, id, present⟩
    obtain ⟨n, hn, -⟩ := (holds.blocks s id).mp present
    exact ⟨s, (Backend.mem_listSensors listed s).mpr (List.ne_nil_of_mem hn), rfl⟩
  · rintro ⟨s, hs, rfl⟩
    obtain ⟨n, hn⟩ := List.exists_mem_of_ne_nil _ ((Backend.mem_listSensors listed s).mp hs)
    exact ⟨s, rfl, Int64.ofNat n, (holds.blocks s _).mpr ⟨n, hn, rfl⟩⟩

end Db

end ChronosVector
