import ChronosVector.Crashes
import ChronosVector.KeyedStore
import ChronosVector.StoredBytes

/-!
# The path in bytes

The cold path of a machine, with RocksDB down to its keys and values.

* `Engine.storeOps`: what a call asks of the backend, with the bytes it hands over;
* `Machine.runBytes`: the log of those operations, beside the machine;
* `Implements`: the abstract cold tier is what the bytes say;
* `bytes_answer`: after every run, the backend answers from the bytes as the
  abstract one does.
-/

namespace ChronosVector

open Relator

variable {F : Type}

/-! ## Operations on bytes -/

/-- The store after an operation. -/
def Db.next (db : Db) (op : Db.Op) : Db := (db.step op).2

/-- `WriteBlock`. A status that is `ok` has found room in the scratch. -/
def Block.storeOp (bits : F → UInt32) (status : ErrorCode) (blk : Block F) : Db.Op :=
  let raw := blk.raw bits
  .writeBlock (blockSerializedSize raw.count raw.dim raw.payloadSizeBytes raw.dtype).toNat status
    blk.sensorId (Int64.ofNat blk.blockId) raw

/-- RocksDB has logged the operation. -/
def Db.Op.Accepted (op : Db.Op) : Prop := op.answer = .ok

instance (op : Db.Op) : Decidable op.Accepted := inferInstanceAs (Decidable (_ = _))

section
variable [FloatArith F]

namespace Engine

variable (bits : F → UInt32) (e : Engine F) (env : Env F)

/-- What `Create` asks of the backend. -/
def createOps : List Db.Op :=
  [.writeMetadata env.storage.writeMetadata (serializeEngineMetadata (e.cfg.metadata e.uuid))]

/-- What a call asks of the backend. -/
def storeOps : Call F → List Db.Op
  | .dropSensor id =>
    match SensorId.parse id with
    | .error _ => []
    | .ok s =>
      if e.closed = false ∧ (e.sensors.lookup s).isSome then
        [.deleteSensor (env.storage.deleteSensor s) s]
      else []
  | c => (e.writes env c).map fun blk => blk.storeOp bits (env.storage.writeBlock blk.sensorId)

end Engine

namespace Machine

variable (bits : F → UInt32)

/-- The log with the operations of a call that is under way. -/
def underWayBytes (m : Machine F) (wal : Wal Db Db.Op) (env : Env F) (during : Option (Call F)) :
    Wal Db Db.Op :=
  match m.engine, during with
  | some e, some c => wal.write ((e.storeOps bits env c).filter (·.Accepted))
  | _, _ => wal

/-- The log in bytes, in a step of the machine. -/
def stepBytes (env : Env F) (op : MachineOp F) (m : Machine F) (wal : Wal Db Db.Op) :
    Wal Db Db.Op :=
  match m.engine, op with
  | none, .create cfg =>
    match Engine.create env cfg (some m.disk) with
    | .error _ => wal
    | .ok e => wal.write ((e.createOps env).filter (·.Accepted))
  | some e, .call c =>
    let wal := wal.write ((e.storeOps bits env c).filter (·.Accepted))
    if synced e env c then wal.sync Db.next else wal
  | _, .crash during kept => (m.underWayBytes bits wal env during).crash Db.next kept
  | _, _ => wal

/-- A machine and the bytes at its path. -/
def nextBytes (x : Machine F × Wal Db Db.Op) (y : Env F × MachineOp F) :
    Machine F × Wal Db Db.Op := (x.1.next y, x.1.stepBytes bits y.1 y.2 x.2)

def runBytes (steps : List (Env F × MachineOp F)) : Machine F × Wal Db Db.Op :=
  steps.foldl (nextBytes bits) (fresh, ⟨.empty, []⟩)

/-- What RocksDB holds. -/
def bytesAt (steps : List (Env F × MachineOp F)) : Db := (runBytes bits steps).2.view Db.next

end Machine

end

/-! ## What the bytes say -/

/-- The bytes implement the cold tier, whose block ids are below `k`. -/
structure Implements (bits : F → UInt32) (k : Nat) (tier : ColdTier F) (db : Db) : Prop where
  holds : Db.Holds db tier
  below : ∀ s, ∀ n ∈ (tier.blocks s).keys, n < k
  content : ∀ s n b, (tier.blocks s).get n = some b →
    ∃ value, db.get (encodeKey s.bytes (Int64.ofNat n)) = some value ∧ b.ReadsFrom bits value

/-- A write of the abstract log as an operation that RocksDB has accepted. -/
inductive StoreWrite.Is [FloatArith F] (bits : F → UInt32) (k : Nat) :
    StoreWrite F → Db.Op → Prop
  | metadata {data : List UInt8} {status : ErrorCode}
      (accepted : (Db.Op.writeMetadata status data).Accepted) :
      Is bits k (.metadata data) (.writeMetadata status data)
  | block {blk : Block F} {status : ErrorCode} (accepted : (blk.storeOp bits status).Accepted)
      (sized : blk.Sized) (below : blk.blockId < k) :
      Is bits k (.block blk.sensorId blk.blockId blk.stored) (blk.storeOp bits status)
  | delete {s : SensorId} {status : ErrorCode} (accepted : (Db.Op.deleteSensor status s).Accepted) :
      Is bits k (.delete s) (.deleteSensor status s)

section
variable {bits : F → UInt32} {k k' : Nat} {tier : ColdTier F} {db : Db} {s : SensorId}

theorem implements_empty (bits : F → UInt32) : Implements bits 0 (.empty : ColdTier F) .empty where
  holds := Db.holds_empty
  below s n hn := by cases hn
  content s n b found := by cases found

theorem Implements.mono (h : Implements bits k tier db) (le : k ≤ k') :
    Implements bits k' tier db :=
  ⟨h.holds, fun s n hn => Nat.lt_of_lt_of_le (h.below s n hn) le, h.content⟩

theorem StoreWrite.Is.mono [FloatArith F] {x : StoreWrite F} {op : Db.Op}
    (h : StoreWrite.Is bits k x op) (le : k ≤ k') : StoreWrite.Is bits k' x op := by
  cases h with
  | metadata accepted => exact .metadata accepted
  | block accepted sized below => exact .block accepted sized (Nat.lt_of_lt_of_le below le)
  | delete accepted => exact .delete accepted

theorem Db.next_of_accepted {op : Db.Op} (accepted : op.Accepted) (db : Db) :
    db.next op = op.effect db := by
  rw [Db.Op.Accepted] at accepted
  rw [Db.next, Db.step_spec, if_pos accepted]

theorem ofNat_inj {n m : Nat} (hn : n < 2 ^ 63) (hm : m < 2 ^ 63)
    (h : Int64.ofNat n = Int64.ofNat m) : n = m := by
  have same := congrArg Int64.toInt h
  rw [Int64.toInt_ofNat_of_lt hn, Int64.toInt_ofNat_of_lt hm] at same
  exact Int.ofNat_inj.mp same

/-- A block is put. -/
theorem Implements.put (h : Implements bits k tier db) {n : Nat} (hn : n < k) (few : k ≤ 2 ^ 63)
    {b : StoredBlock F} {value : List UInt8} (reads : b.ReadsFrom bits value) :
    Implements bits k (tier.put s n b)
      (SortedMap.put db (encodeKey s.bytes (Int64.ofNat n)) value) where
  holds := h.holds.put (Nat.lt_of_lt_of_le hn few) value b
  below t m hm := by
    by_cases same : t = s
    · subst same
      rw [ColdTier.blocks_put_self] at hm
      obtain rfl | hm := SortedMap.mem_keys_put.mp hm
      · exact hn
      · exact h.below t m hm
    · rw [ColdTier.blocks_put_ne tier same] at hm
      exact h.below t m hm
  content t m c found := by
    by_cases same : t = s
    · subst same
      rw [ColdTier.blocks_put_self] at found
      by_cases this : m = n
      · subst this
        rw [SortedMap.get_put_self] at found
        cases found
        exact ⟨value, SortedMap.get_put_self db, reads⟩
      · rw [SortedMap.get_put_ne _ this] at found
        have other : encodeKey t.bytes (Int64.ofNat m) ≠ encodeKey t.bytes (Int64.ofNat n) := by
          intro key
          have hm := h.below t m (SortedMap.mem_keys.mpr (by rw [found]; rfl))
          exact this (ofNat_inj (by omega) (by omega) (encodeKey_inj key).2)
        rw [SortedMap.get_put_ne db other]
        exact h.content t m c found
    · rw [ColdTier.blocks_put_ne tier same] at found
      have other : encodeKey t.bytes (Int64.ofNat m) ≠ encodeKey s.bytes (Int64.ofNat n) :=
        fun key => same (encodeKey_inj key).1
      rw [SortedMap.get_put_ne db other]
      exact h.content t m c found

/-- The blocks of a sensor are deleted. -/
theorem Implements.erase (h : Implements bits k tier db) (s : SensorId) :
    Implements bits k (tier.erase s)
      (SortedMap.eraseRange db (rangeBeginKey s.bytes) (rangeEndKey s.bytes)) where
  holds := h.holds.erase s
  below t m hm := by
    by_cases same : t = s
    · subst same
      rw [ColdTier.blocks_erase_self] at hm
      cases hm
    · rw [ColdTier.blocks_erase_ne tier same] at hm
      exact h.below t m hm
  content t m c found := by
    by_cases same : t = s
    · subst same
      rw [ColdTier.blocks_erase_self] at found
      cases found
    · rw [ColdTier.blocks_erase_ne tier same] at found
      rw [SortedMap.get_eraseRange_of_not_mem db fun key =>
        same ((encodeKey_mem_range s t _).mp key)]
      exact h.content t m c found

theorem Implements.putMetadata (h : Implements bits k tier db) (data : List UInt8) :
    Implements bits k { tier with metadata := some data } (SortedMap.put db kMetadataKey data) where
  holds := h.holds.putMetadata data
  below := h.below
  content s n b found := by
    rw [SortedMap.get_put_ne db (encodeKey_ne_metadata s _)]
    exact h.content s n b found

/-- **One write.** -/
theorem Implements.apply [FloatArith F] (h : Implements bits k tier db) (few : k ≤ 2 ^ 63)
    {x : StoreWrite F} {op : Db.Op} (is : StoreWrite.Is bits k x op) :
    Implements bits k (tier.apply x) (db.next op) := by
  cases is with
  | metadata accepted =>
    rw [Db.next_of_accepted accepted]
    exact h.putMetadata _
  | block accepted sized below =>
    rw [Db.next_of_accepted accepted]
    exact h.put below few (Block.reads_back bits sized)
  | delete accepted =>
    rw [Db.next_of_accepted accepted]
    exact h.erase _

end

/-! ## What a call asks for is what it logs -/

theorem storeOp_answer {bits : F → UInt32} {blk : Block F} (sized : blk.Sized)
    (status : ErrorCode) : (blk.storeOp bits status).answer = status := by
  have valid := sized.valid bits
  have small := sized.exactSize_lt bits
  have least := (blk.raw bits).le_exactSize
  have size := size_exact valid small
  have length := valid_length valid small
  have written : UInt64.ofNat (serializeBlock true (blk.raw bits)).length =
      blockSerializedSize (blk.raw bits).count (blk.raw bits).dim
        (blk.raw bits).payloadSizeBytes (blk.raw bits).dtype := by
    rw [length, ← size, UInt64.ofNat_toNat]
  have some : blockSerializedSize (blk.raw bits).count (blk.raw bits).dim
      (blk.raw bits).payloadSizeBytes (blk.raw bits).dtype ≠ 0 := by
    intro zero
    rw [zero, UInt64.toNat_zero] at size
    omega
  simp only [Block.storeOp, Db.Op.answer, Db.step, Db.writeBlock, written, some,
    blk.sensorId.sep_free.2, Nat.lt_irrefl, ne_eq, not_true_eq_false, or_self, if_false]
  split
  · rename_i isOk
    exact isOk.symm
  · rfl

theorem delete_answer (status : ErrorCode) (s : SensorId) :
    (Db.Op.deleteSensor status s).answer = status := by
  simp only [Db.Op.answer, Db.step, Db.deleteSensor, s.sep_free.2, if_false]
  split
  · rename_i isOk
    exact isOk.symm
  · rfl

theorem metadata_answer {data : List UInt8} (some : data ≠ []) (status : ErrorCode) :
    (Db.Op.writeMetadata status data).answer = status := by
  simp only [Db.Op.answer, Db.step, Db.writeMetadata, some, if_false]
  split
  · rename_i isOk
    exact isOk.symm
  · rfl

section
variable [FloatArith F] {k : Nat} {e : Engine F} {env : Env F}

namespace Engine

/-- A call takes at most one id. -/
theorem call_nextBlockId (ok : e.Ok) (env : Env F) (c : Call F) (s : SensorId) :
    ((e.call env c).2.tier s).nextBlockId ≤ (e.tier s).nextBlockId + 1 := by
  have step := call_step ok env c s
  generalize (e.call env c).2.tier s = t' at step
  cases step with
  | append =>
    rw [Tier.pushAll_nextBlockId]
    exact Nat.le_succ _
  | evict e' w own t' pass silent evicts =>
    cases evicts with
    | idle => exact Nat.le_succ _
    | wrote k blk =>
      unfold Tier.evict
      split
      · exact Nat.le_succ _
      · exact Nat.le_refl _
      · exact Nat.le_refl _
  | drop => exact Nat.zero_le _

/-- A block of a pass has a size, and the next id of its sensor. -/
theorem writes_sized (ok : e.Ok) {c : Call F} {blk : Block F} (written : blk ∈ e.writes env c) :
    blk.Sized ∧ blk.blockId = (e.tier blk.sensorId).nextBlockId := by
  cases pass : e.pass c with
  | none => simp [writes, pass] at written
  | some p =>
    obtain ⟨own, evicts, mem⟩ := call_pass_evicts pass ok env blk.sensorId
    have ours := (mem blk).mpr ⟨written, rfl⟩
    generalize (e.call env c).2.tier blk.sensorId = t' at evicts
    cases evicts with
    | idle => cases ours
    | wrote k blk' _ _ _ id cut =>
      obtain rfl := List.mem_singleton.mp ours
      refine ⟨⟨writes_complete written, ?_, ?_⟩, id⟩
      · exact le_of_eq_of_le cut.dim e.cfg.dim_le
      · exact le_of_eq_of_le cut.payloadSizeBytes e.cfg.payload_le

theorem written_is (bits : F → UInt32) {blks : List (Block F)}
    (each : ∀ blk ∈ blks, blk.Sized ∧ blk.blockId < k) :
    List.Forall₂ (StoreWrite.Is bits k) (blks.filterMap (Block.logged env))
      ((blks.map fun blk => blk.storeOp bits (env.storage.writeBlock blk.sensorId)).filter
        (·.Accepted)) := by
  induction blks with
  | nil => exact .nil
  | cons blk rest ih =>
    obtain ⟨sized, below⟩ := each blk List.mem_cons_self
    have later := ih fun blk' mem => each blk' (List.mem_cons_of_mem _ mem)
    have answer : (blk.storeOp bits (env.storage.writeBlock blk.sensorId)).answer = _ :=
      storeOp_answer sized (env.storage.writeBlock blk.sensorId)
    by_cases accepted : env.storage.writeBlock blk.sensorId = .ok
    · have logged : blk.logged env = some (.block blk.sensorId blk.blockId blk.stored) :=
        if_pos accepted
      have done : (blk.storeOp bits (env.storage.writeBlock blk.sensorId)).Accepted :=
        answer.trans accepted
      rw [List.filterMap_cons_some logged, List.map_cons, List.filter_cons_of_pos (by simpa)]
      exact .cons (.block done sized below) later
    · have none : blk.logged env = none := if_neg accepted
      have refused : ¬ (blk.storeOp bits (env.storage.writeBlock blk.sensorId)).Accepted :=
        fun done => accepted (answer.symm.trans done)
      rw [List.filterMap_cons_none none, List.map_cons, List.filter_cons_of_neg (by simpa)]
      exact later

/-- **What a call asks for is what it logs.** -/
theorem logged_is (bits : F → UInt32) (ok : e.Ok) (env : Env F) {c : Call F}
    (below : ∀ s, (e.tier s).nextBlockId < k) :
    List.Forall₂ (StoreWrite.Is bits k) (e.logged env c)
      ((e.storeOps bits env c).filter (·.Accepted)) := by
  have each : ∀ blk ∈ e.writes env c, blk.Sized ∧ blk.blockId < k := by
    intro blk written
    obtain ⟨sized, id⟩ := writes_sized ok written
    exact ⟨sized, id ▸ below blk.sensorId⟩
  cases c with
  | dropSensor id =>
    simp only [logged, storeOps]
    cases parsed : SensorId.parse id with
    | error err => exact .nil
    | ok s =>
      simp only
      by_cases known : e.closed = false ∧ (e.sensors.lookup s).isSome
      · have answer := delete_answer (env.storage.deleteSensor s) s
        rw [if_pos known]
        by_cases accepted : env.storage.deleteSensor s = .ok
        · have done : (Db.Op.deleteSensor (env.storage.deleteSensor s) s).Accepted :=
            answer.trans accepted
          rw [if_pos ⟨known.1, known.2, accepted⟩, List.filter_cons_of_pos (by simpa)]
          exact .cons (.delete done) .nil
        · have refused : ¬ (Db.Op.deleteSensor (env.storage.deleteSensor s) s).Accepted :=
            fun done => accepted (answer.symm.trans done)
          rw [if_neg fun all => accepted all.2.2, List.filter_cons_of_neg (by simpa)]
          exact .nil
      · rw [if_neg known, if_neg fun all => known ⟨all.1, all.2.1⟩]
        exact .nil
  | _ => exact written_is bits each

theorem createLogged_is (bits : F → UInt32) (k : Nat) (e : Engine F) (env : Env F) :
    List.Forall₂ (StoreWrite.Is bits k) (e.createLogged env)
      ((e.createOps env).filter (·.Accepted)) := by
  have answer := metadata_answer (serialize_ne_nil (e.cfg.metadata e.uuid))
    env.storage.writeMetadata
  unfold createLogged createOps
  by_cases accepted : env.storage.writeMetadata = .ok
  · have done : (Db.Op.writeMetadata env.storage.writeMetadata
        (serializeEngineMetadata (e.cfg.metadata e.uuid))).Accepted := answer.trans accepted
    rw [if_pos accepted, List.filter_cons_of_pos (by simpa)]
    exact .cons (.metadata done) .nil
  · have refused : ¬ (Db.Op.writeMetadata env.storage.writeMetadata
        (serializeEngineMetadata (e.cfg.metadata e.uuid))).Accepted :=
      fun done => accepted (answer.symm.trans done)
    rw [if_neg accepted, List.filter_cons_of_neg (by simpa)]
    exact .nil

end Engine

/-! ## The machine and its bytes -/

namespace Machine

/-- The machine and the bytes are in step after fewer than `k` operations. -/
structure InStep (bits : F → UInt32) (k : Nat) (m : Machine F) (wal : Wal Db Db.Op) : Prop where
  ok : ∀ e, m.engine = some e → e.Ok
  backend : ∀ e, m.engine = some e → e.backend = .rocksdb m.disk
  ids : ∀ e, m.engine = some e → ∀ s, (e.tier s).nextBlockId ≤ k
  twins : Wal.Twins (Implements bits k) (StoreWrite.Is bits k) m.wal wal

variable {bits : F → UInt32} {m : Machine F} {wal : Wal Db Db.Op}

theorem keeps (few : k ≤ 2 ^ 63) : (Implements bits k ⇒ StoreWrite.Is bits k ⇒ Implements bits k)
    (ColdTier.apply (F := F)) Db.next :=
  fun _ _ h _ _ is => h.apply few is

theorem InStep.later (h : InStep bits k m wal) :
    Wal.Twins (Implements bits (k + 1)) (StoreWrite.Is bits (k + 1)) m.wal wal :=
  h.twins.imp (fun _ _ same => same.mono (Nat.le_succ k)) fun _ _ is => is.mono (Nat.le_succ k)

theorem InStep.disk (h : InStep bits k m wal) (few : k ≤ 2 ^ 63) :
    Implements bits k m.disk (wal.view Db.next) := h.twins.view (keeps few)

theorem inStep_fresh (bits : F → UInt32) : InStep bits 0 (fresh : Machine F) ⟨.empty, []⟩ where
  ok e up := by cases up
  backend e up := by cases up
  ids e up := by cases up
  twins := ⟨implements_empty bits, .nil⟩

theorem inStep_down {w : Wal (ColdTier F) (StoreWrite F)}
    (twins : Wal.Twins (Implements bits k) (StoreWrite.Is bits k) w wal) :
    InStep bits k ⟨w, none⟩ wal where
  ok e up := by cases up
  backend e up := by cases up
  ids e up := by cases up
  twins := twins

theorem inStep_up {w : Wal (ColdTier F) (StoreWrite F)} (ok : e.Ok)
    (backend : e.backend = .rocksdb (w.view ColdTier.apply)) (ids : ∀ s, (e.tier s).nextBlockId ≤ k)
    (twins : Wal.Twins (Implements bits k) (StoreWrite.Is bits k) w wal) :
    InStep bits k ⟨w, some e⟩ wal where
  ok := by
    rintro _ ⟨⟩
    exact ok
  backend := by
    rintro _ ⟨⟩
    exact backend
  ids := by
    rintro _ ⟨⟩
    exact ids
  twins := twins

theorem InStep.created {cfg : Config} (h : InStep bits k m wal)
    (created : Engine.create env cfg (some m.disk) = .ok e) :
    InStep bits (k + 1) ⟨m.wal.write (e.createLogged env), some e⟩
      (wal.write ((e.createOps env).filter (·.Accepted))) := by
  have spec := Engine.create_spec created
  refine inStep_up spec.ok ?_ ?_ (h.later.write (Engine.createLogged_is bits (k + 1) e env))
  · rw [Wal.view_write]
    exact Engine.create_logged created
  · intro s
    rw [spec.tier s]
    exact Nat.zero_le _

theorem InStep.opened (h : InStep bits k m wal) (few : k ≤ 2 ^ 63)
    (opened : Engine.openPath env (some m.disk) = .ok e) :
    InStep bits (k + 1) ⟨m.wal, some e⟩ wal := by
  have spec := Engine.openPath_spec opened
  refine inStep_up spec.ok spec.backend ?_ h.later
  intro s
  obtain ⟨next, -⟩ := spec.tier s
  rw [next, Engine.seedBlockId]
  split
  · exact Nat.zero_le _
  · rename_i last found
    have below := (h.disk few).below s last (List.mem_of_getLast? found)
    omega

/-- The log and its bytes, with the operations of a call. -/
theorem InStep.asked (h : InStep bits k m wal) (up : m.engine = some e) (env : Env F) (c : Call F) :
    Wal.Twins (Implements bits (k + 1)) (StoreWrite.Is bits (k + 1))
      (m.wal.write (e.logged env c)) (wal.write ((e.storeOps bits env c).filter (·.Accepted))) :=
  h.later.write (Engine.logged_is bits (h.ok e up) env fun s => Nat.lt_succ_of_le (h.ids e up s))

theorem InStep.called (h : InStep bits k m wal) (few : k < 2 ^ 63) (up : m.engine = some e)
    (env : Env F) (c : Call F) :
    InStep bits (k + 1) (m.step env (.call c)) (m.stepBytes bits env (.call c) wal) := by
  have ok := h.ok e up
  have ok' := (Engine.call_frame ok env c).ok
  have backend := Engine.call_logged env ok (h.backend e up) c
  rw [Machine.disk, ← Wal.view_write] at backend
  have ids : ∀ s, ((e.call env c).2.tier s).nextBlockId ≤ k + 1 := fun s =>
    Nat.le_trans (Engine.call_nextBlockId ok env c s) (Nat.succ_le_succ (h.ids e up s))
  have asked := h.asked up env c
  simp only [step, stepBytes, up]
  split
  · exact inStep_up ok' backend ids (asked.sync (keeps few))
  · exact inStep_up ok' backend ids asked

theorem InStep.crashed (h : InStep bits k m wal) (few : k < 2 ^ 63) (env : Env F)
    (during : Option (Call F)) (kept : Nat) :
    InStep bits (k + 1) (m.step env (.crash during kept))
      (m.stepBytes bits env (.crash during kept) wal) := by
  have lost : Wal.Twins (Implements bits (k + 1)) (StoreWrite.Is bits (k + 1))
      (m.underWay env during) (m.underWayBytes bits wal env during) := by
    unfold underWay underWayBytes
    cases up : m.engine with
    | none => exact h.later
    | some e =>
      cases during with
      | none => exact h.later
      | some c => exact h.asked up env c
  have bytes : m.stepBytes bits env (.crash during kept) wal =
      (m.underWayBytes bits wal env during).crash Db.next kept := by
    cases up : m.engine with
    | none => simp only [stepBytes, up]
    | some e => simp only [stepBytes, up]
  rw [step_crash, bytes]
  exact inStep_down (lost.crash (keeps few) kept)

/-- **One operation.** -/
theorem step_inStep (h : InStep bits k m wal) (few : k < 2 ^ 63) (env : Env F) (op : MachineOp F) :
    InStep bits (k + 1) (m.step env op) (m.stepBytes bits env op wal) := by
  have stays : InStep bits (k + 1) m wal :=
    ⟨h.ok, h.backend, fun e up s => Nat.le_succ_of_le (h.ids e up s), h.later⟩
  cases up : m.engine with
  | none =>
    cases op with
    | create cfg =>
      cases created : Engine.create env cfg (some m.disk) with
      | error err =>
        simp only [step, stepBytes, up, created]
        exact stays
      | ok e =>
        simp only [step, stepBytes, up, created]
        exact h.created created
    | openPath =>
      cases opened : Engine.openPath env (some m.disk) with
      | error err =>
        simp only [step, stepBytes, up, opened]
        exact stays
      | ok e =>
        simp only [step, stepBytes, up, opened]
        exact h.opened (Nat.le_of_lt few) opened
    | call | destroy =>
      simp only [step, stepBytes, up]
      exact stays
    | crash during kept => exact h.crashed few env during kept
  | some e =>
    cases op with
    | create | openPath =>
      simp only [step, stepBytes, up]
      exact stays
    | call c => exact h.called few up env c
    | destroy =>
      simp only [step, stepBytes, up]
      exact inStep_down h.later
    | crash during kept => exact h.crashed few env during kept

/-- A whole run. -/
theorem run_inStep (bits : F → UInt32) {steps : List (Env F × MachineOp F)}
    (few : steps.length ≤ 2 ^ 63) :
    (runBytes bits steps).1 = run steps fresh ∧
      InStep bits steps.length (run steps fresh) (runBytes bits steps).2 := by
  induction steps using List.reverseRecOn with
  | nil => exact ⟨rfl, inStep_fresh bits⟩
  | append_singleton steps x ih =>
    rw [List.length_append, List.length_singleton] at few ⊢
    obtain ⟨same, inStep⟩ := ih (by omega)
    have both : runBytes bits (steps ++ [x]) = nextBytes bits (runBytes bits steps) x :=
      List.foldl_concat _ _ _ _
    have machine : run (steps ++ [x]) fresh = (run steps fresh).step x.1 x.2 :=
      List.foldl_concat _ _ _ _
    rw [both, machine, nextBytes, same]
    exact ⟨rfl, step_inStep inStep (by omega) x.1 x.2⟩

end Machine

/-! ## Answers -/

/-- A backend over the bytes answers as one over the cold tier. Names come in
their own order. -/
structure Answers (bits : F → UInt32) (db : Db) (tier : ColdTier F) : Prop where
  readMetadata : ∀ status,
    db.readMetadata status = (Backend.rocksdb tier).readMetadata status
  listSensors : ∃ names, db.listSensors .ok = .ok names ∧ names.Nodup ∧
    ∀ name, name ∈ names ↔ ∃ s : SensorId, s.bytes = name ∧ (tier.blocks s).keys ≠ []
  listBlocks : ∀ s : SensorId,
    db.listBlocks .ok s.bytes = .ok ((tier.blocks s).keys.map Int64.ofNat)
  readBlock : ∀ (s : SensorId) (n : Nat) (beyond : Nat → UInt8) (out : OutPointers), n < 2 ^ 63 →
    db.readBlock .ok beyond s.bytes (Int64.ofNat n) out =
      match (tier.blocks s).get n with
      | none => .error .notFound
      | some b => .ok (b.decoded bits out)

omit [FloatArith F] in
theorem Implements.answers {bits : F → UInt32} {tier : ColdTier F} {db : Db}
    (h : Implements bits k tier db) : Answers bits db tier where
  readMetadata status := by
    simp only [Db.readMetadata, Backend.readMetadata, h.holds.metadata]
    by_cases isOk : status = .ok
    · cases tier.metadata <;> simp [isOk]
    · simp [isOk]
  listSensors := by
    obtain ⟨_, listed⟩ : ∃ l, (Backend.rocksdb tier).listSensors .ok = .ok l :=
      ⟨_, by rw [Backend.listSensors, if_pos rfl]⟩
    obtain ⟨names, found, once, mem⟩ := h.holds.listSensors listed
    refine ⟨names, found, once, ?_⟩
    intro name
    simp only [mem, Backend.mem_listSensors listed, and_comm]
  listBlocks s := h.holds.listBlocks s
  readBlock s n beyond out small := by
    rw [Db.readBlock, if_neg s.sep_free.2, if_neg (not_not_intro rfl)]
    cases found : (tier.blocks s).get n with
    | none =>
      have absent : db.get (encodeKey s.bytes (Int64.ofNat n)) = none := by
        by_contra there
        obtain ⟨m, mem, same⟩ := (h.holds.blocks s _).mp (Option.isSome_iff_ne_none.mpr there)
        rw [ofNat_inj small (h.holds.small s m mem) same] at found
        exact absurd mem (SortedMap.get_eq_none.mp found)
      simp only [absent]
    | some b =>
      obtain ⟨value, stored, reads⟩ := h.content s n b found
      simp only [stored]
      exact reads beyond out

/-- **The path in bytes.** After any run of the machine, with power lost at any
moment, the listings, the metadata and the blocks that are read back from the
bytes are those of the abstract cold tier. -/
theorem bytes_answer (bits : F → UInt32) (steps : List (Env F × MachineOp F))
    (few : steps.length ≤ 2 ^ 63) :
    Answers bits (Machine.bytesAt bits steps) (Machine.run steps .fresh).disk :=
  ((Machine.run_inStep bits few).2.disk few).answers

end

/-- The binary32 representations of zero and one. -/
def zeroOne (x : ℚ) : UInt32 := if x = 1 then 0x3F800000 else 0

/-- One row is flushed, and power is lost in the next flush. -/
theorem powerCut_bytes :
    let steps := Machine.firstRow ++ (.calm ℚ 0, .call .flush) :: Machine.powerCut
    Answers zeroOne (Machine.bytesAt zeroOne steps) (Machine.run steps .fresh).disk :=
  bytes_answer zeroOne (Machine.firstRow ++ (.calm ℚ 0, .call .flush) :: Machine.powerCut)
    (by decide)

example : (Machine.bytesAt zeroOne
    (Machine.firstRow ++ (.calm ℚ 0, .call .flush) :: Machine.powerCut)).listBlocks .ok
      sensorA.bytes = .ok [0] := by decide +kernel

end ChronosVector
