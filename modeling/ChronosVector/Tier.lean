import ChronosVector.Api

/-!
# One sensor across both tiers

What an engine keeps of one sensor, without columns, slots and scratch: the hot
window as a bounded queue, the next block id and the persisted blocks.

* `Engine.tier`: the abstraction of a sensor;
* `getOrCreateRing_attached`: registering a ring changes no tier;
* `Ingests.result`: an append call pushes its entries on the sensor's tier.
-/

namespace ChronosVector

variable {F : Type}

@[ext] structure Tier (F : Type) where
  hot : BoundedQueue (Entry F)
  nextBlockId : Nat
  blocks : SortedMap Nat (StoredBlock F)

/-- What became of the block of an eviction: the write failed, the null backend
swallowed it, or it is persisted. -/
inductive WriteOutcome (F : Type)
  | failed
  | swallowed
  | persisted (b : StoredBlock F)

namespace Tier

def empty : Tier F := ⟨.empty, 0, .empty⟩

/-- The rows of the persisted blocks, in block-id order. -/
def coldRows (t : Tier F) : List (Row F) := t.blocks.values.flatMap StoredBlock.rows

/-- The rows of the hot window, oldest first. -/
def hotRows (t : Tier F) : List (Row F) := t.hot.items.map Entry.toRow

def push (cap : Nat) (t : Tier F) (x : Entry F) : Tier F := { t with hot := t.hot.push cap x }

def pushAll (cap : Nat) (t : Tier F) (xs : List (Entry F)) : Tier F := xs.foldl (push cap) t

/-- Remove the `k` oldest entries of the window; the id is used up unless the
write failed. -/
def evict (t : Tier F) (k : Nat) : WriteOutcome F → Tier F
  | .failed => { t with hot := t.hot.pop k }
  | .swallowed => { t with hot := t.hot.pop k, nextBlockId := t.nextBlockId + 1 }
  | .persisted b =>
    { hot := t.hot.pop k
      nextBlockId := t.nextBlockId + 1
      blocks := t.blocks.put t.nextBlockId b }

@[simp] theorem pushAll_nil (cap : Nat) (t : Tier F) : t.pushAll cap [] = t := rfl

@[simp] theorem pushAll_cons (cap : Nat) (t : Tier F) (x : Entry F) (xs : List (Entry F)) :
    t.pushAll cap (x :: xs) = (t.push cap x).pushAll cap xs := rfl

@[simp] theorem push_nextBlockId (cap : Nat) (t : Tier F) (x : Entry F) :
    (t.push cap x).nextBlockId = t.nextBlockId := rfl

@[simp] theorem push_blocks (cap : Nat) (t : Tier F) (x : Entry F) :
    (t.push cap x).blocks = t.blocks := rfl

@[simp] theorem pushAll_nextBlockId (cap : Nat) (t : Tier F) (xs : List (Entry F)) :
    (t.pushAll cap xs).nextBlockId = t.nextBlockId := by
  induction xs generalizing t with
  | nil => rfl
  | cons x xs ih => rw [pushAll_cons, ih, push_nextBlockId]

@[simp] theorem pushAll_blocks (cap : Nat) (t : Tier F) (xs : List (Entry F)) :
    (t.pushAll cap xs).blocks = t.blocks := by
  induction xs generalizing t with
  | nil => rfl
  | cons x xs ih => rw [pushAll_cons, ih, push_blocks]

@[simp] theorem pushAll_hot (cap : Nat) (t : Tier F) (xs : List (Entry F)) :
    (t.pushAll cap xs).hot = xs.foldl (BoundedQueue.push cap) t.hot := by
  induction xs generalizing t with
  | nil => rfl
  | cons x xs ih => rw [pushAll_cons, ih]; rfl

@[simp] theorem evict_hot (t : Tier F) (k : Nat) (o : WriteOutcome F) :
    (t.evict k o).hot = t.hot.pop k := by
  cases o <;> rfl

end Tier

/-! ## Sensors of an engine -/

namespace Engine

/-- What the engine keeps of a sensor. -/
def tier (e : Engine F) (s : SensorId) : Tier F where
  hot := match e.ring s with
    | none => .empty
    | some r => r.queue
  nextBlockId := match e.sensors.lookup s with
    | none => 0
    | some slot => slot.nextBlockId
  blocks := e.backend.cold.blocks s

variable {e e' : Engine F} {s t : SensorId} {r : SensorRing F}

/-- The tier of a sensor depends on its slot and its blocks only. -/
theorem tier_congr (hl : e'.sensors.lookup s = e.sensors.lookup s)
    (hb : e'.backend.cold.blocks s = e.backend.cold.blocks s) : e'.tier s = e.tier s := by
  simp only [tier, ring, hl, hb]

theorem ring_eq {slot : SensorSlot F} (h : e.sensors.lookup s = some slot) :
    e.ring s = slot.ring := by
  simp [ring, h]

theorem slot_of_ring (h : e.ring s = some r) :
    ∃ next, e.sensors.lookup s = some ⟨some r, next⟩ := by
  obtain ⟨slot, found, ring⟩ := Option.bind_eq_some_iff.mp h
  obtain ⟨_, next⟩ := slot
  cases ring
  exact ⟨next, found⟩

@[simp] theorem lookup_setSlot_self (slot : SensorSlot F) :
    (e.setSlot s slot).sensors.lookup s = some slot := by
  simp [setSlot]

theorem lookup_setSlot_ne (h : t ≠ s) (slot : SensorSlot F) :
    (e.setSlot s slot).sensors.lookup t = e.sensors.lookup t := by
  simp [setSlot, AList.lookup_insert_ne h]

theorem tier_setSlot_ne (h : t ≠ s) (slot : SensorSlot F) : (e.setSlot s slot).tier t = e.tier t :=
  tier_congr (lookup_setSlot_ne h slot) rfl

theorem tier_setSlot_self (slot : SensorSlot F) :
    (e.setSlot s slot).tier s =
      ⟨match slot.ring with | none => .empty | some r => r.queue, slot.nextBlockId,
        e.backend.cold.blocks s⟩ := by
  simp only [tier, ring, lookup_setSlot_self, Option.bind_some]
  rfl

theorem ok_setSlot (ok : e.Ok) {slot : SensorSlot F}
    (h : ∀ r, slot.ring = some r → r.shape = e.cfg.shape ∧ r.Ok) : (e.setSlot s slot).Ok := by
  intro t r hr
  by_cases eq : t = s
  · subst eq
    exact h r (by simpa [ring] using hr)
  · exact ok t r (by simpa [ring, lookup_setSlot_ne eq] using hr)

/-- `setRing` writes the sensor map only. -/
theorem setRing_frame (e : Engine F) (s : SensorId) (r : SensorRing F) :
    e.setRing s r = { e with sensors := (e.setRing s r).sensors } := by
  unfold setRing
  split <;> rfl

theorem setRing_eq {slot : SensorSlot F} (h : e.sensors.lookup s = some slot) :
    e.setRing s r = e.setSlot s { slot with ring := some r } := by
  simp [setRing, h]

theorem setSlot_setSlot (slot slot' : SensorSlot F) :
    (e.setSlot s slot).setSlot s slot' = e.setSlot s slot' := by
  simp only [setSlot, AList.insert_insert]

theorem setRing_setRing {r r' : SensorRing F} :
    (e.setRing s r).setRing s r' = e.setRing s r' := by
  cases found : e.sensors.lookup s with
  | none => simp [setRing, found]
  | some slot =>
    rw [setRing_eq found, setRing_eq found, setRing_eq (lookup_setSlot_self _), setSlot_setSlot]

/-! ### Registering a ring -/

variable {env : Env F}

/-- `GetOrCreateRing` writes the sensor map only. -/
theorem getOrCreateRing_frame (h : e.getOrCreateRing env s = .ok (e', r)) :
    e' = { e with sensors := e'.sensors } := by
  unfold getOrCreateRing at h
  split at h
  · cases h
    rfl
  · split at h <;> cases h
    rfl
  · split at h
    · cases h
    · split at h <;> cases h
      rfl

/-- What `GetOrCreateRing` returns: the ring of the sensor, registered, with no
tier changed. -/
structure Attached (e e' : Engine F) (s : SensorId) (r : SensorRing F) : Prop where
  slot : e'.sensors.lookup s = some ⟨some r, (e.tier s).nextBlockId⟩
  queue : r.queue = (e.tier s).hot
  tier : ∀ t, e'.tier t = e.tier t
  cfg : e'.cfg = e.cfg
  uuid : e'.uuid = e.uuid
  backend : e'.backend = e.backend
  ok : e'.Ok

theorem attach (ok : e.Ok) (mem : Columns F) (next : Nat)
    (hn : (e.tier s).nextBlockId = next) (hot : (e.tier s).hot = .empty) :
    Attached e (e.setSlot s ⟨some (SensorRing.new e.cfg.shape mem), next⟩) s
      (SensorRing.new e.cfg.shape mem) where
  slot := by simp [hn]
  queue := by simp [hot]
  tier := by
    intro t
    by_cases eq : t = s
    · subst eq
      rw [tier_setSlot_self]
      simp only [SensorRing.queue_new, ← hot, ← hn]
      rfl
    · exact tier_setSlot_ne eq _
  cfg := rfl
  uuid := rfl
  backend := rfl
  ok := by
    apply ok_setSlot ok ?_
    rintro r ⟨⟩
    exact ⟨rfl, SensorRing.new_ok _ _⟩

theorem getOrCreateRing_attached (ok : e.Ok) (h : e.getOrCreateRing env s = .ok (e', r)) :
    Attached e e' s r := by
  unfold getOrCreateRing at h
  split at h
  · -- the ring exists
    rename_i r' next hs
    cases h
    refine ⟨by simp [tier, hs], by simp [tier, ring, hs], fun _ => rfl, rfl, rfl, rfl, ok⟩
  · -- a slot that recovery left without a ring
    rename_i next hs
    split at h
    · cases h
    · cases h
      exact attach ok _ next (by simp [tier, hs]) (by simp [tier, ring, hs])
  · -- a new sensor
    rename_i hs
    split at h
    · cases h
    · split at h
      · cases h
      · cases h
        exact attach ok _ 0 (by simp [tier, hs]) (by simp [tier, ring, hs])

/-- Storing through the ring pointer of an attached sensor. -/
theorem Attached.store {r' : SensorRing F} {xs : List (Entry F)} (h : Attached e e' s r)
    (hsh : r'.shape = e.cfg.shape) (hok : r'.Ok)
    (hq : r'.queue = xs.foldl (BoundedQueue.push e.cfg.shape.capacity) r.queue) :
    (e'.setRing s r').tier s = (e.tier s).pushAll e.cfg.shape.capacity xs ∧
    (∀ t, t ≠ s → (e'.setRing s r').tier t = e.tier t) ∧ (e'.setRing s r').Ok := by
  rw [setRing_eq h.slot]
  refine ⟨?_, ?_, ?_⟩
  · rw [tier_setSlot_self]
    have hb : e'.backend.cold.blocks s = (e.tier s).blocks := by rw [h.backend]; rfl
    simp only [hq, h.queue, hb, Tier.ext_iff, Tier.pushAll_hot, Tier.pushAll_nextBlockId,
      Tier.pushAll_blocks, and_self]
  · intro t ht
    rw [tier_setSlot_ne ht, h.tier]
  · apply ok_setSlot h.ok ?_
    rintro r ⟨⟩
    exact ⟨by rw [hsh, h.cfg], hok⟩

theorem getOrCreateRing_error {err : ErrorCode} (h : e.getOrCreateRing env s = .error err) :
    err ≠ .ok := by
  unfold getOrCreateRing at h
  split at h
  · cases h
  · split at h <;> cases h
    decide
  · split at h
    · cases h
      decide
    · split at h <;> cases h
      decide

/-- With room for a sensor and for its columns, there is a ring to append to. -/
theorem getOrCreateRing_room
    (room : ¬ (0 < e.cfg.maxSensors.toNat ∧ e.cfg.maxSensors.toNat ≤ e.sensors.keys.length))
    (memory : (env.ringMemory s).isSome) : ∃ e' r, e.getOrCreateRing env s = .ok (e', r) := by
  obtain ⟨mem, allocated⟩ := Option.isSome_iff_exists.mp memory
  unfold getOrCreateRing
  split
  · exact ⟨_, _, rfl⟩
  · rw [allocated]
    exact ⟨_, _, rfl⟩
  · rw [if_neg room, allocated]
    exact ⟨_, _, rfl⟩

end Engine

/-! ## Appending -/

section
variable [FloatArith F] {r : SensorRing F}

theorem SensorRing.ingest_shape (ts : Int64) (vec : Nat → F) (dim : Nat)
    (payload : Option (Nat → UInt8)) : (r.ingest ts vec dim payload).shape = r.shape := by
  simp only [SensorRing.ingest]
  split <;> rfl

theorem SensorRing.ingest_ok (ok : r.Ok) (ts : Int64) (vec : Nat → F) (dim : Nat)
    (payload : Option (Nat → UInt8)) : (r.ingest ts vec dim payload).Ok := by
  simp only [SensorRing.ingest]
  split
  · exact append_ok ok
  · exact append_ok ok

theorem SensorRing.ingest_queue (ok : r.Ok) (ts : Int64) (vec : Nat → F) (dim : Nat)
    (payload : Option (Nat → UInt8)) :
    (r.ingest ts vec dim payload).queue =
      r.queue.push r.shape.capacity (r.ingested ts vec dim payload) := by
  simp only [SensorRing.ingest, SensorRing.ingested]
  split
  · exact queue_append ok
  · exact queue_append ok

namespace SensorRing

variable {ts : Int64} {vec : Nat → F} {dim : Nat} {payload : Option (Nat → UInt8)}

theorem ingest_head : (r.ingest ts vec dim payload).head = r.head + 1 := by
  simp only [ingest]
  split <;> rfl

theorem ingest_tail : (r.ingest ts vec dim payload).tail = r.tail := by
  simp only [ingest]
  split <;> rfl

theorem entryAt_ingest_self :
    (r.ingest ts vec dim payload).entryAt r.head = r.ingested ts vec dim payload := by
  simp only [ingest, ingested]
  split
  · exact entryAt_append_self
  · exact entryAt_append_self

theorem entryAt_ingest_ne {idx : Nat} (lt : idx < r.head) (near : r.head < idx + r.shape.capacity) :
    (r.ingest ts vec dim payload).entryAt idx = r.entryAt idx := by
  simp only [ingest]
  split
  · exact entryAt_append_ne (slotOf_ne lt near)
  · exact entryAt_append_ne (slotOf_ne lt near)

end SensorRing

namespace Engine

theorem ingestAll_shape (dim : Nat) (rows : List (BatchRow F)) :
    (ingestAll dim rows r).shape = r.shape := by
  induction rows generalizing r with
  | nil => rfl
  | cons b rest ih => simp only [ingestAll, ih, SensorRing.ingest_shape]

theorem ingestAll_ok (ok : r.Ok) (dim : Nat) (rows : List (BatchRow F)) :
    (ingestAll dim rows r).Ok := by
  induction rows generalizing r with
  | nil => exact ok
  | cons b rest ih => exact ih (SensorRing.ingest_ok ok _ _ _ _)

/-- The batch loop pushes its entries one after the other. -/
theorem ingestAll_queue (ok : r.Ok) (dim : Nat) (rows : List (BatchRow F)) :
    (ingestAll dim rows r).queue =
      (ingestedAll dim rows r).foldl (BoundedQueue.push r.shape.capacity) r.queue := by
  induction rows generalizing r with
  | nil => rfl
  | cons b rest ih =>
    simp only [ingestAll, ingestedAll, List.foldl_cons]
    rw [ih (SensorRing.ingest_ok ok _ _ _ _), SensorRing.ingest_shape, SensorRing.ingest_queue ok]

variable {e : Engine F} {env : Env F} {s : SensorId}

theorem append_cases (e : Engine F) (env : Env F) (s : SensorId) (ts : Int64) (vec : Nat → F) (dim : Nat)
    (payload : Option (Nat → UInt8)) :
    ((e.append env s ts vec dim payload).2 = e ∧ (e.append env s ts vec dim payload).1 ≠ .ok) ∨
    ∃ e' r n, e.getOrCreateRing env s = .ok (e', r) ∧
      e.append env s ts vec dim payload =
        (.ok, { e'.setRing s (r.ingest ts vec dim payload) with totalAppends := n }) := by
  unfold append
  split
  · exact .inl ⟨rfl, by simp⟩
  · split
    · exact .inl ⟨rfl, by simp⟩
    · split
      · rename_i h
        exact .inl ⟨rfl, getOrCreateRing_error h⟩
      · rename_i h
        exact .inr ⟨_, _, _, h, rfl⟩

theorem appendBatch_cases (e : Engine F) (env : Env F) (s : SensorId) (ts : Nat → Int64)
    (vecs : Nat → F) (count dim : Nat) (payloads : Option (Nat → UInt8)) :
    ((e.appendBatch env s (some ts) (some vecs) count dim payloads).2 = e ∧
      ((e.appendBatch env s (some ts) (some vecs) count dim payloads).1 ≠ .ok ∨ count = 0)) ∨
    ∃ e' r n, e.getOrCreateRing env s = .ok (e', r) ∧
      e.appendBatch env s (some ts) (some vecs) count dim payloads =
        (.ok, { e'.setRing s (ingestAll dim ((List.range count).map
          (batchRow ts vecs dim e.cfg.payloadSizeBytes.toNat payloads)) r) with
          totalAppends := n }) := by
  simp only [appendBatch]
  split
  · exact .inl ⟨rfl, .inl (by simp)⟩
  · split
    · exact .inl ⟨rfl, .inl (by simp)⟩
    · split
      · rename_i h
        exact .inl ⟨rfl, .inr h⟩
      · split
        · rename_i h
          exact .inl ⟨rfl, .inl (getOrCreateRing_error h)⟩
        · rename_i h
          exact .inr ⟨_, _, _, h, rfl⟩

theorem appended_failed {c : Call F} (h : (e.call env c).1 ≠ .ok) : e.appended env c s = [] := by
  unfold appended
  split
  · rfl
  · rw [if_neg h]

theorem appended_nil {c : Call F} (h : ∀ r, e.landing s r c = []) : e.appended env c s = [] := by
  unfold appended
  split
  · rfl
  · rw [h, ite_self]

omit [FloatArith F] in
theorem append_elsewhere {id : CString} {ts : Int64} {vec : Nat → F} {dim : Nat}
    {payload : Option (Nat → UInt8)} (none : ¬ (Call.append id ts (some vec) dim payload).Brings s) :
    id ≠ some s.bytes := by
  rintro rfl
  exact none (.append ..)

omit [FloatArith F] in
theorem batch_empty {id : CString} {ts : Nat → Int64} {vecs : Nat → F} {count dim : Nat}
    {payloads : Option (Nat → UInt8)}
    (none : ¬ (Call.appendBatch id (some ts) (some vecs) count dim payloads).Brings s)
    (named : id = some s.bytes) : count = 0 := by
  subst named
  by_contra rows
  exact none (.appendBatch _ _ (Nat.pos_of_ne_zero rows) ..)

/-- Nothing lands where the call brings nothing. -/
theorem landing_none {c : Call F} (none : ¬ c.Brings s) : e.landing s r c = [] := by
  unfold landing
  split
  · exact if_neg (append_elsewhere none)
  · split
    · rename_i named
      rw [batch_empty none named]
      rfl
    · rfl
  · rfl

/-- A call that brings rows returns `ok` only with a ring to append to. -/
theorem ring_of_brings {c : Call F} (brings : c.Brings s) (returned : (e.call env c).1 = .ok) :
    ∃ e' r, e.getOrCreateRing env s = .ok (e', r) := by
  cases brings with
  | append ts vec dim payload =>
    simp only [call, chronosvAppend, withSensor, SensorId.parse_bytes] at returned
    split at returned
    · cases returned
    · obtain ⟨-, failed⟩ | ⟨e', r, n, found, -⟩ := append_cases e env s ts vec dim payload
      · exact absurd returned failed
      · exact ⟨e', r, found⟩
  | @appendBatch ts vecs count pos dim payloads =>
    have rows : count ≠ 0 := Nat.ne_of_gt pos
    simp only [call, chronosvAppendBatch, withSensor, SensorId.parse_bytes, rows, if_false,
      Option.isNone_some, Bool.false_eq_true, or_self] at returned
    split at returned
    · cases returned
    · obtain ⟨-, failed⟩ | ⟨e', r, n, found, -⟩ :=
        appendBatch_cases e env s ts vecs count dim payloads
      · exact absurd returned (failed.resolve_right rows)
      · exact ⟨e', r, found⟩

/-- What an ingesting call does: nothing, or one store through the ring of one
sensor, which is pushing the appended entries. -/
inductive Ingests (e : Engine F) (env : Env F) (c : Call F) : Prop
  | idle (same : (e.call env c).2 = e) (none : ∀ t, e.appended env c t = [])
  | stored (s : SensorId) (e' : Engine F) (r r' : SensorRing F) (xs : List (Entry F)) (n : Nat)
      (get : e.getOrCreateRing env s = .ok (e', r))
      (post : (e.call env c).2 = { e'.setRing s r' with totalAppends := n })
      (self : e.appended env c s = xs)
      (others : ∀ t, t ≠ s → e.appended env c t = [])
      (shape : r'.shape = r.shape)
      (push : r.Ok → r'.Ok ∧
        r'.queue = xs.foldl (BoundedQueue.push r.shape.capacity) r.queue)

theorem append_ingests (e : Engine F) (env : Env F) (id : CString) (ts : Int64)
    (vec : Option (Nat → F)) (dim : Nat) (payload : Option (Nat → UInt8)) :
    Ingests e env (.append id ts vec dim payload) := by
  cases vec with
  | none => exact .idle rfl (fun t => appended_failed (by simp [call, chronosvAppend]))
  | some vec =>
    by_cases hd : dim = 0
    · exact .idle (by simp [call, chronosvAppend, hd])
        (fun t => appended_failed (by simp [call, chronosvAppend, hd]))
    · cases hp : SensorId.parse id with
      | error err =>
        have hc : e.call env (.append id ts (some vec) dim payload) = (err, e) := by
          simp [call, chronosvAppend, hd, withSensor, hp]
        exact .idle (by rw [hc]) (fun t => appended_failed (by simpa [hc] using SensorId.parse_error hp))
      | ok s =>
        obtain rfl := SensorId.parse_ok hp
        have hc : e.call env (.append (some s.bytes) ts (some vec) dim payload) =
            e.append env s ts vec dim payload := by
          simp [call, chronosvAppend, hd, withSensor, hp]
        rcases append_cases e env s ts vec dim payload with
          ⟨heq, hne⟩ | ⟨e', r, n, hget, heq⟩
        · exact .idle (by rw [hc, heq]) (fun t => appended_failed (by simpa [hc] using hne))
        · refine .stored s e' r _ [r.ingested ts vec dim payload] n hget (by rw [hc, heq]) ?_ ?_
            (SensorRing.ingest_shape _ _ _ _) ?_
          · simp [appended, landing, hc, heq, hget]
          · intro t ht
            have hb : s.bytes ≠ t.bytes := fun h => ht (SensorId.ext h.symm)
            exact appended_nil fun r => by simp [landing, hb]
          · intro ok
            exact ⟨SensorRing.ingest_ok ok _ _ _ _, SensorRing.ingest_queue ok _ _ _ _⟩

theorem appendBatch_ingests (e : Engine F) (env : Env F) (id : CString)
    (ts : Option (Nat → Int64)) (vecs : Option (Nat → F)) (count dim : Nat)
    (payloads : Option (Nat → UInt8)) : Ingests e env (.appendBatch id ts vecs count dim payloads) := by
  by_cases hd : dim = 0
  · exact .idle (by simp [call, chronosvAppendBatch, hd])
      (fun t => appended_failed (by simp [call, chronosvAppendBatch, hd]))
  cases hp : SensorId.parse id with
  | error err =>
    have hc : e.call env (.appendBatch id ts vecs count dim payloads) = (err, e) := by
      simp [call, chronosvAppendBatch, hd, withSensor, hp]
    exact .idle (by rw [hc]) (fun t => appended_failed (by simpa [hc] using SensorId.parse_error hp))
  | ok s =>
    obtain rfl := SensorId.parse_ok hp
    by_cases h0 : count = 0
    · have hc : e.call env (.appendBatch (some s.bytes) ts vecs count dim payloads) = (.ok, e) := by
        simp [call, chronosvAppendBatch, hd, withSensor, hp, h0]
      refine .idle (by rw [hc]) (fun t => appended_nil fun r => ?_)
      cases ts <;> cases vecs <;> simp [landing, h0, ingestedAll]
    · cases ts with
      | none =>
        have hc : e.call env (.appendBatch (some s.bytes) none vecs count dim payloads) = (.invalidArg, e) := by
          simp [call, chronosvAppendBatch, hd, withSensor, hp, h0]
        exact .idle (by rw [hc]) (fun t => appended_failed (by simp [hc]))
      | some ts =>
        cases vecs with
        | none =>
          have hc : e.call env (.appendBatch (some s.bytes) (some ts) none count dim payloads) =
              (.invalidArg, e) := by
            simp [call, chronosvAppendBatch, hd, withSensor, hp, h0]
          exact .idle (by rw [hc]) (fun t => appended_failed (by simp [hc]))
        | some vecs =>
          have hc : e.call env (.appendBatch (some s.bytes) (some ts) (some vecs) count dim payloads) =
              e.appendBatch env s (some ts) (some vecs) count dim payloads := by
            simp [call, chronosvAppendBatch, hd, withSensor, hp, h0]
          rcases appendBatch_cases e env s ts vecs count dim payloads with
            ⟨heq, hne⟩ | ⟨e', r, n, hget, heq⟩
          · have hne := hne.resolve_right h0
            exact .idle (by rw [hc, heq]) (fun t => appended_failed (by simpa [hc] using hne))
          · let rows := (List.range count).map
              (batchRow ts vecs dim e.cfg.payloadSizeBytes.toNat payloads)
            refine .stored s e' r _ (ingestedAll dim rows r) n hget (by rw [hc, heq]) ?_ ?_
              (ingestAll_shape _ _) ?_
            · simp [appended, landing, hc, heq, hget, rows]
            · intro t ht
              have hb : s.bytes ≠ t.bytes := fun h => ht (SensorId.ext h.symm)
              exact appended_nil fun r => by simp [landing, hb]
            · intro ok
              exact ⟨ingestAll_ok ok _ _, ingestAll_queue ok _ _⟩

/-- An ingesting call pushes its entries on the sensors they were appended to,
and changes nothing else. -/
theorem Ingests.result {c : Call F} (h : Ingests e env c) (ok : e.Ok) :
    (∀ t, (e.call env c).2.tier t = (e.tier t).pushAll e.cfg.shape.capacity (e.appended env c t)) ∧
    (e.call env c).2.Ok ∧ (e.call env c).2.cfg = e.cfg ∧ (e.call env c).2.uuid = e.uuid ∧
    (e.call env c).2.backend = e.backend := by
  cases h with
  | idle same none => simp [same, none, ok]
  | stored s e' r r' xs n get post self others shape push =>
    have att := getOrCreateRing_attached ok get
    obtain ⟨rsh, rok⟩ := att.ok s r (by simp [ring_eq att.slot])
    rw [att.cfg] at rsh
    obtain ⟨hok, hq⟩ := push rok
    rw [rsh] at hq
    obtain ⟨hs, hne, hOk⟩ := att.store (shape.trans rsh) hok hq
    rw [post]
    refine ⟨fun t => ?_, hOk, ?_⟩
    · by_cases eq : t = s
      · subst eq
        rw [self]
        exact hs
      · rw [others t eq]
        exact hne t eq
    · rw [setRing_eq att.slot]
      exact ⟨att.cfg, att.uuid, att.backend⟩

end Engine
end
end ChronosVector
