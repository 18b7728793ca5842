import ChronosVector.Exact

/-!
# Both tiers together lose and duplicate nothing

* `Accounts`: the persisted rows and the window are disjoint parts of what was
  appended, in its order, and the rest is counted as overwritten;
* `appended_accepted`: what a call leaves in the ring is what its arguments say;
* `tiers_conserve`: a run from an empty path keeps the account.
-/

namespace ChronosVector

variable {F : Type} [FloatArith F]

/-! ## What a call was asked to append -/

/-- One row of the arguments, as it is stored under the schema. -/
def RingShape.encode (sh : RingShape) (ts : Int64) (vec : Nat → F) (dim : Nat)
    (payload : Option (Nat → UInt8)) : Row F where
  ts := ts
  vec :=
    if sh.dtype = .int8 then Cells.load (fun i => .i8 ((quantizeF32ToI8 vec dim).1 i)) 0 sh.dim
    else Cells.load (fun i => .f32 (vec i)) 0 sh.dim
  scale := if sh.dtype = .int8 then some (quantizeF32ToI8 vec dim).2 else none
  payload := Cells.load (payload.getD fun _ => 0) 0 sh.payloadSize

/-- The rows that a call's arguments hold for sensor `s`. -/
def Call.rows (sh : RingShape) (s : SensorId) : Call F → List (Row F)
  | .append id ts (some vec) dim payload =>
    if id = some s.bytes then [sh.encode ts vec dim payload] else []
  | .appendBatch id (some ts) (some vecs) count dim payloads =>
    if id = some s.bytes then
      ((List.range count).map (Engine.batchRow ts vecs dim sh.payloadSize payloads)).map
        fun b => sh.encode b.ts b.vec dim b.payload
    else []
  | _ => []

/-- A schema with payloads comes with payload pointers. -/
def Call.HasPayloads (sh : RingShape) : Call F → Prop
  | .append _ _ _ _ payload => 0 < sh.payloadSize → payload.isSome
  | .appendBatch _ _ _ _ _ payloads => 0 < sh.payloadSize → payloads.isSome
  | _ => True

omit [FloatArith F] in
theorem Call.hasPayloads_of_none {sh : RingShape} (h : sh.payloadSize = 0) (c : Call F) :
    c.HasPayloads sh := by
  cases c <;> simp [HasPayloads, h]

namespace Engine

/-- The rows that a call adds to what was appended to `s`: none when it fails. -/
def accepted (e : Engine F) (env : Env F) (c : Call F) (s : SensorId) : List (Row F) :=
  if (e.call env c).1 = .ok then c.rows e.cfg.shape s else []

/-- Everything appended to `s` by a run, in order. -/
def acceptedAll : List (Env F × Call F) → Engine F → SensorId → List (Row F)
  | [], _, _ => []
  | (env, c) :: rest, e, s => e.accepted env c s ++ acceptedAll rest (e.call env c).2 s

/-- The `overwritten_entries` of the sensor's ring, zero while it has none. -/
def overwrittenEntries (e : Engine F) (s : SensorId) : Nat :=
  match e.ring s with
  | none => 0
  | some r => r.overwrittenEntries

omit [FloatArith F] in
theorem overwrittenEntries_eq (e : Engine F) (s : SensorId) :
    e.overwrittenEntries s = (e.tier s).hot.dropped := by
  cases h : e.ring s <;> simp only [overwrittenEntries, tier, h] <;> rfl

section
variable {e : Engine F} {env : Env F} {s : SensorId} {r : SensorRing F}

theorem ingested_encode (ts : Int64) (vec : Nat → F) (dim : Nat)
    {payload : Option (Nat → UInt8)} (hp : 0 < r.shape.payloadSize → payload.isSome) :
    (r.ingested ts vec dim payload).toRow = r.shape.encode ts vec dim payload := by
  cases payload with
  | some p =>
    simp only [SensorRing.ingested, RingShape.encode]
    split <;> simp [SensorRing.stored, *]
  | none =>
    have h0 : r.shape.payloadSize = 0 := by simpa using hp
    simp only [SensorRing.ingested, RingShape.encode]
    split <;> simp [SensorRing.stored, Cells.slot, Cells.load, *]

theorem ingestedAll_encode {dim : Nat} {rows : List (BatchRow F)}
    (hp : ∀ b ∈ rows, 0 < r.shape.payloadSize → b.payload.isSome) :
    (ingestedAll dim rows r).map Entry.toRow =
      rows.map fun b => r.shape.encode b.ts b.vec dim b.payload := by
  induction rows generalizing r with
  | nil => rfl
  | cons b rest ih =>
    obtain ⟨hb, hrest⟩ := List.forall_mem_cons.mp hp
    simp only [ingestedAll, List.map_cons, ingested_encode _ _ _ hb]
    rw [ih (by simpa only [SensorRing.ingest_shape] using hrest), SensorRing.ingest_shape]

omit [FloatArith F] in
theorem batchRow_payload {ts : Nat → Int64} {vecs : Nat → F} {count dim size : Nat}
    {payloads : Option (Nat → UInt8)} (passed : payloads.isSome) (pos : 0 < size) :
    ∀ b ∈ (List.range count).map (batchRow ts vecs dim size payloads), b.payload.isSome := by
  intro b hb
  obtain ⟨i, -, rfl⟩ := List.mem_map.mp hb
  obtain ⟨p, rfl⟩ := Option.isSome_iff_exists.mp passed
  simp [batchRow, pos]

theorem rows_none {sh : RingShape} {c : Call F} (none : ¬ c.Brings s) : c.rows sh s = [] := by
  unfold Call.rows
  split
  · exact if_neg (append_elsewhere none)
  · split
    · rename_i named
      rw [batch_empty none named]
      rfl
    · rfl
  · rfl

theorem landing_rows (hsh : r.shape = e.cfg.shape) {c : Call F}
    (hp : c.HasPayloads e.cfg.shape) :
    (e.landing s r c).map Entry.toRow = c.rows e.cfg.shape s := by
  by_cases brings : c.Brings s
  · cases brings with
    | append ts vec dim payload =>
      simp only [landing, Call.rows, if_true]
      rw [List.map_singleton, ingested_encode _ _ _ (hsh ▸ hp), hsh]
    | appendBatch ts vecs some dim payloads =>
      simp only [landing, Call.rows, if_true]
      rw [ingestedAll_encode, hsh]
      · rfl
      · intro b hb pos
        rw [hsh] at pos
        exact batchRow_payload (hp pos) pos b hb
  · rw [landing_none brings, rows_none brings]
    rfl

/-- Without a ring to append to, a call that returns `ok` held no rows. -/
theorem rows_of_no_ring {err : ErrorCode} (h : e.getOrCreateRing env s = .error err) {c : Call F}
    (hok : (e.call env c).1 = .ok) : c.rows e.cfg.shape s = [] := by
  apply rows_none
  intro brings
  obtain ⟨e', r, found⟩ := ring_of_brings brings hok
  rw [h] at found
  cases found

/-- **What lands is what was asked for.** -/
theorem appended_accepted (ok : e.Ok) {c : Call F} (hp : c.HasPayloads e.cfg.shape) :
    (e.appended env c s).map Entry.toRow = e.accepted env c s := by
  simp only [appended, accepted]
  split
  · rename_i herr
    split
    · rename_i hok
      exact (rows_of_no_ring herr hok).symm
    · rfl
  · rename_i e' r hget
    split
    · have att := getOrCreateRing_attached ok hget
      obtain ⟨hsh, -⟩ := att.ok s r (by simp [ring_eq att.slot])
      exact landing_rows (hsh.trans (by rw [att.cfg])) hp
    · rfl

theorem history_accepted {sh : RingShape} {steps : List (Env F × Call F)} (ok : e.Ok)
    (hsh : e.cfg.shape = sh) (hp : ∀ x ∈ steps, x.2.HasPayloads sh) :
    (history steps e s).map Entry.toRow = acceptedAll steps e s := by
  induction steps generalizing e with
  | nil => rfl
  | cons x rest ih =>
    obtain ⟨hx, hrest⟩ := List.forall_mem_cons.mp hp
    have frame := call_frame ok x.1 x.2
    simp only [history, acceptedAll, List.map_append,
      ih frame.ok (frame.shape.trans hsh) hrest]
    rw [appended_accepted ok (hsh ▸ hx)]

end

end Engine
/-! ## The account of one sensor -/

/-- `popped` is what the persisted rows were before their norms were dropped. -/
structure Accounts (cap : Nat) (log : List (Entry F)) (t : Tier F) : Prop where
  popped : ∃ popped : List (Entry F), popped.map Entry.toRow = t.coldRows ∧
    BoundedQueue.Conserves log popped t.hot
  fits : t.hot.items.length ≤ cap
  past : ∀ id ∈ t.blocks.keys, id < t.nextBlockId

section
variable {cap : Nat} {log : List (Entry F)} {t t' : Tier F} {env : Env F} {s : SensorId}

omit [FloatArith F] in
theorem accounts_empty : Accounts cap [] (Tier.empty : Tier F) :=
  ⟨⟨[], rfl, BoundedQueue.conserves_empty⟩, Nat.zero_le _, by simp [Tier.empty, SortedMap.keys, SortedMap.empty]⟩

omit [FloatArith F] in
theorem Accounts.pushAll (h : Accounts cap log t) (hc : 0 < cap) (xs : List (Entry F)) :
    Accounts cap (log ++ xs) (t.pushAll cap xs) := by
  obtain ⟨⟨popped, hrows, cons⟩, fits, past⟩ := h
  refine ⟨⟨popped, ?_, ?_⟩, ?_, by simpa using past⟩
  · simpa only [Tier.coldRows, Tier.pushAll_blocks] using hrows
  · rw [Tier.pushAll_hot]
    exact cons.pushAll hc xs
  · rw [Tier.pushAll_hot]
    exact BoundedQueue.pushAll_length_le xs fits hc

omit [FloatArith F] in
/-- The block of a short eviction holds every entry it removes. -/
theorem Tier.IsCut.rows_eq {k : Nat} {sh : RingShape} {b : StoredBlock F} (h : t.IsCut k sh b)
    (hk : k < 2 ^ 32) : b.rows = t.hotRows.take k := by
  rw [h.rows, Nat.mod_eq_of_lt hk, List.take_take, Nat.min_self]

omit [FloatArith F] in
theorem coldRows_put (past : ∀ id ∈ t.blocks.keys, id < t.nextBlockId) (b : StoredBlock F) (k : Nat) :
    (t.evict k (.persisted b)).coldRows = t.coldRows ++ b.rows := by
  simp only [Tier.coldRows, Tier.evict, SortedMap.values_put_append past, List.flatMap_append,
    List.flatMap_singleton]

omit [FloatArith F] in
theorem past_put (past : ∀ id ∈ t.blocks.keys, id < t.nextBlockId) (b : StoredBlock F) (k : Nat) :
    ∀ id ∈ (t.evict k (.persisted b)).blocks.keys,
      id < (t.evict k (.persisted b)).nextBlockId := by
  intro id hid
  simp only [Tier.evict, SortedMap.keys_put_append past, List.mem_append,
    List.mem_singleton] at hid ⊢
  obtain hid | rfl := hid
  · exact Nat.lt_succ_of_lt (past id hid)
  · exact Nat.lt_succ_self _

theorem Accounts.evicts {sh : RingShape} {w : Int64} {own : List (Block F)}
    (h : Accounts sh.capacity log t) (small : sh.capacity < 2 ^ 31)
    (wr : env.storage.writeBlock s = .ok) (ev : t.Evicts env true sh w s t' own) :
    Accounts sh.capacity log t' := by
  cases ev with
  | idle => exact h
  | wrote k blk count pos sensor id cut =>
    obtain ⟨⟨popped, hrows, cons⟩, fits, past⟩ := h
    have hk : k < 2 ^ 32 := by
      have := t.evictedCount_le env w s
      omega
    simp only [WriteOutcome.of, wr, if_true, Bool.true_eq_false, if_false]
    refine ⟨⟨popped ++ t.hot.items.take k, ?_, ?_⟩, ?_, past_put past _ _⟩
    · rw [coldRows_put past, List.map_append, hrows, cut.rows_eq hk, Tier.hotRows, List.map_take]
    · rw [Tier.evict_hot]
      exact cons.pop
    · rw [Tier.evict_hot]
      exact BoundedQueue.pop_length_le fits

omit [FloatArith F] in
theorem Accounts.conserves (h : Accounts cap log t) :
    (t.coldRows ++ t.hotRows).Sublist (log.map Entry.toRow) ∧
    log.length = (t.coldRows ++ t.hotRows).length + t.hot.dropped := by
  obtain ⟨⟨popped, hrows, sub, len⟩, -, -⟩ := h
  rw [← hrows, Tier.hotRows, ← List.map_append]
  exact ⟨sub.map _, by simpa using len⟩

/-- The writes succeed, nothing is dropped, and payloads come as the schema says. -/
def Smooth (sh : RingShape) (env : Env F) (c : Call F) : Prop :=
  (∀ s, env.storage.writeBlock s = .ok) ∧ (∀ s, c.drops s = false) ∧ c.HasPayloads sh

theorem run_accounts {e : Engine F} {steps : List (Env F × Call F)} (ok : e.Ok)
    (per : e.backend.persists = true) (small : e.cfg.shape.capacity < 2 ^ 31)
    (smooth : ∀ x ∈ steps, Smooth e.cfg.shape x.1 x.2) (start : e.tier s = .empty) :
    Accounts e.cfg.shape.capacity (Engine.history steps e s) ((Engine.run steps e).tier s) := by
  have empty : Accounts e.cfg.shape.capacity [] (e.tier s) := by
    rw [start]
    exact accounts_empty
  have h := Engine.run_tier (Accounts e.cfg.shape.capacity) (P := Smooth e.cfg.shape) ?_ ok rfl
    per smooth empty
  · simpa using h
  · rintro e' env c log t' hsh hper ⟨wr, nodrop, -⟩ h step
    cases step with
    | append =>
      rw [hsh]
      exact h.pushAll e.cfg.shape.capacity_pos _
    | evict _ _ _ _ _ silent evicts =>
      rw [hper, hsh] at evicts
      rw [silent, List.append_nil]
      exact h.evicts small (wr s) evicts
    | drop _ drops => simp [nodrop s] at drops

/-- **Conservation.** On an initially empty path, the persisted rows followed by
the window are a subsequence of what was appended, and exactly the overwritten
entries are missing. -/
theorem tiers_conserve {env₀ : Env F} {cfgIn : Config} {e : Engine F}
    (created : Engine.create env₀ cfgIn (some .empty) = .ok e)
    (small : e.cfg.shape.capacity < 2 ^ 31) {steps : List (Env F × Call F)}
    (smooth : ∀ x ∈ steps, Smooth e.cfg.shape x.1 x.2) (s : SensorId) :
    let kept := ((Engine.run steps e).tier s).coldRows ++ ((Engine.run steps e).tier s).hotRows
    kept.Sublist (Engine.acceptedAll steps e s) ∧
    (Engine.acceptedAll steps e s).length =
      kept.length + (Engine.run steps e).overwrittenEntries s := by
  have spec := Engine.create_spec created
  have start : e.tier s = .empty := by
    rw [spec.tier s]
    rfl
  obtain ⟨sub, len⟩ := (run_accounts spec.ok spec.persists small smooth start).conserves
  have hist := Engine.history_accepted (s := s) spec.ok rfl fun x hx => (smooth x hx).2.2
  rw [Engine.overwrittenEntries_eq, ← hist]
  exact ⟨sub, by simpa using len⟩

end

/-- A lapped ring, a partial eviction and a flush. -/
def lappedCalls : List (Call ℚ) :=
  [.appendBatch (some sensorA.bytes) (some Int64.ofNat) (some fun i => (i : ℚ)) 70 1 none,
    .maintainSlidingWindow 20, .append (some sensorA.bytes) 100 (some fun _ => 1) 1 none, .flush]

theorem lappedCalls_smooth : ∀ x ∈ calmly 0 lappedCalls, Smooth smallEngine.cfg.shape x.1 x.2 := by
  intro x hx
  obtain ⟨c, hc, rfl⟩ := List.mem_map.mp hx
  refine ⟨fun _ => rfl, fun s => ?_, c.hasPayloads_of_none rfl⟩
  simp only [lappedCalls, List.mem_cons, List.not_mem_nil, or_false] at hc
  obtain rfl | rfl | rfl | rfl := hc <;> rfl

/-- The lapped ring's overwritten rows are the ones missing. -/
theorem tiers_conserve_lapped :
    let e := Engine.run (calmly 0 lappedCalls) smallEngine
    let kept := (e.tier sensorA).coldRows ++ (e.tier sensorA).hotRows
    kept.Sublist (Engine.acceptedAll (calmly 0 lappedCalls) smallEngine sensorA) ∧
    (Engine.acceptedAll (calmly 0 lappedCalls) smallEngine sensorA).length =
      kept.length + e.overwrittenEntries sensorA :=
  tiers_conserve (smallEngine_created 0) (by decide) lappedCalls_smooth sensorA

end ChronosVector
