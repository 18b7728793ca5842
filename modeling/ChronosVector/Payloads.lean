import ChronosVector.Durability
import ChronosVector.BatchAppend

/-!
# Whose payload an entry has

`Append` writes every column of the slot it reuses but one: without a payload
pointer, the payload column keeps what the slot held.

* `ownRows`, `ownHistory`: the arguments behind the entries of a run, in their
  order;
* `Stores`: a row that one append of a run created and the sensor still has;
* `stored_over`: on a full window, such an entry gets the payload of the entry
  it overwrites;
* `own_payload_iff`: what an append created shows the same payload in all runs
  exactly when the append passed one.
-/

namespace ChronosVector

variable {F : Type} [FloatArith F]

/-! ## What an append leaves in the payload column -/

namespace SensorRing

variable (r : SensorRing F) (ts : Int64) (vec : Nat → F) (dim : Nat)

theorem ingested_payload (p : Nat → UInt8) :
    (r.ingested ts vec dim (some p)).payload = Cells.load p 0 r.shape.payloadSize := by
  simp only [ingested]
  split <;> rfl

theorem ingested_no_payload :
    (r.ingested ts vec dim none).payload =
      Cells.slot r.payloads r.shape.payloadSize (r.slotOf r.head) := by
  simp only [ingested]
  split <;> rfl

variable {r}

/-- A full window starts at the slot of the next append. -/
theorem stored_over (full : r.window.length = r.shape.capacity) :
    ∃ y ∈ r.window, (r.ingested ts vec dim none).payload = y.payload := by
  have pos := r.shape.capacity_pos
  rw [window_length] at full
  have reused : r.slotOf r.snapshot.1 = r.slotOf r.head := by
    have one_lap : r.head = r.snapshot.1 + r.shape.capacity := by
      simp only [snapshot] at full ⊢
      omega
    rw [slotOf_eq_mod, slotOf_eq_mod, one_lap, Nat.add_mod_right]
  refine ⟨r.entryAt r.snapshot.1, ?_, ?_⟩
  · exact List.mem_map_of_mem (List.mem_range'_1.mpr ⟨Nat.le_refl _, by omega⟩)
  · rw [ingested_no_payload, ← reused]
    exact (payload_eq_slot _).symm

end SensorRing

/-! ## The arguments behind the entries -/

/-- The rows that a call's arguments hold for sensor `s`, as they were passed. -/
def Call.argRows (payloadSize : Nat) (s : SensorId) : Call F → List (Engine.BatchRow F)
  | .append id ts (some vec) _ payload => if id = some s.bytes then [⟨ts, vec, payload⟩] else []
  | .appendBatch id (some ts) (some vecs) count dim payloads =>
    if id = some s.bytes then
      (List.range count).map (Engine.batchRow ts vecs dim payloadSize payloads)
    else []
  | _ => []

/-- Behind every element of the second list stands one of the first. -/
theorem zip_of_mem {α β : Type} {as : List α} {bs : List β} (aligned : as.length = bs.length)
    {b : β} (h : b ∈ bs) : ∃ a, (a, b) ∈ as.zip bs := by
  obtain ⟨i, inside, rfl⟩ := List.getElem_of_mem h
  refine ⟨as[i], ?_⟩
  rw [← List.getElem_zip (h := by simp [aligned, inside])]
  exact List.getElem_mem _

namespace Engine

/-- An entry has the payload of its own append, if that passed one. -/
def BatchRow.Owns (payloadSize : Nat) (a : BatchRow F) (y : Entry F) : Prop :=
  ∀ p, a.payload = some p → y.payload = Cells.load p 0 payloadSize

/-- The arguments of what a call adds to `s`: none when it fails. -/
def ownRows (e : Engine F) (env : Env F) (c : Call F) (s : SensorId) : List (BatchRow F) :=
  if (e.call env c).1 = .ok then c.argRows e.cfg.shape.payloadSize s else []

/-- The arguments behind `history`, entry by entry. -/
def ownHistory : List (Env F × Call F) → Engine F → SensorId → List (BatchRow F)
  | [], _, _ => []
  | (env, c) :: rest, e, s => e.ownRows env c s ++ ownHistory rest (e.call env c).2 s

/-- Append `a` of the run created row `x`, which is in the window or in a block. -/
def Stores (e : Engine F) (steps : List (Env F × Call F)) (s : SensorId) (a : BatchRow F)
    (x : Row F) : Prop :=
  (∃ y, (a, y) ∈ (ownHistory steps e s).zip (history steps e s) ∧ y.toRow = x) ∧
    (x ∈ ((run steps e).tier s).hotRows ∨ x ∈ ((run steps e).tier s).coldRows)

section
variable {e : Engine F} {env : Env F} {s : SensorId} {r : SensorRing F}

theorem ingestedAll_owns (dim : Nat) (rows : List (BatchRow F)) :
    List.Forall₂ (BatchRow.Owns r.shape.payloadSize) rows (ingestedAll dim rows r) := by
  induction rows generalizing r with
  | nil => exact .nil
  | cons a rest ih =>
    have owns : a.Owns r.shape.payloadSize (r.ingested a.ts a.vec dim a.payload) := by
      intro p passed
      rw [passed, SensorRing.ingested_payload]
    refine .cons owns ?_
    rw [← SensorRing.ingest_shape (r := r) a.ts a.vec dim a.payload]
    exact ih

omit [FloatArith F] in
theorem argRows_none {size : Nat} {c : Call F} (none : ¬ c.Brings s) : c.argRows size s = [] := by
  unfold Call.argRows
  split
  · exact if_neg (append_elsewhere none)
  · split
    · rename_i named
      rw [batch_empty none named]
      rfl
    · rfl
  · rfl

theorem landing_owns (shape : r.shape = e.cfg.shape) (c : Call F) :
    List.Forall₂ (BatchRow.Owns e.cfg.shape.payloadSize)
      (c.argRows e.cfg.shape.payloadSize s) (e.landing s r c) := by
  by_cases brings : c.Brings s
  · cases brings with
    | append ts vec dim payload =>
      simp only [Call.argRows, landing, if_true]
      rw [← shape]
      exact ingestedAll_owns (r := r) dim [⟨ts, vec, payload⟩]
    | appendBatch ts vecs some dim payloads =>
      have size : e.cfg.payloadSizeBytes.toNat = r.shape.payloadSize := by
        rw [shape]
        rfl
      simp only [Call.argRows, landing, if_true]
      rw [← shape, size]
      exact ingestedAll_owns (r := r) dim _
  · rw [argRows_none brings, landing_none brings]
    exact .nil

/-- Without a ring to append to, a call that returns `ok` passed no rows. -/
theorem argRows_of_no_ring {err : ErrorCode} (failed : e.getOrCreateRing env s = .error err)
    {c : Call F} (ok : (e.call env c).1 = .ok) : c.argRows e.cfg.shape.payloadSize s = [] := by
  apply argRows_none
  intro brings
  obtain ⟨e', r, found⟩ := ring_of_brings brings ok
  rw [failed] at found
  cases found

/-- Entry by entry, what a call appends comes from what it was passed. -/
theorem appended_owns (ok : e.Ok) (env : Env F) (c : Call F) (s : SensorId) :
    List.Forall₂ (BatchRow.Owns e.cfg.shape.payloadSize) (e.ownRows env c s)
      (e.appended env c s) := by
  simp only [ownRows, appended]
  cases get : e.getOrCreateRing env s with
  | error err =>
    dsimp only
    split
    · rename_i returned
      rw [argRows_of_no_ring get returned]
      exact .nil
    · exact .nil
  | ok found =>
    have att := getOrCreateRing_attached ok get
    obtain ⟨shape, -⟩ := att.ok s found.2 (by simp [ring_eq att.slot])
    rw [att.cfg] at shape
    dsimp only
    split
    · exact landing_owns shape c
    · exact .nil

theorem history_owns (ok : e.Ok) (steps : List (Env F × Call F)) (s : SensorId) :
    List.Forall₂ (BatchRow.Owns e.cfg.shape.payloadSize) (ownHistory steps e s)
      (history steps e s) := by
  induction steps generalizing e with
  | nil => exact .nil
  | cons x rest ih =>
    have frame := call_frame ok x.1 x.2
    have later := ih frame.ok
    rw [frame.shape] at later
    exact List.rel_append (appended_owns ok x.1 x.2 s) later

/-- An append that passed a payload is the payload's only source. -/
theorem Stores.payload {steps : List (Env F × Call F)} {a : BatchRow F} {x : Row F} (ok : e.Ok)
    (h : e.Stores steps s a x) {p : Nat → UInt8} (passed : a.payload = some p) :
    x.payload = Cells.load p 0 e.cfg.shape.payloadSize := by
  obtain ⟨⟨y, own, rfl⟩, -⟩ := h
  exact (List.forall₂_iff_zip.mp (history_owns ok steps s)).2 own p passed

/-- A step adds no row to a tier that the step did not append. -/
theorem step_origin {c : Call F} {t' : Tier F} (step : Tier.Step e env c s t') {x : Row F}
    (held : x ∈ t'.hotRows ∨ x ∈ t'.coldRows) :
    (x ∈ (e.tier s).hotRows ∨ x ∈ (e.tier s).coldRows) ∨
      x ∈ (e.appended env c s).map Entry.toRow := by
  cases step with
  | append noPass =>
    rw [Tier.hotRows, Tier.coldRows, Tier.pushAll_hot, Tier.pushAll_blocks] at held
    obtain hot | cold := held
    · obtain ⟨y, queued, rfl⟩ := List.mem_map.mp hot
      obtain old | new := BoundedQueue.mem_pushAll queued
      · exact .inl (.inl (List.mem_map_of_mem old))
      · exact .inr (List.mem_map_of_mem new)
    · exact .inl (.inr cold)
  | evict e' w own t' pass silent evicts mem =>
    left
    cases evicts with
    | idle zero => exact held
    | wrote k blk count pos sensor id cut =>
      rw [Tier.hotRows, Tier.evict_hot, BoundedQueue.pop, List.map_drop] at held
      obtain hot | cold := held
      · exact .inl (List.mem_of_mem_drop hot)
      · simp only [WriteOutcome.of] at cold
        split at cold
        · exact .inr cold
        split at cold
        · obtain written | ⟨id', b, -, found, row⟩ := Tier.mem_coldRows_persisted k _ |>.mp cold
          · rw [cut.rows] at written
            exact .inl (List.mem_of_mem_take (List.mem_of_mem_take written))
          · exact .inr (Tier.mem_coldRows.mpr ⟨id', b, found, row⟩)
        · exact .inr cold
  | drop noPass drops closed silent blocks deleted =>
    left
    obtain hot | cold := held
    · cases hot
    · obtain rfl | rfl := deleted
      · cases cold
      · exact .inr cold

/-- `Stores` misses no row: what a run ends with was there before it, or one of
its appends created it. -/
theorem row_origin (ok : e.Ok) (steps : List (Env F × Call F)) {x : Row F}
    (held : x ∈ ((run steps e).tier s).hotRows ∨ x ∈ ((run steps e).tier s).coldRows) :
    (x ∈ (e.tier s).hotRows ∨ x ∈ (e.tier s).coldRows) ∨ ∃ a, e.Stores steps s a x := by
  let Known (log : List (Entry F)) (t : Tier F) : Prop := ∀ x : Row F,
    x ∈ t.hotRows ∨ x ∈ t.coldRows →
      (x ∈ (e.tier s).hotRows ∨ x ∈ (e.tier s).coldRows) ∨ x ∈ log.map Entry.toRow
  have start : Known [] (e.tier s) := fun _ old => .inl old
  have origin := run_tier Known (P := fun _ _ => True) ?_ ok rfl rfl
    (fun c (_ : c ∈ steps) => trivial) start
  · obtain old | created := origin x held
    · exact .inl old
    · rw [List.nil_append] at created
      obtain ⟨y, logged, rfl⟩ := List.mem_map.mp created
      obtain ⟨a, own⟩ := zip_of_mem (history_owns ok steps s).length_eq logged
      exact .inr ⟨a, ⟨y, own, rfl⟩, held⟩
  · intro e' env c log t' _ _ _ known step x held
    rw [List.map_append, List.mem_append, ← or_assoc]
    obtain old | new := step_origin step held
    · exact .inl (known x old)
    · exact .inr new

/-! ## A lap of payloads -/

variable {cfg : ValidConfig}

/-- An append that the calls find a ring for. -/
theorem append_lands {e' : Engine F} (opened : e.closed = false)
    (get : e.getOrCreateRing env s = .ok (e', r)) (a : BatchRow F) :
    let c := Call.append (some s.bytes) a.ts (some a.vec) e.cfg.dim.toNat a.payload
    e.appended env c s = [r.ingested a.ts a.vec e.cfg.dim.toNat a.payload] ∧
      e.ownRows env c s = [a] := by
  have dim := Nat.ne_of_gt e.cfg.dim_pos
  intro c
  have returned : (e.call env c).1 = .ok := by
    simp [c, call, chronosvAppend, withSensor, append, opened, get, dim]
  constructor
  · simp [appended, get, returned, landing, c]
  · simp [ownRows, returned, Call.argRows, c]

/-- As many rows as the ring holds, with payloads of one byte value. -/
def lapBatch (cfg : ValidConfig) (s : SensorId) (b : UInt8) : Call F :=
  .appendBatch (some s.bytes) (some fun _ => 0) (some fun _ => 0) cfg.shape.capacity cfg.dim.toNat
    (some fun _ => b)

/-- After the batch the window is full, and every entry has its payload. -/
theorem lapBatch_fills (uuid : Uuid) (sized : 0 < cfg.shape.payloadSize) (s : SensorId) (b : UInt8) :
    let e := ((init cfg uuid .null : Engine F).call (.calm F 0) (lapBatch cfg s b)).2
    (e.tier s).hot.items.length = cfg.shape.capacity ∧ e.closed = false ∧ e.cfg = cfg ∧
      ∀ y ∈ (e.tier s).hot.items, y.payload = List.replicate cfg.shape.payloadSize b := by
  let e₀ : Engine F := init cfg uuid .null
  have ok : e₀.Ok := init_ok cfg uuid .null
  have dim : cfg.dim.toNat ≠ 0 := Nat.ne_of_gt cfg.dim_pos
  have rows : cfg.shape.capacity ≠ 0 := Nat.ne_of_gt cfg.shape.capacity_pos
  have room : ¬ (0 < e₀.cfg.maxSensors.toNat ∧
      e₀.cfg.maxSensors.toNat ≤ e₀.sensors.keys.length) := by
    rintro ⟨some_, none⟩
    exact absurd (Nat.lt_of_lt_of_le some_ none) (Nat.lt_irrefl 0)
  have memory : ((Env.calm F 0).ringMemory s).isSome := rfl
  obtain ⟨e', r, get⟩ := getOrCreateRing_room room memory
  have call : e₀.call (.calm F 0) (lapBatch cfg s b) =
      e₀.appendBatch (.calm F 0) s (some fun _ => 0) (some fun _ => 0) cfg.shape.capacity
        e₀.cfg.dim.toNat (some fun _ => b) := by
    simp [lapBatch, Engine.call, chronosvAppendBatch, withSensor, dim, rows, e₀, init]
  have fills := appendBatch_fills ok rfl get (fun _ => 0) (fun _ => 0) (some fun _ => b) rows
  rw [← call] at fills
  have empty : (e₀.tier s).hot.items = [] := by
    rw [init_tier]
    rfl
  rw [empty, List.length_nil, Nat.zero_add] at fills
  refine ⟨fills.1.trans (Nat.min_self _), fills.2.1, fills.2.2, ?_⟩
  intro y queued
  have ingests : Ingests e₀ (.calm F 0) (lapBatch cfg s b) := appendBatch_ingests ..
  rw [(ingests.result ok).1 s, Tier.pushAll_hot] at queued
  have new := (BoundedQueue.mem_pushAll queued).resolve_left (by simp [empty])
  obtain ⟨a, own⟩ := zip_of_mem (appended_owns ok _ _ s).length_eq new
  have passed : a.payload = some fun _ => b := by
    have args := (List.of_mem_zip own).1
    simp only [ownRows] at args
    split at args
    · simp only [lapBatch, Call.argRows, ↓reduceIte, List.mem_map] at args
      obtain ⟨i, -, rfl⟩ := args
      simp [batchRow, e₀, init, sized]
    · cases args
  rw [(List.forall₂_iff_zip.mp (appended_owns ok _ _ s)).2 own _ passed]
  simp [Cells.load, e₀, init]

/-- The batch, and append `a` after it. -/
def lapRun (cfg : ValidConfig) (s : SensorId) (a : BatchRow F) (b : UInt8) : List (Env F × Call F) :=
  [(.calm F 0, lapBatch cfg s b),
    (.calm F 0, .append (some s.bytes) a.ts (some a.vec) cfg.dim.toNat a.payload)]

/-- **A payload from one lap before.** Without a payload of its own, the entry
shows the batch's. -/
theorem lapRun_stores (uuid : Uuid) (sized : 0 < cfg.shape.payloadSize) (s : SensorId) {a : BatchRow F}
    (none : a.payload = none) (b : UInt8) :
    ∃ x, (init cfg uuid .null : Engine F).Stores (lapRun cfg s a b) s a x ∧
      x.payload = List.replicate cfg.shape.payloadSize b := by
  let e₀ : Engine F := init cfg uuid .null
  let e := (e₀.call (.calm F 0) (lapBatch cfg s b)).2
  have ok₀ : e₀.Ok := init_ok cfg uuid .null
  have ok : e.Ok := (call_frame ok₀ (.calm F 0) (lapBatch cfg s b)).ok
  obtain ⟨length, opened, cfg_eq, payloads⟩ := lapBatch_fills (F := F) uuid sized s b
  -- the full window is that of a ring, which the append finds
  have some_ : 0 < (e.tier s).hot.items.length := length.symm ▸ cfg.shape.capacity_pos
  obtain ⟨r, next, found⟩ := found_of_items some_
  have window : (e.tier s).hot.items = r.window := tier_items found
  have get : e.getOrCreateRing (.calm F 0) s = .ok (e, r) := by
    simp only [getOrCreateRing, found]
  have shape : r.shape = cfg.shape := by
    rw [(ok s r (ring_eq found)).1, cfg_eq]
  obtain ⟨appended, own⟩ := append_lands opened get a
  rw [cfg_eq] at appended own
  obtain ⟨y, oldest, reused⟩ := SensorRing.stored_over a.ts a.vec cfg.dim.toNat
    (show r.window.length = r.shape.capacity by rw [← window, length, shape])
  refine ⟨(r.ingested a.ts a.vec cfg.dim.toNat a.payload).toRow, ⟨⟨_, ?_, rfl⟩, .inl ?_⟩, ?_⟩
  · simp only [lapRun, ownHistory, history, List.append_nil]
    rw [List.zip_append (appended_owns ok₀ _ _ s).length_eq, List.mem_append]
    right
    rw [own, appended]
    exact List.mem_singleton_self _
  · have pushed := ((append_ingests e (.calm F 0) (some s.bytes) a.ts (some a.vec) cfg.dim.toNat
      a.payload).result ok).1 s
    rw [appended] at pushed
    show _ ∈ ((e.call _ _).2.tier s).hotRows
    rw [pushed]
    exact List.mem_map_of_mem (BoundedQueue.mem_push_self _)
  · rw [none, reused]
    exact payloads y (window ▸ oldest)

/-- Whatever reachable engines and runs the append occurs in, the rows that it
creates show one payload. -/
def ShowsOnePayload (sh : RingShape) (s : SensorId) (a : BatchRow F) : Prop :=
  ∀ (e₁ e₂ : Engine F) (steps₁ steps₂ : List (Env F × Call F)) (x₁ x₂ : Row F),
    Reachable e₁ → Reachable e₂ → e₁.cfg.shape = sh → e₂.cfg.shape = sh →
    e₁.Stores steps₁ s a x₁ → e₂.Stores steps₂ s a x₂ → x₁.payload = x₂.payload

/-- **When an entry's payload is its own.** Under any accepted configuration with
payloads: exactly when the append that creates it passes one. -/
theorem own_payload_iff {cfgIn : Config} (valid : validateAndDefault cfgIn = .ok cfg)
    (sized : 0 < cfg.shape.payloadSize) (s : SensorId) (a : BatchRow F) :
    ShowsOnePayload cfg.shape s a ↔ a.payload.isSome = true := by
  constructor
  · intro same
    by_contra none
    rw [Bool.not_eq_true, Option.isSome_eq_false_iff, Option.isNone_iff_eq_none] at none
    obtain ⟨uuid, created⟩ : ∃ uuid, create (.calm F 0) cfgIn .none = .ok (init cfg uuid .null) := by
      simp only [create, valid, initBackend, reconcile, Backend.readMetadata, Backend.writeMetadata,
        ne_eq, not_true]
      exact ⟨_, rfl⟩
    obtain ⟨x₁, stores₁, zeros⟩ := lapRun_stores uuid sized s none 0
    obtain ⟨x₂, stores₂, ones⟩ := lapRun_stores uuid sized s none 1
    have equal := same _ _ _ _ x₁ x₂ (.created created) (.created created) rfl rfl stores₁ stores₂
    rw [zeros, ones] at equal
    exact absurd (List.replicate_inj.mp equal).2 (by simp; omega)
  · intro passed e₁ e₂ steps₁ steps₂ x₁ x₂ reachable₁ reachable₂ shape₁ shape₂ stores₁ stores₂
    obtain ⟨p, payload⟩ := Option.isSome_iff_exists.mp passed
    rw [stores₁.payload (reachable_ok reachable₁) payload,
      stores₂.payload (reachable_ok reachable₂) payload, shape₁, shape₂]

end

/-- The small engine with payloads of one byte. -/
def payConfig : Config := { smallConfig with payloadSizeBytes := 1 }

def payValid : ValidConfig :=
  { payConfig with
    abi_ok := by decide
    dim_pos := by decide
    dim_le := by decide
    payload_le := by decide
    dtype_le := by decide
    metric_le := by decide
    capacity_min := by decide
    capacity_pow := ⟨6, by decide⟩
    window_nonneg := by decide
    interval_min := by decide }

theorem payConfig_valid : validateAndDefault payConfig = .ok payValid := rfl

def payEngine : Engine ℚ := .init payValid payConfig.uuid .null

/-- An append with the payload byte 7. -/
def labelledRow : BatchRow ℚ := ⟨5, fun _ => 1, some fun _ => 7⟩

/-- The same without a payload. -/
def bareRow : BatchRow ℚ := ⟨5, fun _ => 1, none⟩

theorem labelledRow_payload : ShowsOnePayload payValid.shape sensorA labelledRow :=
  (own_payload_iff payConfig_valid (by decide) sensorA labelledRow).mpr rfl

/-- After 64 rows with the payload 0 the entry shows 0, after 64 rows with the
payload 1 it shows 1. -/
theorem bareRow_payloads : ¬ ShowsOnePayload payValid.shape sensorA bareRow := by
  intro same
  have created : create (.calm ℚ 0) payConfig none = .ok payEngine := rfl
  have sized : 0 < payValid.shape.payloadSize := by decide
  obtain ⟨x₁, stores₁, zero⟩ := lapRun_stores payConfig.uuid sized sensorA (a := bareRow) rfl 0
  obtain ⟨x₂, stores₂, one⟩ := lapRun_stores payConfig.uuid sized sensorA (a := bareRow) rfl 1
  have equal := same payEngine payEngine _ _ x₁ x₂ (.created created) (.created created) rfl rfl
    stores₁ stores₂
  rw [zero, one] at equal
  exact absurd equal (by decide)

end Engine
end ChronosVector
