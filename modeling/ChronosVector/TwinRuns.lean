import ChronosVector.Steps

/-!
# Two engines that differ in one sensor

Two runs of the same calls that append different rows to one sensor lead to
engines that agree on everything but that sensor and the shared scratch.

* `Engine.Twin`: the agreement;
* `Call.SameBut`: calls that may append different rows to the sensor;
* `Twin.call`: every call that runs no pass keeps the agreement;
* `Twin.pass`: the two runs make the same passes.
-/

namespace ChronosVector

variable {F : Type}

/-- The directories differ at most in the blocks of `a`. -/
structure Backend.SameBut (a : SensorId) (bk bk' : Backend F) : Prop where
  persists : bk'.persists = bk.persists
  blocks : ∀ s, s ≠ a → bk'.cold.blocks s = bk.cold.blocks s

/-- The engines differ at most in the entries, the block ids and the blocks of
`a`, in the scratch and in the counters. -/
structure Engine.Twin (a : SensorId) (e e' : Engine F) : Prop where
  cfg : e'.cfg = e.cfg
  closed : e'.closed = e.closed
  slots : ∀ s, s ≠ a → e'.sensors.lookup s = e.sensors.lookup s
  own : (e'.sensors.lookup a).map (fun slot => slot.ring.isSome) =
    (e.sensors.lookup a).map (fun slot => slot.ring.isSome)
  backend : e.backend.SameBut a e'.backend

/-- Two calls of one operation, which may append different rows to `a`. -/
inductive Call.SameBut (a : SensorId) : Call F → Call F → Prop
  | same (c : Call F) : SameBut a c c
  | append (ts ts' : Int64) (vec vec' : Nat → F) (dim : Nat)
      (payload payload' : Option (Nat → UInt8)) :
      SameBut a (.append (some a.bytes) ts (some vec) dim payload)
        (.append (some a.bytes) ts' (some vec') dim payload')
  | appendBatch (ts ts' : Nat → Int64) (vecs vecs' : Nat → F) (count dim : Nat)
      (payloads payloads' : Option (Nat → UInt8)) :
      SameBut a (.appendBatch (some a.bytes) (some ts) (some vecs) count dim payloads)
        (.appendBatch (some a.bytes) (some ts') (some vecs') count dim payloads')

/-- Both persist or neither does. -/
theorem Backend.both_of_persists {bk bk' : Backend F} (same : bk'.persists = bk.persists) :
    (bk = .null ∧ bk' = .null) ∨ ∃ db db', bk = .rocksdb db ∧ bk' = .rocksdb db' := by
  cases bk with
  | null =>
    cases bk' with
    | null => exact .inl ⟨rfl, rfl⟩
    | rocksdb db' => cases same
  | rocksdb db =>
    cases bk' with
    | null => cases same
    | rocksdb db' => exact .inr ⟨db, db', rfl, rfl⟩

namespace Backend.SameBut

variable {a s : SensorId} {bk bk' bk'' : Backend F}

theorem refl (a : SensorId) (bk : Backend F) : bk.SameBut a bk := ⟨rfl, fun _ _ => rfl⟩

theorem symm (h : bk.SameBut a bk') : bk'.SameBut a bk :=
  ⟨h.persists.symm, fun s ne => (h.blocks s ne).symm⟩

theorem trans (h : bk.SameBut a bk') (h' : bk'.SameBut a bk'') : bk.SameBut a bk'' :=
  ⟨h'.persists.trans h.persists, fun s ne => (h'.blocks s ne).trans (h.blocks s ne)⟩

theorem deleteSensor (h : bk.SameBut a bk') (status : ErrorCode) (s : SensorId) :
    (bk.deleteSensor status s).2.SameBut a (bk'.deleteSensor status s).2 := by
  obtain ⟨frame, -, -, per⟩ := Engine.deleteSensor_blocks status bk s
  obtain ⟨frame', -, -, per'⟩ := Engine.deleteSensor_blocks status bk' s
  refine ⟨per'.trans (h.persists.trans per.symm), fun t ne => ?_⟩
  by_cases other : t ≠ s
  · rw [frame t other, frame' t other, h.blocks t ne]
  · obtain rfl := not_not.mp other
    have same := h.blocks t ne
    obtain ⟨rfl, rfl⟩ | ⟨db, db', rfl, rfl⟩ := Backend.both_of_persists h.persists
    · rfl
    · simp only [Backend.deleteSensor]
      split
      · exact (db'.blocks_erase_self t).trans (db.blocks_erase_self t).symm
      · exact same

end Backend.SameBut

namespace Engine.Twin

variable {a s : SensorId} {e e' e'' : Engine F} {env : Env F}

theorem refl (a : SensorId) (e : Engine F) : e.Twin a e :=
  ⟨rfl, rfl, fun _ _ => rfl, rfl, .refl a _⟩

theorem symm (h : e.Twin a e') : e'.Twin a e :=
  ⟨h.cfg.symm, h.closed.symm, fun s ne => (h.slots s ne).symm, h.own.symm, h.backend.symm⟩

theorem trans (h : e.Twin a e') (h' : e'.Twin a e'') : e.Twin a e'' :=
  ⟨h'.cfg.trans h.cfg, h'.closed.trans h.closed,
    fun s ne => (h'.slots s ne).trans (h.slots s ne), h'.own.trans h.own, h.backend.trans h'.backend⟩

/-- A sensor is registered in both or in neither, with the same slot if it is
not `a`. -/
theorem lookup (h : e.Twin a e') (s : SensorId) :
    (e.sensors.lookup s = none ∧ e'.sensors.lookup s = none) ∨
    ∃ slot slot', e.sensors.lookup s = some slot ∧ e'.sensors.lookup s = some slot' ∧
      slot'.ring.isSome = slot.ring.isSome ∧ (s ≠ a → slot' = slot) := by
  by_cases other : s ≠ a
  · rw [h.slots s other]
    cases found : e.sensors.lookup s with
    | none => exact .inl ⟨rfl, rfl⟩
    | some slot => exact .inr ⟨slot, slot, rfl, rfl, rfl, fun _ => rfl⟩
  · obtain rfl := not_not.mp other
    have own := h.own
    cases found : e.sensors.lookup s with
    | none =>
      rw [found, Option.map_none, Option.map_eq_none_iff] at own
      exact .inl ⟨rfl, own⟩
    | some slot =>
      rw [found, Option.map_some, Option.map_eq_some_iff] at own
      obtain ⟨slot', found', isSome⟩ := own
      exact .inr ⟨slot, slot', rfl, found', isSome, fun ne => absurd rfl ne⟩

theorem keys (h : e.Twin a e') : e.sensors.keys.Perm e'.sensors.keys := by
  apply (List.perm_ext_iff_of_nodup e.sensors.keys_nodup e'.sensors.keys_nodup).mpr
  intro s
  rw [← AList.mem_keys, ← AList.mem_keys, ← AList.lookup_isSome, ← AList.lookup_isSome]
  obtain ⟨none, none'⟩ | ⟨slot, slot', found, found', -⟩ := h.lookup s
  · rw [none, none']
  · rw [found, found']
    exact Iff.rfl

theorem setSlot (h : e.Twin a e') {slot slot' : SensorSlot F}
    (isSome : slot'.ring.isSome = slot.ring.isSome) (same : s ≠ a → slot' = slot) :
    (e.setSlot s slot).Twin a (e'.setSlot s slot') := by
  refine ⟨h.cfg, h.closed, fun t ne => ?_, ?_, h.backend⟩
  · by_cases eq : t = s
    · subst eq
      rw [lookup_setSlot_self, lookup_setSlot_self, same ne]
    · rw [lookup_setSlot_ne eq, lookup_setSlot_ne eq, h.slots t ne]
  · by_cases eq : a = s
    · subst eq
      rw [lookup_setSlot_self, lookup_setSlot_self, Option.map_some, Option.map_some, isSome]
    · rw [lookup_setSlot_ne eq, lookup_setSlot_ne eq, h.own]

theorem drop (h : e.Twin a e') (s : SensorId) :
    ((e.dropSensor env s).2).Twin a (e'.dropSensor env s).2 := by
  simp only [dropSensor, h.closed]
  split
  · exact h
  obtain ⟨none, none'⟩ | ⟨slot, slot', found, found', -⟩ := h.lookup s
  · rw [none, none']
    exact h
  · rw [found, found']
    refine ⟨h.cfg, rfl, fun t ne => ?_, ?_, h.backend.deleteSensor _ s⟩
    · by_cases eq : t = s
      · subst eq
        simp only [AList.lookup_erase]
      · simp only [AList.lookup_erase_ne eq, h.slots t ne]
    · by_cases eq : a = s
      · subst eq
        simp only [AList.lookup_erase]
      · simp only [AList.lookup_erase_ne eq, h.own]

/-- Registering a ring goes the same way in both. -/
theorem getOrCreateRing (h : e.Twin a e') (env : Env F) (s : SensorId) :
    (∃ err, e.getOrCreateRing env s = .error err ∧ e'.getOrCreateRing env s = .error err) ∨
    ∃ e₁ e₁' r r' next next', e.getOrCreateRing env s = .ok (e₁, r) ∧
      e'.getOrCreateRing env s = .ok (e₁', r') ∧ e₁.Twin a e₁' ∧
      e₁.sensors.lookup s = some ⟨some r, next⟩ ∧ e₁'.sensors.lookup s = some ⟨some r', next'⟩ ∧
      (s ≠ a → r' = r ∧ next' = next) := by
  simp only [Engine.getOrCreateRing, ← h.keys.length_eq, h.cfg]
  rcases h.lookup s with ⟨none, none'⟩ | ⟨⟨ring, next⟩, ⟨ring', next'⟩, found, found', isSome, same⟩
  · rw [none, none']
    dsimp only
    split
    · exact .inl ⟨_, rfl, rfl⟩
    cases env.ringMemory s with
    | none => exact .inl ⟨_, rfl, rfl⟩
    | some mem =>
      exact .inr ⟨_, _, _, _, 0, 0, rfl, rfl, h.setSlot rfl fun _ => rfl, lookup_setSlot_self _,
        lookup_setSlot_self _, fun _ => ⟨rfl, rfl⟩⟩
  · rw [found, found']
    cases ring with
    | none =>
      obtain rfl : ring' = none := by simpa using isSome
      cases env.ringMemory s with
      | none => exact .inl ⟨_, rfl, rfl⟩
      | some mem =>
        refine .inr ⟨_, _, _, _, next, next', rfl, rfl, h.setSlot rfl fun ne => ?_,
          lookup_setSlot_self _, lookup_setSlot_self _, fun ne => ⟨rfl, ?_⟩⟩
        · rw [(SensorSlot.mk.inj (same ne)).2]
        · exact (SensorSlot.mk.inj (same ne)).2
    | some r =>
      obtain ⟨r', rfl⟩ := Option.isSome_iff_exists.mp (isSome.trans (Option.isSome_some (a := r)))
      refine .inr ⟨_, _, r, r', next, next', rfl, rfl, h, found, found', fun ne => ?_⟩
      obtain ⟨sameRing, sameNext⟩ := SensorSlot.mk.inj (same ne)
      exact ⟨Option.some.inj sameRing, sameNext⟩

/-- A store through the pointer to a registered ring. -/
theorem setRing (h : e.Twin a e') {r r' : SensorRing F} {next next' : Nat}
    (found : e.sensors.lookup s = some ⟨some r, next⟩)
    (found' : e'.sensors.lookup s = some ⟨some r', next'⟩) (r₁ r₁' : SensorRing F)
    (same : s ≠ a → r₁' = r₁ ∧ next' = next) : (e.setRing s r₁).Twin a (e'.setRing s r₁') := by
  rw [setRing_eq found, setRing_eq found']
  refine h.setSlot (Eq.trans rfl rfl) fun ne => ?_
  rw [(same ne).1, (same ne).2]

/-- The two runs make the same passes. -/
theorem pass (h : e.Twin a e') {c c' : Call F} (same : c.SameBut a c') :
    (e.pass c = none ∧ e'.pass c' = none) ∨
    ∃ e₁ e₁' w, e.pass c = some (e₁, w) ∧ e'.pass c' = some (e₁', w) ∧ e₁.Twin a e₁' ∧
      e₁.evictScratch = e.evictScratch ∧ e₁'.evictScratch = e'.evictScratch := by
  cases same with
  | append | appendBatch => exact .inl ⟨rfl, rfl⟩
  | same =>
    cases c with
    | flush =>
      simp only [Engine.pass, h.closed]
      split
      · exact .inl ⟨rfl, rfl⟩
      · exact .inr ⟨e, e', 0, rfl, rfl, h, rfl, rfl⟩
    | backgroundPass =>
      simp only [Engine.pass, h.closed]
      split
      · exact .inl ⟨rfl, rfl⟩
      · exact .inr ⟨e, e', _, rfl, by rw [h.cfg], h, rfl, rfl⟩
    | maintainSlidingWindow w =>
      simp only [Engine.pass, h.closed]
      split
      · exact .inl ⟨rfl, rfl⟩
      split
      · exact .inl ⟨rfl, rfl⟩
      · refine .inr ⟨_, _, w, rfl, rfl, ⟨?_, rfl, h.slots, h.own, h.backend⟩, rfl, rfl⟩
        simp only [h.cfg]
    | _ => exact .inl ⟨rfl, rfl⟩

variable [FloatArith F]

theorem append (h : e.Twin a e') {ts ts' : Int64} {vec vec' : Nat → F} (dim : Nat)
    {payload payload' : Option (Nat → UInt8)}
    (same : s ≠ a → ts' = ts ∧ vec' = vec ∧ payload' = payload) :
    (e.append env s ts vec dim payload).2.Twin a (e'.append env s ts' vec' dim payload').2 := by
  simp only [Engine.append, h.closed, h.cfg]
  split
  · exact h
  split
  · exact h
  rcases h.getOrCreateRing env s with ⟨err, eq, eq'⟩ |
    ⟨e₁, e₁', r, r', next, next', eq, eq', twin, found, found', sameRing⟩
  · rw [eq, eq']
    exact h
  · rw [eq, eq']
    have stored := twin.setRing found found' (r.ingest ts vec dim payload)
      (r'.ingest ts' vec' dim payload') (fun ne => by
        obtain ⟨rfl, rfl, rfl⟩ := same ne
        obtain ⟨rfl, rfl⟩ := sameRing ne
        exact ⟨rfl, rfl⟩)
    exact ⟨stored.cfg, stored.closed, stored.slots, stored.own, stored.backend⟩

theorem appendBatch (h : e.Twin a e') {ts ts' : Nat → Int64} {vecs vecs' : Nat → F}
    (count dim : Nat) {payloads payloads' : Option (Nat → UInt8)}
    (same : s ≠ a → ts' = ts ∧ vecs' = vecs ∧ payloads' = payloads) :
    (e.appendBatch env s (some ts) (some vecs) count dim payloads).2.Twin a
      (e'.appendBatch env s (some ts') (some vecs') count dim payloads').2 := by
  simp only [Engine.appendBatch, h.closed, h.cfg]
  split
  · exact h
  split
  · exact h
  split
  · exact h
  rcases h.getOrCreateRing env s with ⟨err, eq, eq'⟩ |
    ⟨e₁, e₁', r, r', next, next', eq, eq', twin, found, found', sameRing⟩
  · rw [eq, eq']
    exact h
  · rw [eq, eq']
    have stored := twin.setRing found found'
      (ingestAll dim ((List.range count).map
        (batchRow ts vecs dim e.cfg.payloadSizeBytes.toNat payloads)) r)
      (ingestAll dim ((List.range count).map
        (batchRow ts' vecs' dim e.cfg.payloadSizeBytes.toNat payloads')) r') (fun ne => by
        obtain ⟨rfl, rfl, rfl⟩ := same ne
        obtain ⟨rfl, rfl⟩ := sameRing ne
        exact ⟨rfl, rfl⟩)
    exact ⟨stored.cfg, stored.closed, stored.slots, stored.own, stored.backend⟩

theorem query (h : e.Twin a e') {c : Call F} (quiet : c.IsQuery) :
    (e.call env c).2.Twin a (e'.call env c).2 := by
  have counts (e : Engine F) : e.Twin a (e.call env c).2 := by
    obtain same | same | same := query_counts (e := e) quiet env
    · rw [same]
      exact refl a e
    · rw [same]
      exact ⟨rfl, rfl, fun _ _ => rfl, rfl, .refl a _⟩
    · rw [same]
      exact ⟨rfl, rfl, fun _ _ => rfl, rfl, .refl a _⟩
  exact ((counts e).symm.trans h).trans (counts e')

omit [FloatArith F] in
theorem no_pass (h : e.Twin a e') {c c' : Call F} (same : c.SameBut a c')
    (noPass : e.pass c = none) : e'.pass c' = none := by
  obtain ⟨-, none⟩ | ⟨e₁, e₁', w, pass, -⟩ := h.pass same
  · exact none
  · rw [pass] at noPass
    cases noPass

/-- **A call without a pass** keeps the engines twins. -/
theorem call (h : e.Twin a e') {c c' : Call F} (same : c.SameBut a c') (noPass : e.pass c = none) :
    (e.call env c).2.Twin a (e'.call env c').2 := by
  cases same with
  | append ts ts' vec vec' dim payload payload' =>
    simp only [Engine.call, chronosvAppend, withSensor, SensorId.parse_bytes]
    split
    · exact h
    · exact h.append dim fun ne => absurd rfl ne
  | appendBatch ts ts' vecs vecs' count dim payloads payloads' =>
    simp only [Engine.call, chronosvAppendBatch, withSensor, SensorId.parse_bytes,
      Option.isNone_some, Bool.false_eq_true, or_self, if_false]
    split
    · exact h
    split
    · exact h
    · exact h.appendBatch count dim fun ne => absurd rfl ne
  | same =>
    cases c with
    | preallocateSensor id =>
      simp only [Engine.call, withSensor]
      split
      · exact h
      rename_i s _
      simp only [preallocateSensor, h.closed]
      split
      · exact h
      rcases h.getOrCreateRing env s with ⟨err, eq, eq'⟩ |
        ⟨e₁, e₁', r, r', next, next', eq, eq', twin, -⟩
      · rw [eq, eq']
        exact h
      · rw [eq, eq']
        exact twin
    | append id ts vec dim payload =>
      simp only [Engine.call, chronosvAppend, withSensor]
      split
      · exact h
      split
      · exact h
      split
      · exact h
      · exact h.append dim fun _ => ⟨rfl, rfl, rfl⟩
    | appendBatch id ts vecs count dim payloads =>
      simp only [Engine.call, chronosvAppendBatch, withSensor]
      split
      · exact h
      split
      · exact h
      split
      · exact h
      split
      · exact h
      · rename_i given
        cases ts with
        | none => simp at given
        | some ts =>
          cases vecs with
          | none => simp at given
          | some vecs => exact h.appendBatch count dim fun _ => ⟨rfl, rfl, rfl⟩
    | queryNearestN | queryRange | detectAnomaly => exact h.query (by trivial)
    | dropSensor id =>
      simp only [Engine.call, withSensor]
      split
      · exact h
      · exact h.drop _
    | close => exact ⟨h.cfg, rfl, h.slots, h.own, h.backend⟩
    | flush | backgroundPass | maintainSlidingWindow =>
      have noPass' := h.no_pass (.same _) noPass
      rw [call_of_no_pass (by trivial) env noPass, call_of_no_pass (by trivial) env noPass']
      exact h

end Engine.Twin

/-! ## The scratch between passes -/

namespace Engine

variable {e e' : Engine F} {env : Env F} {s : SensorId} {r : SensorRing F}

theorem getOrCreateRing_scratch (h : e.getOrCreateRing env s = .ok (e', r)) :
    e'.evictScratch = e.evictScratch := by
  have scratch := congrArg Engine.evictScratch (getOrCreateRing_frame h)
  exact scratch

theorem setRing_scratch : (e.setRing s r).evictScratch = e.evictScratch := by
  rw [setRing_frame]

variable [FloatArith F]

theorem query_scratch {c : Call F} (query : c.IsQuery) (env : Env F) :
    (e.call env c).2.evictScratch = e.evictScratch := by
  obtain same | same | same := e.query_counts query env
  · rw [same]
  · rw [same]
    rfl
  · rw [same]
    rfl

/-- Only a pass touches the scratch. -/
theorem call_scratch {c : Call F} (env : Env F) (noPass : e.pass c = none) :
    (e.call env c).2.evictScratch = e.evictScratch := by
  cases c with
  | preallocateSensor id =>
    simp only [call, withSensor, preallocateSensor]
    split
    · rfl
    split
    · rfl
    split
    · rfl
    · rename_i get
      exact getOrCreateRing_scratch get
  | append id ts vec dim payload =>
    cases append_ingests e env id ts vec dim payload with
    | idle same => rw [same]
    | stored s e' r r' xs n get post =>
      rw [post]
      exact setRing_scratch.trans (getOrCreateRing_scratch get)
  | appendBatch id ts vecs count dim payloads =>
    cases appendBatch_ingests e env id ts vecs count dim payloads with
    | idle same => rw [same]
    | stored s e' r r' xs n get post =>
      rw [post]
      exact setRing_scratch.trans (getOrCreateRing_scratch get)
  | queryNearestN | queryRange | detectAnomaly => exact query_scratch (by trivial) env
  | dropSensor id =>
    simp only [call, withSensor, dropSensor]
    split
    · rfl
    split
    · rfl
    split <;> rfl
  | close => rfl
  | flush | backgroundPass | maintainSlidingWindow => rw [call_of_no_pass (by trivial) env noPass]

end Engine

end ChronosVector
