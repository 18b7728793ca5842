import ChronosVector.Refinement

/-!
# What a call can do

* `Tier.Step`: the ways in which one call changes one sensor's tier: appends, one
  eviction, or a drop;
* `call_step`: every call changes every sensor in one of these ways. The
  invariants of the development are derived from it;
* `call_frame`: what no call changes.
-/

namespace ChronosVector

variable {F : Type}

/-- A call that neither ingests, registers, drops nor evicts. -/
def Call.IsQuiet : Call F → Prop
  | .queryNearestN .. | .queryRange .. | .detectAnomaly .. | .close => True
  | _ => False

/-- A call that only reads a window. -/
def Call.IsQuery : Call F → Prop
  | .queryNearestN .. | .queryRange .. | .detectAnomaly .. => True
  | _ => False

/-- A call that runs a pass, unless its checks fail. -/
def Call.IsPass : Call F → Prop
  | .maintainSlidingWindow .. | .flush | .backgroundPass => True
  | _ => False

/-- Whether the call drops sensor `s`. -/
def Call.drops (s : SensorId) : Call F → Bool
  | .dropSensor id => id = some s.bytes
  | _ => false

/-- What one call does to sensor `s`: the tier after it. -/
inductive Tier.Step [FloatArith F] (e : Engine F) (env : Env F) (c : Call F) (s : SensorId) :
    Tier F → Prop
  | append (noPass : e.pass c = none) :
      Step e env c s ((e.tier s).pushAll e.cfg.shape.capacity (e.appended env c s))
  | evict (e' : Engine F) (w : Int64) (own : List (Block F)) (t' : Tier F)
      (pass : e.pass c = some (e', w)) (silent : e.appended env c s = [])
      (evicts : (e.tier s).Evicts env e.backend.persists e.cfg.shape w s t' own)
      (mem : ∀ blk, blk ∈ own ↔ blk ∈ e.writes env c ∧ blk.sensorId = s) : Step e env c s t'
  | drop (noPass : e.pass c = none) (drops : c.drops s = true) (closed : e.closed = false) (silent : e.appended env c s = [])
      (blocks : SortedMap Nat (StoredBlock F))
      (deleted : blocks = .empty ∨ blocks = (e.tier s).blocks) :
      Step e env c s ⟨.empty, 0, blocks⟩

namespace Engine

variable {e e' : Engine F} {s : SensorId} {w : Int64}

/-- A state with the same sensors, directory, configuration and identity. -/
structure Idle (e e' : Engine F) : Prop where
  sensors : e'.sensors = e.sensors
  backend : e'.backend = e.backend
  cfg : e'.cfg = e.cfg
  uuid : e'.uuid = e.uuid

theorem Idle.refl (e : Engine F) : Idle e e := ⟨rfl, rfl, rfl, rfl⟩

/-- The state a pass starts from differs from the call's at most in the window. -/
theorem pass_start {c : Call F} (h : e.pass c = some (e', w)) :
    e'.sensors = e.sensors ∧ e'.backend = e.backend ∧ e'.uuid = e.uuid ∧
    e'.cfg.shape = e.cfg.shape ∧ e'.closed = e.closed ∧ e.closed = false := by
  cases c with
  | flush =>
    simp only [pass] at h
    split at h
    · cases h
    · cases h
      simp_all
  | backgroundPass =>
    simp only [pass] at h
    split at h
    · cases h
    · cases h
      simp_all
  | maintainSlidingWindow w' =>
    simp only [pass] at h
    split at h
    · cases h
    · split at h
      · cases h
      · cases h
        simp_all
  | _ => cases h

theorem ok_of_pass {c : Call F} (h : e.pass c = some (e', w)) (ok : e.Ok) : e'.Ok := by
  obtain ⟨hs, -, -, hsh, -⟩ := pass_start h
  intro s r hr
  rw [hsh]
  exact ok s r (by simpa only [ring, hs] using hr)

theorem Idle.ok (h : Idle e e') (ok : e.Ok) : e'.Ok := by
  intro s r hr
  rw [h.cfg]
  exact ok s r (by simpa only [ring, h.sensors] using hr)

theorem Idle.tier (h : Idle e e') (s : SensorId) : e'.tier s = e.tier s :=
  tier_congr (by rw [h.sensors]) (by rw [h.backend])

/-- Dropping a sensor removes it and, at most, its blocks. -/
theorem dropSensor_cases (s : SensorId) (env : Env F) :
    (e.dropSensor env s).2 = e ∨
    (e.closed = false ∧ ∃ bk n m k, (e.dropSensor env s).2 =
        { e with
          sensors := e.sensors.erase s, backend := bk, totalDroppedSensors := n
          droppedOverwriteEvents := m, droppedOverwrittenEntries := k } ∧
      bk = (e.backend.deleteSensor (env.storage.deleteSensor s) s).2) := by
  unfold dropSensor
  split
  · exact .inl rfl
  · rename_i open_
    split
    · exact .inl rfl
    · exact .inr ⟨by simpa using open_, _, _, _, _, rfl, rfl⟩

theorem deleteSensor_blocks (status : ErrorCode) (bk : Backend F) (s : SensorId) :
    let bk' := (bk.deleteSensor status s).2
    (∀ t, t ≠ s → bk'.cold.blocks t = bk.cold.blocks t) ∧
    (bk'.cold.blocks s = .empty ∨ bk'.cold.blocks s = bk.cold.blocks s) ∧
    bk'.cold.metadata = bk.cold.metadata ∧ bk'.persists = bk.persists := by
  cases bk with
  | null => exact ⟨fun _ _ => rfl, .inl rfl, rfl, rfl⟩
  | rocksdb db =>
    simp only [Backend.deleteSensor]
    split
    · exact ⟨fun t ht => db.blocks_erase_ne ht, .inl (db.blocks_erase_self s), rfl, rfl⟩
    · exact ⟨fun _ _ => rfl, .inr rfl, rfl, rfl⟩

section
variable [FloatArith F] {env : Env F}

theorem call_of_pass {c : Call F} (env : Env F) (h : e.pass c = some (e', w)) :
    (e.call env c).2 = (evictSensors env w (env.order e'.sensors.keys) e').1 ∧
    e.writes env c = (evictSensors env w (env.order e'.sensors.keys) e').2 := by
  refine ⟨?_, by simp only [writes, h]⟩
  cases c with
  | flush =>
    simp only [pass] at h
    split at h
    · cases h
    · rename_i hc
      cases h
      simp [call, flush, hc, evictOnce]
  | backgroundPass =>
    simp only [pass] at h
    split at h
    · cases h
    · rename_i hc
      cases h
      simp only [call, backgroundPass, hc, evictOnce]
      rfl
  | maintainSlidingWindow w' =>
    simp only [pass] at h
    split at h
    · cases h
    · rename_i hc
      split at h
      · cases h
      · rename_i hw
        cases h
        simp only [call, maintainSlidingWindow, hc, hw, evictOnce]
        rfl
  | _ => cases h

theorem call_pass_evicts {c : Call F} (h : e.pass c = some (e', w)) (ok : e.Ok) (env : Env F)
    (s : SensorId) :
    ∃ own, (e.tier s).Evicts env e.backend.persists e.cfg.shape w s ((e.call env c).2.tier s) own ∧
      ∀ blk, blk ∈ own ↔ blk ∈ e.writes env c ∧ blk.sensorId = s := by
  obtain ⟨hs, hb, -, hsh, -⟩ := pass_start h
  obtain ⟨hcall, hwrites⟩ := call_of_pass env h
  have htier : e'.tier s = e.tier s := tier_congr (by rw [hs]) (by rw [hb])
  have nodup : (env.order e'.sensors.keys).Nodup :=
    (env.order_perm _).nodup_iff.mpr e'.sensors.keys_nodup
  have hp := evictSensors_evicts env w nodup (ok_of_pass h ok)
  rw [hcall, hwrites]
  by_cases hmem : s ∈ env.order e'.sensors.keys
  · obtain ⟨own, hown, hiff⟩ := hp.evicts s hmem
    rw [htier, hb, hsh] at hown
    exact ⟨own, hown, hiff⟩
  · obtain ⟨same, hnone⟩ := hp.others s hmem
    have hl : e'.sensors.lookup s = none :=
      AList.lookup_eq_none.mpr fun hin => hmem ((env.order_perm _).mem_iff.mpr hin)
    refine ⟨[], ?_, fun blk => ?_⟩
    · rw [same, ← htier]
      exact evicts_idle_of_empty (by rw [hot_of_lookup_none hl, BoundedQueue.empty_items])
    · simp only [List.not_mem_nil, false_iff, not_and]
      exact hnone blk

theorem queryNearestN_counts (target : Option (Nat → F)) (dim : Nat) (n : Int) (outs : Bool) :
    (e.queryNearestN s target dim n outs).2.2 = e ∨
    (e.queryNearestN s target dim n outs).2.2 = e.countQuery := by
  unfold queryNearestN
  split
  · exact .inl rfl
  split
  · exact .inl rfl
  split
  · exact .inl rfl
  split
  · exact .inl rfl
  split
  · exact .inl rfl
  · exact .inl rfl
  · simp only
    split
    · exact .inl rfl
    · exact .inr rfl

theorem queryRange_counts (tStart tEnd : Int64) (max : Int) (outs : Bool) :
    (e.queryRange s tStart tEnd max outs).2.2 = e ∨
    (e.queryRange s tStart tEnd max outs).2.2 = e.countQuery := by
  unfold queryRange
  split
  · exact .inl rfl
  split
  · exact .inl rfl
  split
  · exact .inl rfl
  split
  · exact .inl rfl
  · exact .inl rfl
  · exact .inr rfl

theorem detectAnomaly_counts (v : Option (Nat → F)) (dim : Nat) (threshold : F) (outs : Bool) :
    (e.detectAnomaly s v dim threshold outs).2.2 = e ∨
    (e.detectAnomaly s v dim threshold outs).2.2 = e.countAnomalyCheck := by
  unfold detectAnomaly
  split
  · exact .inl rfl
  split
  · exact .inl rfl
  split
  · exact .inl rfl
  split
  · exact .inl rfl
  split
  · exact .inl rfl
  · exact .inl rfl
  · simp only
    split <;> exact .inr rfl

/-- A query counts itself at most. -/
theorem query_counts {c : Call F} (h : c.IsQuery) (env : Env F) :
    (e.call env c).2 = e ∨ (e.call env c).2 = e.countQuery ∨
    (e.call env c).2 = e.countAnomalyCheck := by
  cases c with
  | queryNearestN id target dim n outs =>
    simp only [call, withSensor]
    split
    · exact .inl rfl
    · exact (queryNearestN_counts target dim n outs).imp_right .inl
  | queryRange id tStart tEnd max outs =>
    simp only [call, chronosvQueryRange]
    split
    · exact .inl rfl
    · exact (queryRange_counts tStart tEnd max outs).imp_right .inl
  | detectAnomaly id v dim threshold outs =>
    simp only [call, withSensor]
    split
    · exact .inl rfl
    · exact (detectAnomaly_counts v dim threshold outs).imp_right .inr
  | _ => cases h

theorem quiet_idle {c : Call F} (h : c.IsQuiet) (env : Env F) : Idle e (e.call env c).2 := by
  by_cases query : c.IsQuery
  · obtain same | same | same := e.query_counts query env
    · rw [same]
      exact .refl e
    · rw [same]
      exact ⟨rfl, rfl, rfl, rfl⟩
    · rw [same]
      exact ⟨rfl, rfl, rfl, rfl⟩
  · cases c with
    | queryNearestN | queryRange | detectAnomaly => exact absurd (by trivial) query
    | close => exact ⟨rfl, rfl, rfl, rfl⟩
    | _ => cases h

/-- A call that appended nothing and left the tier alone. -/
theorem step_same {c : Call F} {t : Tier F} (noPass : e.pass c = none)
    (h : ∀ r, e.landing s r c = []) (ht : t = e.tier s) : Tier.Step e env c s t := by
  have push : Tier.Step e env c s _ := .append noPass
  rwa [appended_nil h, Tier.pushAll_nil, ← ht] at push

/-- What no call changes, and the invariant every call keeps. -/
structure CallFrame (e e' : Engine F) : Prop where
  ok : e'.Ok
  shape : e'.cfg.shape = e.cfg.shape
  uuid : e'.uuid = e.uuid
  metadata : e'.backend.cold.metadata = e.backend.cold.metadata
  persists : e'.backend.persists = e.backend.persists

omit [FloatArith F] in
theorem Idle.frame (h : Idle e e') (ok : e.Ok) : CallFrame e e' :=
  ⟨h.ok ok, by rw [h.cfg], h.uuid, by rw [h.backend], by rw [h.backend]⟩

/-- The effect of a call on the engine as a whole. -/
def Effect (e : Engine F) (env : Env F) (c : Call F) (e' : Engine F) : Prop :=
  CallFrame e e' ∧ ∀ s, Tier.Step e env c s (e'.tier s)

theorem Idle.effect {c : Call F} (h : Idle e e') (ok : e.Ok) (noPass : e.pass c = none)
    (hl : ∀ s r, e.landing s r c = []) : Effect e env c e' :=
  ⟨h.frame ok, fun s => step_same noPass (hl s) (h.tier s)⟩

theorem Ingests.effect {c : Call F} (h : Ingests e env c) (ok : e.Ok) (noPass : e.pass c = none) :
    Effect e env c (e.call env c).2 := by
  obtain ⟨htier, hok, hcfg, huuid, hbk⟩ := h.result ok
  refine ⟨⟨hok, by rw [hcfg], huuid, by rw [hbk], by rw [hbk]⟩, fun s => ?_⟩
  rw [htier s]
  exact .append noPass

theorem preallocate_effect (id : CString) (ok : e.Ok) :
    Effect e env (.preallocateSensor id) (e.call env (.preallocateSensor id)).2 := by
  have idle : Effect e env (.preallocateSensor id) e :=
    (Idle.refl e).effect ok rfl fun _ _ => rfl
  simp only [call, withSensor]
  split
  · exact idle
  · simp only [preallocateSensor]
    split
    · exact idle
    · split
      · exact idle
      · rename_i hget
        have att := getOrCreateRing_attached ok hget
        refine ⟨⟨att.ok, by rw [att.cfg], att.uuid, by rw [att.backend], by rw [att.backend]⟩,
          fun s => step_same rfl (fun _ => rfl) (att.tier s)⟩

theorem drop_effect (id : CString) (ok : e.Ok) :
    Effect e env (.dropSensor id) (e.call env (.dropSensor id)).2 := by
  have idle : Effect e env (.dropSensor id) e := (Idle.refl e).effect ok rfl fun _ _ => rfl
  simp only [call, withSensor]
  split
  · exact idle
  · rename_i s hp
    obtain rfl := SensorId.parse_ok hp
    obtain h | ⟨open_, bk, n, m, k, h, rfl⟩ := dropSensor_cases (e := e) s env
    · rw [h]
      exact idle
    · obtain ⟨hne, hself, hmeta, hper⟩ :=
        deleteSensor_blocks (env.storage.deleteSensor s) e.backend s
      rw [h]
      refine ⟨⟨?_, rfl, rfl, hmeta, hper⟩, fun t => ?_⟩
      · intro t r hr
        apply ok t r ?_
        by_cases eq : t = s
        · subst eq
          simp [ring] at hr
        · simpa [ring, AList.lookup_erase_ne eq] using hr
      · by_cases eq : t = s
        · subst eq
          have drop : Tier.Step e env (.dropSensor (some t.bytes)) t _ :=
            .drop rfl (by simp [Call.drops]) open_ (appended_nil fun _ => rfl) _ hself
          simpa [tier, ring] using drop
        · exact step_same rfl (fun _ => rfl)
            (tier_congr (by simp [AList.lookup_erase_ne eq]) (hne t eq))

theorem pass_effect {c : Call F} (h : e.pass c = some (e', w)) (ok : e.Ok)
    (hl : ∀ s r, e.landing s r c = []) : Effect e env c (e.call env c).2 := by
  obtain ⟨hs, hb, hu, hsh, -⟩ := pass_start h
  refine ⟨?_, fun s => ?_⟩
  · have nodup : (env.order e'.sensors.keys).Nodup :=
      (env.order_perm _).nodup_iff.mpr e'.sensors.keys_nodup
    have hp := evictSensors_evicts env w nodup (ok_of_pass h ok)
    rw [(call_of_pass env h).1]
    exact ⟨hp.ok, by rw [hp.frame.cfg, hsh], by rw [hp.frame.uuid, hu],
      by rw [hp.frame.metadata, hb], by rw [hp.frame.persists, hb]⟩
  · obtain ⟨own, hown, hmem⟩ := call_pass_evicts h ok env s
    exact .evict e' w own _ h (appended_nil (hl s)) hown hmem

/-- A call that would run a pass and does not changes nothing. -/
theorem call_of_no_pass {c : Call F} (passes : c.IsPass) (env : Env F) (noPass : e.pass c = none) :
    (e.call env c).2 = e := by
  cases c with
  | flush =>
    have closed : e.closed = true := by simpa [pass] using noPass
    simp only [call, flush, closed, if_true]
  | backgroundPass =>
    have closed : e.closed = true := by simpa [pass] using noPass
    simp only [call, backgroundPass, closed, if_true]
  | maintainSlidingWindow w =>
    simp only [pass] at noPass
    simp only [call, maintainSlidingWindow]
    split
    · rfl
    split
    · rfl
    · rename_i closed checked
      rw [if_neg closed, dif_neg checked] at noPass
      cases noPass
  | _ => cases passes

/-- A call that may run a pass. -/
theorem passing_effect {c : Call F} (passes : c.IsPass) (ok : e.Ok) (env : Env F)
    (hl : ∀ s r, e.landing s r c = []) : Effect e env c (e.call env c).2 := by
  cases h : e.pass c with
  | none =>
    rw [call_of_no_pass passes env h]
    exact (Idle.refl e).effect ok h hl
  | some p => exact pass_effect h ok hl

/-- **The effect of every call.** -/
theorem call_effect (ok : e.Ok) (env : Env F) (c : Call F) : Effect e env c (e.call env c).2 := by
  cases c with
  | preallocateSensor id => exact preallocate_effect id ok
  | append id ts vec dim payload => exact (append_ingests _ _ id ts vec dim payload).effect ok rfl
  | appendBatch id ts vecs count dim payloads =>
    exact (appendBatch_ingests _ _ id ts vecs count dim payloads).effect ok rfl
  | queryNearestN | queryRange | detectAnomaly | close =>
    exact (quiet_idle (by trivial) env).effect ok rfl fun _ _ => rfl
  | dropSensor id => exact drop_effect id ok
  | flush | backgroundPass | maintainSlidingWindow =>
    exact passing_effect (by trivial) ok env fun _ _ => rfl

theorem call_step (ok : e.Ok) (env : Env F) (c : Call F) (s : SensorId) :
    Tier.Step e env c s ((e.call env c).2.tier s) := (call_effect ok env c).2 s

theorem call_frame (ok : e.Ok) (env : Env F) (c : Call F) : CallFrame e (e.call env c).2 :=
  (call_effect ok env c).1

/-- **Runs of calls.** What holds of a sensor's tier and everything appended to
the sensor so far is kept by a run if every step of the tier keeps it. -/
theorem run_tier (Inv : List (Entry F) → Tier F → Prop) {P : Env F → Call F → Prop}
    {sh : RingShape} {persists : Bool}
    (hstep : ∀ (e : Engine F) env c log t', e.cfg.shape = sh → e.backend.persists = persists →
      P env c → Inv log (e.tier s) → Tier.Step e env c s t' →
      Inv (log ++ e.appended env c s) t')
    {steps : List (Env F × Call F)} {log : List (Entry F)} (ok : e.Ok) (hsh : e.cfg.shape = sh)
    (hper : e.backend.persists = persists) (hp : ∀ x ∈ steps, P x.1 x.2)
    (h : Inv log (e.tier s)) :
    Inv (log ++ history steps e s) ((run steps e).tier s) := by
  induction steps generalizing e log with
  | nil => simpa [history, run] using h
  | cons x rest ih =>
    obtain ⟨hx, hrest⟩ := List.forall_mem_cons.mp hp
    have frame := call_frame ok x.1 x.2
    have next := hstep e x.1 x.2 log _ hsh hper hx h (call_step ok x.1 x.2 s)
    have := ih frame.ok (frame.shape.trans hsh) (frame.persists.trans hper) hrest next
    simpa only [history, run, List.append_assoc] using this

theorem run_frame (steps : List (Env F × Call F)) (ok : e.Ok) :
    CallFrame e (run steps e) := by
  induction steps generalizing e with
  | nil => exact (Idle.refl e).frame ok
  | cons x rest ih =>
    have frame := call_frame ok x.1 x.2
    have rest := ih frame.ok
    exact ⟨rest.ok, rest.shape.trans frame.shape, rest.uuid.trans frame.uuid,
      rest.metadata.trans frame.metadata, rest.persists.trans frame.persists⟩

end

end Engine

end ChronosVector
