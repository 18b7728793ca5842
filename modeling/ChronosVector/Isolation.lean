import ChronosVector.BlockBytes
import ChronosVector.Exact
import ChronosVector.Lib.ByteOrder
import ChronosVector.Lib.Runs
import ChronosVector.TwinRuns

/-!
# Isolation of sensors in the cold tier

All sensors share the scratch of the eviction. It only grows, and the header of
a block takes its end timestamp from the scratch's last element, so a block that
is shorter than the scratch names a timestamp of another eviction.

* `GrowVec.reuse`: what one eviction makes of the scratch's timestamps;
* `Ends`: the scratch of a run beside the one that the evictions of all sensors
  but one would have left;
* `Watched`: an engine with the sensor whose eviction wrote the end of the
  scratch last;
* `isolated`: two runs that differ in one sensor's rows persist the same blocks
  of the others, while no block of another takes its end from that sensor.
-/

namespace ChronosVector

variable {F : Type}

/-- Every block that a run hands to `WriteBlock`, in order. -/
def Engine.writesAll [FloatArith F] : List (Env F × Call F) → Engine F → List (Block F)
  | [], _ => []
  | (env, c) :: rest, e => e.writes env c ++ writesAll rest (e.call env c).2

/-- Two runs that register and drop the same sensors iterate over the map in the
same order, however the model lists its keys; another step may use another order. -/
def Env.Steady (env : Env F) : Prop :=
  ∀ l l' : List SensorId, l.Perm l' → env.order l = env.order l'

/-! ## The timestamps of the scratch -/

namespace GrowVec

variable {α : Type} {v u : GrowVec α} {memory n : Nat} {src : Nat → α} {zero : α}

theorem growTo_of_le (h : n ≤ v.size) : v.growTo n zero = v := if_neg (Nat.not_lt.mpr h)

theorem growTo_of_lt (h : v.size < n) :
    v.growTo n zero = ⟨n, fun i => if i < v.size then v.data i else zero⟩ := if_pos h

/-- The first `n` elements overwritten. -/
def fill (v : GrowVec α) (n : Nat) (src : Nat → α) : GrowVec α :=
  { v with data := fun i => if i < n then src i else v.data i }

/-- An eviction of `n` entries: resize, if there is memory at all, and copy, if
there is enough of it for the other vectors of the scratch. -/
def reuse (v : GrowVec α) (memory n : Nat) (zero : α) (src : Nat → α) : GrowVec α :=
  if memory = 0 then v
  else if memory < 4 then v.growTo n zero
  else (v.growTo n zero).fill n src

/-- The eviction writes the last element. -/
def EndWritten (v : GrowVec α) (memory n : Nat) : Prop :=
  0 < n ∧ ((v.size < n ∧ 1 ≤ memory) ∨ (v.size = n ∧ 4 ≤ memory))

instance (v : GrowVec α) (memory n : Nat) : Decidable (v.EndWritten memory n) := by
  unfold EndWritten
  infer_instance

theorem fill_zero (v : GrowVec α) (src : Nat → α) : v.fill 0 src = v := by
  simp [fill]

theorem reuse_zero (v : GrowVec α) (memory : Nat) (zero : α) (src : Nat → α) :
    v.reuse memory 0 zero src = v := by
  simp only [reuse, growTo_of_le (Nat.zero_le v.size), fill_zero, ite_self]

theorem reuse_kept (h : ¬ v.EndWritten memory n) (zero : α) (src : Nat → α) :
    (v.reuse memory n zero src).size = v.size ∧ (v.reuse memory n zero src).back = v.back := by
  unfold reuse
  split
  · exact ⟨rfl, rfl⟩
  rename_i some
  have fits : n ≤ v.size := by
    by_contra longer
    exact h ⟨by omega, .inl ⟨by omega, by omega⟩⟩
  rw [growTo_of_le fits]
  split
  · exact ⟨rfl, rfl⟩
  · refine ⟨rfl, ?_⟩
    have inside : n = 0 ∨ n < v.size := by
      by_contra exact_
      exact h ⟨by omega, .inr ⟨by omega, by omega⟩⟩
    simp only [back, fill]
    rw [if_neg (by omega)]

theorem reuse_written (h : v.EndWritten memory n) (zero : α) (src : Nat → α) :
    (v.reuse memory n zero src).size = n ∧
    (v.reuse memory n zero src).back = if memory < 4 then zero else src (n - 1) := by
  obtain ⟨pos, ⟨grows, enough⟩ | ⟨exactly, enough⟩⟩ := h
  · simp only [reuse, growTo_of_lt grows]
    rw [if_neg (by omega)]
    split
    · refine ⟨rfl, ?_⟩
      simp only [back]
      rw [if_neg (by omega)]
    · refine ⟨rfl, ?_⟩
      simp only [back, fill]
      rw [if_pos (by omega)]
  · simp only [reuse, growTo_of_le (Nat.le_of_eq exactly.symm)]
    rw [if_neg (by omega), if_neg (by omega), if_neg (by omega)]
    refine ⟨exactly, ?_⟩
    simp only [back, fill, exactly]
    rw [if_pos (by omega)]

end GrowVec

/-- `v` is what evictions made of the timestamps, and `u` what the ones of
sensors other than `a` would have made; `last` wrote the end of `v`. -/
structure Ends (a : SensorId) (u v : GrowVec Int64) (last : Option SensorId) : Prop where
  long : u.size ≤ v.size
  other : last ≠ some a → v.size = u.size ∧ v.back = u.back

namespace Ends

variable {a s : SensorId} {u v : GrowVec Int64} {last : Option SensorId} {memory n : Nat}
  {src : Nat → Int64}

theorem start (a : SensorId) (v : GrowVec Int64) (last : Option SensorId) : Ends a v v last :=
  ⟨Nat.le_refl _, fun _ => ⟨rfl, rfl⟩⟩

/-- An eviction of `a`. -/
theorem own (h : Ends a u v last) :
    Ends a u (v.reuse memory n 0 src) (if v.EndWritten memory n then some a else last) := by
  have long := h.long
  split
  · rename_i written
    obtain ⟨size, -⟩ := GrowVec.reuse_written written 0 src
    refine ⟨?_, fun ne => absurd rfl ne⟩
    obtain ⟨-, ⟨grows, -⟩ | ⟨exactly, -⟩⟩ := written <;> omega
  · rename_i kept
    obtain ⟨size, back⟩ := GrowVec.reuse_kept kept 0 src
    rw [← size] at long
    exact ⟨long, fun ne => by rw [size, back]; exact h.other ne⟩

/-- An eviction of another sensor does to `v` what it does to `u`. -/
theorem evict (h : Ends a u v last) :
    Ends a (u.reuse memory n 0 src) (v.reuse memory n 0 src)
      (if v.EndWritten memory n then some s else last) := by
  have long := h.long
  by_cases written : v.EndWritten memory n
  · have written' : u.EndWritten memory n := by
      obtain ⟨pos, ⟨grows, enough⟩ | ⟨exactly, enough⟩⟩ := written
      · exact ⟨pos, .inl ⟨by omega, enough⟩⟩
      · obtain less | same := Nat.lt_or_eq_of_le long
        · exact ⟨pos, .inl ⟨by omega, by omega⟩⟩
        · exact ⟨pos, .inr ⟨by omega, enough⟩⟩
    obtain ⟨size, back⟩ := GrowVec.reuse_written written 0 src
    obtain ⟨size', back'⟩ := GrowVec.reuse_written written' 0 src
    exact ⟨Nat.le_of_eq (size'.trans size.symm),
      fun _ => ⟨size.trans size'.symm, back.trans back'.symm⟩⟩
  · rw [if_neg written]
    obtain ⟨size, back⟩ := GrowVec.reuse_kept written 0 src
    by_cases written' : u.EndWritten memory n
    · obtain ⟨size', -⟩ := GrowVec.reuse_written written' 0 src
      have fits : n ≤ v.size := by
        by_contra longer
        obtain ⟨pos, ⟨-, enough⟩ | ⟨-, enough⟩⟩ := written'
        · exact written ⟨pos, .inl ⟨by omega, enough⟩⟩
        · exact written ⟨pos, .inl ⟨by omega, by omega⟩⟩
      refine ⟨by omega, fun other => absurd ?_ written⟩
      simpa only [GrowVec.EndWritten, (h.other other).1] using written'
    · obtain ⟨size', back'⟩ := GrowVec.reuse_kept written' 0 src
      refine ⟨by omega, fun other => ?_⟩
      rw [size, size', back, back']
      exact h.other other

/-- The end that a block of another sensor gets is not `a`'s. -/
theorem end_of_block (h : Ends a u v last) (ne : s ≠ a) (pos : 0 < n) (enough : 4 ≤ memory)
    (clean : v.size ≤ n ∨ last ≠ some a) :
    (v.reuse memory n 0 src).back = (u.reuse memory n 0 src).back := by
  apply ((h.evict (s := s)).other ?_).2
  split
  · exact fun same => ne (Option.some.inj same)
  · rename_i kept
    apply clean.resolve_left
    intro fits
    obtain less | same := Nat.lt_or_eq_of_le fits
    · exact kept ⟨pos, .inl ⟨less, by omega⟩⟩
    · exact kept ⟨pos, .inr ⟨same, enough⟩⟩

end Ends

/-! ## One eviction -/

/-- The timestamps that `EvictSensor` copies to the scratch. -/
def SensorSlot.dueTimestamps (slot : SensorSlot F) (i : Nat) : Int64 :=
  match slot.ring with
  | none => 0
  | some r => r.timestampAt (r.snapshot.1 + i)

theorem EvictScratch.copyRows_timestamps (sc : EvictScratch F) (r : SensorRing F) (b n : Nat) :
    (sc.copyRows r b n).timestamps = sc.timestamps.fill n fun i => r.timestampAt (b + i) := by
  induction n with
  | zero => exact (GrowVec.fill_zero _ _).symm
  | succ n ih =>
    simp only [copyRows_succ, copyRow, ih, GrowVec.fill, GrowVec.mk.injEq, true_and]
    funext i
    by_cases eq : i = n
    · subst eq
      rw [Function.update_self, if_pos (Nat.lt_succ_self i)]
    · rw [Function.update_of_ne eq]
      by_cases lt : i < n
      · rw [if_pos lt, if_pos (by omega)]
      · rw [if_neg lt, if_neg (by omega)]

/-- The scratch after the resizes and the copy. -/
theorem EvictScratch.copied_timestamps [FloatArith F] (sc : EvictScratch F) (r : SensorRing F)
    (b n : Nat) {memory : Nat} (enough : 4 ≤ memory) :
    ((sc.reserve r.shape n memory).copyRows r b n).timestamps =
      sc.timestamps.reuse memory n 0 fun i => r.timestampAt (b + i) := by
  simp only [copyRows_timestamps, reserve, GrowVec.reuse]
  rw [if_pos (by omega), if_neg (by omega), if_neg (by omega)]

/-- Blocks copied from the same entries have the same rows and the same start. -/
theorem EvictScratch.block_rows [FloatArith F] (sc sc' : EvictScratch F) {r : SensorRing F}
    {b n : Nat} (pos : 0 < n) (holds : ∀ i < n, sc.Holds r (b + i) i)
    (holds' : ∀ i < n, sc'.Holds r (b + i) i) (s : SensorId) (id : Nat) :
    (sc'.block r s id n).stored.rows = (sc.block r s id n).stored.rows ∧
      sc'.timestamps.data 0 = sc.timestamps.data 0 := by
  have count : (UInt32.ofNat n).toNat ≤ n := by
    rw [UInt32.toNat_ofNat']
    exact Nat.mod_le _ _
  constructor
  · apply List.map_congr_left
    intro i hi
    have inside : i < n := Nat.lt_of_lt_of_le (List.mem_range.mp hi) count
    rw [(holds i inside).row, (holds' i inside).row]
  · rw [(holds 0 pos).ts, (holds' 0 pos).ts]

/-- Through different scratch, they are alike if their end timestamps are. -/
theorem EvictScratch.block_alike [FloatArith F] (sc sc' : EvictScratch F) {r : SensorRing F}
    {b n : Nat} (pos : 0 < n) (holds : ∀ i < n, sc.Holds r (b + i) i)
    (holds' : ∀ i < n, sc'.Holds r (b + i) i) (ends : sc'.timestamps.back = sc.timestamps.back)
    (s : SensorId) (id : Nat) : (sc.block r s id n).Alike (sc'.block r s id n) := by
  obtain ⟨rows, start⟩ := block_rows sc sc' pos holds holds' s id
  refine ⟨rfl, rfl, rfl, ?_, ?_, ?_⟩
  · simp only [block]
    split <;> rfl
  · simp only [block]
    split <;> rfl
  · simp only [Block.stored, StoredBlock.mk.injEq] at rows ⊢
    exact ⟨start, ends, rfl, rfl, rfl, rows⟩

namespace Engine

variable [FloatArith F] {e : Engine F} {env : Env F} {s : SensorId} {slot : SensorSlot F}
  {w : Int64}

/-- What an eviction does to the timestamps of the scratch. -/
theorem evictSensor_timestamps (ok : ∀ r, slot.ring = some r → r.Ok) :
    (e.evictSensor env s slot w).1.evictScratch.timestamps =
      e.evictScratch.timestamps.reuse (env.scratchMemory s) (slot.due w) 0 slot.dueTimestamps := by
  obtain none | pos := Nat.eq_zero_or_pos (slot.due w)
  · rw [evictSensor_nothing none ok, none, GrowVec.reuse_zero]
  · obtain ⟨ring, next⟩ := slot
    cases ring with
    | none => cases pos
    | some r =>
      rw [evictSensor_due (ok r rfl) rfl pos]
      by_cases starved : env.scratchMemory s < 4
      · rw [if_pos starved]
        simp only [EvictScratch.reserve, GrowVec.reuse, starved, if_true]
        by_cases any : env.scratchMemory s = 0
        · rw [if_pos any, if_neg (by omega)]
        · rw [if_neg any, if_pos (by omega)]
      · rw [if_neg starved]
        exact EvictScratch.copied_timestamps _ r _ _ (by omega)

end Engine

/-- Writing alike blocks. -/
theorem Backend.SameBut.writeBlock [FloatArith F] {a : SensorId} {bk bk' : Backend F}
    (h : bk.SameBut a bk') {b b' : Block F} (alike : b.Alike b') (complete : b.Complete)
    (complete' : b'.Complete) (status : ErrorCode) :
    (bk'.writeBlock status b').1 = (bk.writeBlock status b).1 ∧
    (bk.writeBlock status b).2.SameBut a (bk'.writeBlock status b').2 := by
  obtain ⟨rfl, rfl⟩ | ⟨db, db', rfl, rfl⟩ := Backend.both_of_persists h.persists
  · exact ⟨rfl, h⟩
  · simp only [Backend.writeBlock, complete, complete', not_true, if_false]
    split
    · refine ⟨rfl, rfl, fun s ne => ?_⟩
      simp only [Backend.cold, alike.sensor, alike.id, alike.stored]
      by_cases eq : s = b.sensorId
      · subst eq
        rw [ColdTier.blocks_put_self, ColdTier.blocks_put_self]
        exact congrArg (fun m : SortedMap Nat (StoredBlock F) => m.put b.blockId b.stored)
          (h.blocks b.sensorId ne)
      · rw [ColdTier.blocks_put_ne _ eq, ColdTier.blocks_put_ne _ eq]
        exact h.blocks s ne
    · exact ⟨rfl, h⟩

namespace Engine.Twin

variable [FloatArith F] {a s : SensorId} {e e' : Engine F} {env : Env F} {slot : SensorSlot F}
  {w : Int64}

/-- An eviction of `a` is invisible in a twin. -/
theorem evictOwn (ok : e.Ok) (found : e.sensors.lookup a = some slot) :
    e.Twin a (e.evictSensor env a slot w).1 := by
  have rings (r : SensorRing F) (hr : slot.ring = some r) : r.Ok :=
    (ok a r ((ring_eq found).trans hr)).2
  obtain none | pos := Nat.eq_zero_or_pos (slot.due w)
  · rw [evictSensor_nothing none rings]
    exact refl a e
  · obtain ⟨ring, next⟩ := slot
    cases ring with
    | none => cases pos
    | some r =>
      rw [evictSensor_due (rings r rfl) rfl pos]
      split
      · exact ⟨rfl, rfl, fun _ _ => rfl, rfl, .refl a _⟩
      · simp only [persistEvicted]
        refine ⟨rfl, rfl, fun t ne => lookup_setSlot_ne ne _, ?_, ?_, fun t ne => ?_⟩
        · have self := lookup_setSlot_self (e := e) (s := a)
          simp only [self, found, Option.map_some, Option.isSome_some]
        · cases e.backend with
          | null => rfl
          | rocksdb db =>
            simp only [Backend.writeBlock]
            split
            · rfl
            · split <;> rfl
        · exact Backend.writeBlock_blocks_ne (by exact ne) _ _

/-- An eviction of another sensor, in both engines. -/
theorem evictOther (h : e.Twin a e') (env : Env F) (s : SensorId) (w : Int64)
    (rings : ∀ r, slot.ring = some r → r.Ok)
    (ends : 0 < slot.due w → 4 ≤ env.scratchMemory s →
      (e'.evictScratch.timestamps.reuse (env.scratchMemory s) (slot.due w) 0
        slot.dueTimestamps).back =
      (e.evictScratch.timestamps.reuse (env.scratchMemory s) (slot.due w) 0
        slot.dueTimestamps).back) :
    (e.evictSensor env s slot w).1.Twin a (e'.evictSensor env s slot w).1 ∧
    List.Forall₂ Block.Alike (e.evictSensor env s slot w).2.toList
      (e'.evictSensor env s slot w).2.toList := by
  obtain none | pos := Nat.eq_zero_or_pos (slot.due w)
  · rw [evictSensor_nothing none rings, evictSensor_nothing none rings]
    exact ⟨h, .nil⟩
  obtain ⟨ring, next⟩ := slot
  cases ring with
  | none => cases pos
  | some r =>
    rw [evictSensor_due (rings r rfl) rfl pos, evictSensor_due (rings r rfl) rfl pos]
    by_cases starved : env.scratchMemory s < 4
    · rw [if_pos starved, if_pos starved]
      exact ⟨⟨h.cfg, h.closed, h.slots, h.own, h.backend⟩, .nil⟩
    · rw [if_neg starved, if_neg starved]
      have enough : 4 ≤ env.scratchMemory s := Nat.not_lt.mp starved
      generalize count : SensorSlot.due ⟨some r, next⟩ w = n at pos ends
      have alike := EvictScratch.block_alike
        ((e.evictScratch.reserve r.shape n (env.scratchMemory s)).copyRows r r.snapshot.1 n)
        ((e'.evictScratch.reserve r.shape n (env.scratchMemory s)).copyRows r r.snapshot.1 n)
        pos (fun i hi => EvictScratch.copyRows_holds hi) (fun i hi => EvictScratch.copyRows_holds hi)
        (by
          rw [EvictScratch.copied_timestamps _ r _ _ enough,
            EvictScratch.copied_timestamps _ r _ _ enough]
          exact ends pos enough) s next
      obtain ⟨code, backend⟩ := h.backend.writeBlock alike (EvictScratch.block_complete s next n)
        (EvictScratch.block_complete s next n) (env.storage.writeBlock s)
      simp only [persistEvicted, Nat.add_sub_cancel_left, code]
      have slots (slot : SensorSlot F) : (e.setSlot s slot).Twin a (e'.setSlot s slot) :=
        h.setSlot rfl fun _ => rfl
      exact ⟨⟨h.cfg, h.closed, (slots _).slots, (slots _).own, backend⟩, .cons alike .nil⟩

end Engine.Twin

/-! ## Whole runs -/

/-- An engine, the sensor whose eviction last wrote the end of the scratch's
timestamps, and every block handed to `WriteBlock` so far. -/
structure Watched (F : Type) where
  engine : Engine F
  last : Option SensorId
  handed : List (Block F)

namespace Watched

def start (e : Engine F) : Watched F := ⟨e, none, []⟩

/-- The blocks of the other sensors. -/
def others (a : SensorId) (x : Watched F) : List (Block F) :=
  x.handed.filter fun b => b.sensorId ≠ a

variable [FloatArith F]

/-- One turn of the loop of `EvictOnce`. -/
def evict (env : Env F) (w : Int64) (x : Watched F) (s : SensorId) : Watched F :=
  match x.engine.sensors.lookup s with
  | none => x
  | some slot =>
    let p := x.engine.evictSensor env s slot w
    { engine := p.1
      last :=
        if x.engine.evictScratch.timestamps.EndWritten (env.scratchMemory s) (slot.due w) then some s
        else x.last
      handed := x.handed ++ p.2.toList }

def call (x : Watched F) (step : Env F × Call F) : Watched F :=
  match x.engine.pass step.2 with
  | none => { x with engine := (x.engine.call step.1 step.2).2 }
  | some (e', w) => (step.1.order e'.sensors.keys).foldl (evict step.1 w) { x with engine := e' }

/-- A block of `s` does not get its end timestamp from an eviction of `a`: the
scratch is no longer than the block, or another sensor wrote its end. -/
def EndsApart (a : SensorId) (env : Env F) (w : Int64) (x : Watched F) (s : SensorId) : Prop :=
  match x.engine.sensors.lookup s with
  | none => True
  | some slot =>
    s ≠ a → 0 < slot.due w → 4 ≤ env.scratchMemory s →
      x.engine.evictScratch.timestamps.size ≤ slot.due w ∨ x.last ≠ some a

instance (a : SensorId) (env : Env F) (w : Int64) (x : Watched F) (s : SensorId) :
    Decidable (x.EndsApart a env w s) := by
  unfold EndsApart
  split <;> infer_instance

/-- No block of the call's pass does. -/
def Apart (a : SensorId) (x : Watched F) (step : Env F × Call F) : Prop :=
  match x.engine.pass step.2 with
  | none => True
  | some (e', w) =>
    Runs.Each (evict step.1 w) (EndsApart a step.1 w) { x with engine := e' }
      (step.1.order e'.sensors.keys)

instance (a : SensorId) (x : Watched F) (step : Env F × Call F) : Decidable (x.Apart a step) := by
  unfold Apart
  split <;> infer_instance

variable {a s : SensorId} {x x' : Watched F} {env : Env F} {w : Int64} {slot : SensorSlot F}

theorem evict_unknown (unknown : x.engine.sensors.lookup s = none) : x.evict env w s = x := by
  simp only [evict, unknown]

theorem evict_known (found : x.engine.sensors.lookup s = some slot) : x.evict env w s =
    { engine := (x.engine.evictSensor env s slot w).1
      last :=
        if x.engine.evictScratch.timestamps.EndWritten (env.scratchMemory s) (slot.due w) then some s
        else x.last
      handed := x.handed ++ (x.engine.evictSensor env s slot w).2.toList } := by
  simp only [evict, found]

/-- What the loop does to the engine and to the list of blocks. -/
theorem foldl_evict (env : Env F) (w : Int64) (x : Watched F) (ids : List SensorId) :
    (ids.foldl (evict env w) x).engine = (Engine.evictSensors env w ids x.engine).1 ∧
    (ids.foldl (evict env w) x).handed = x.handed ++ (Engine.evictSensors env w ids x.engine).2 := by
  induction ids generalizing x with
  | nil => exact ⟨rfl, (List.append_nil _).symm⟩
  | cons s rest ih =>
    rw [List.foldl_cons]
    obtain ⟨engine, handed⟩ := ih (x.evict env w s)
    rw [engine, handed]
    cases found : x.engine.sensors.lookup s with
    | none => simp only [evict_unknown found, Engine.evictSensors, found, and_self]
    | some slot =>
      simp only [evict_known found, Engine.evictSensors, found, List.append_assoc, and_self]

theorem call_spec (x : Watched F) (step : Env F × Call F) :
    (x.call step).engine = (x.engine.call step.1 step.2).2 ∧
    (x.call step).handed = x.handed ++ x.engine.writes step.1 step.2 := by
  simp only [call]
  cases pass : x.engine.pass step.2 with
  | none => simp only [Engine.writes, pass, List.append_nil, and_self]
  | some p =>
    obtain ⟨e', w⟩ := p
    obtain ⟨after, writes⟩ := Engine.call_of_pass step.1 pass
    obtain ⟨engine, handed⟩ :=
      foldl_evict step.1 w { x with engine := e' }
        (step.1.order e'.sensors.keys)
    exact ⟨engine.trans after.symm, handed.trans (by rw [writes])⟩

/-- The two runs so far. -/
structure Twins (a : SensorId) (x x' : Watched F) : Prop where
  engine : x.engine.Twin a x'.engine
  ok : x.engine.Ok
  ok' : x'.engine.Ok
  ends : ∃ u, Ends a u x.engine.evictScratch.timestamps x.last ∧
    Ends a u x'.engine.evictScratch.timestamps x'.last
  handed : List.Forall₂ Block.Alike (x.others a) (x'.others a)

theorem twins_start {e : Engine F} (ok : e.Ok) (a : SensorId) : Twins a (start e) (start e) :=
  ⟨.refl a e, ok, ok, ⟨_, .start a _ _, .start a _ _⟩, .nil⟩

/-- What one turn does to the engine, to the end of the scratch and to the list. -/
theorem evict_frame (env : Env F) (w : Int64) (ok : x.engine.Ok) (found : x.engine.sensors.lookup s = some slot) :
    (x.evict env w s).engine.Ok ∧
    (x.evict env w s).engine.evictScratch.timestamps =
      x.engine.evictScratch.timestamps.reuse (env.scratchMemory s) (slot.due w) 0
        slot.dueTimestamps ∧
    ∀ b ∈ (x.engine.evictSensor env s slot w).2.toList, b.sensorId = s := by
  obtain ⟨evicts, -, ok', -⟩ := Engine.evictSensor_evicts env w ok found
  rw [evict_known found]
  refine ⟨ok', Engine.evictSensor_timestamps fun r hr => ?_, fun b hb => evicts.sensor hb⟩
  exact (ok s r ((Engine.ring_eq found).trans hr)).2

/-- A turn of `a` is invisible to the others. -/
theorem Twins.evictOwn (h : Twins a x x') : Twins a x (x'.evict env w a) := by
  cases found : x'.engine.sensors.lookup a with
  | none =>
    rw [evict_unknown found]
    exact h
  | some slot =>
    obtain ⟨ok, timestamps, own⟩ := evict_frame env w h.ok' found
    obtain ⟨u, ends, ends'⟩ := h.ends
    rw [evict_known found] at ok timestamps ⊢
    refine ⟨h.engine.trans (.evictOwn h.ok' found), h.ok, ok, ⟨u, ends, ?_⟩, ?_⟩
    · rw [timestamps]
      exact ends'.own
    · have hidden : (x'.engine.evictSensor env a slot w).2.toList.filter
          (fun b => b.sensorId ≠ a) = [] := by
        apply List.filter_eq_nil_iff.mpr
        intro b hb
        simp only [own b hb, ne_eq, not_true, decide_false, Bool.false_eq_true, not_false_eq_true]
      simp only [others, List.filter_append, hidden, List.append_nil]
      exact h.handed

theorem Twins.symm (h : Twins a x x') : Twins a x' x := by
  obtain ⟨u, ends, ends'⟩ := h.ends
  exact ⟨h.engine.symm, h.ok', h.ok, ⟨u, ends', ends⟩, h.handed.flip.imp fun _ _ alike => alike.symm⟩

/-- **One turn** of the loop. -/
theorem Twins.evict (h : Twins a x x') (apart : x.EndsApart a env w s)
    (apart' : x'.EndsApart a env w s) : Twins a (x.evict env w s) (x'.evict env w s) := by
  by_cases eq : s = a
  · subst eq
    exact h.evictOwn.symm.evictOwn.symm
  obtain ⟨none, none'⟩ | ⟨slot, slot', found, found', -, same⟩ := h.engine.lookup s
  · rw [evict_unknown none, evict_unknown none']
    exact h
  rw [same eq] at found'
  obtain ⟨ok, timestamps, own⟩ := evict_frame env w h.ok found
  obtain ⟨ok', timestamps', own'⟩ := evict_frame env w h.ok' found'
  obtain ⟨u, ends, ends'⟩ := h.ends
  have rings (r : SensorRing F) (hr : slot.ring = some r) : r.Ok :=
    (h.ok s r ((Engine.ring_eq found).trans hr)).2
  simp only [EndsApart, found, found'] at apart apart'
  obtain ⟨twin, alike⟩ := h.engine.evictOther env s w rings (by
    intro pos enough
    rw [ends.end_of_block eq pos enough (apart eq pos enough),
      ends'.end_of_block eq pos enough (apart' eq pos enough)])
  rw [evict_known found] at ok timestamps ⊢
  rw [evict_known found'] at ok' timestamps' ⊢
  let u' := u.reuse (env.scratchMemory s) (slot.due w) 0 slot.dueTimestamps
  refine ⟨twin, ok, ok', ⟨u', ?_, ?_⟩, ?_⟩
  · rw [timestamps]
    exact ends.evict
  · rw [timestamps']
    exact ends'.evict
  · have seen (bs : List (Block F)) (hb : ∀ b ∈ bs, b.sensorId = s) :
        bs.filter (fun b => b.sensorId ≠ a) = bs := by
      apply List.filter_eq_self.mpr
      intro b mem
      simpa only [hb b mem, decide_eq_true_eq] using eq
    simp only [others, List.filter_append, seen _ own, seen _ own']
    exact List.rel_append h.handed alike

theorem twins_turns {ids : List SensorId} (h : Twins a x x')
    (apart : Runs.Each (evict env w) (EndsApart a env w) x ids)
    (apart' : Runs.Each (evict env w) (EndsApart a env w) x' ids) :
    Twins a (ids.foldl (evict env w) x) (ids.foldl (evict env w) x') := by
  apply Runs.foldl_related (L := fun s s' => s' = s) (R := Twins a) ?_ h
    (List.forall₂_same.mpr fun _ _ => rfl) apart apart'
  rintro x x' s _ h rfl apart apart'
  exact h.evict apart apart'

/-- **One call.** -/
theorem Twins.call (h : Twins a x x') {c c' : Call F} (steady : env.Steady)
    (same : c.SameBut a c') (apart : x.Apart a (env, c)) (apart' : x'.Apart a (env, c')) :
    Twins a (x.call (env, c)) (x'.call (env, c')) := by
  obtain ⟨u, ends, ends'⟩ := h.ends
  obtain ⟨none, none'⟩ | ⟨e, e', w, pass, pass', twin, scratch, scratch'⟩ := h.engine.pass same
  · have frame := Engine.call_frame h.ok env c
    have frame' := Engine.call_frame h.ok' env c'
    simp only [Watched.call, none, none']
    refine ⟨h.engine.call same none, frame.ok, frame'.ok, ⟨u, ?_, ?_⟩, h.handed⟩
    · rw [Engine.call_scratch env none]
      exact ends
    · rw [Engine.call_scratch env none']
      exact ends'
  · simp only [Watched.Apart, pass] at apart
    simp only [Watched.Apart, pass'] at apart'
    simp only [Watched.call, pass, pass']
    rw [← steady _ _ twin.keys] at apart' ⊢
    apply twins_turns ?_ apart apart'
    refine ⟨twin, Engine.ok_of_pass pass h.ok, Engine.ok_of_pass pass' h.ok', ⟨u, ?_, ?_⟩, h.handed⟩
    · rw [scratch]
      exact ends
    · rw [scratch']
      exact ends'

/-- The run of a list of calls, watched. -/
def run (steps : List (Env F × Call F)) (e : Engine F) : Watched F := steps.foldl call (start e)

theorem foldl_call (steps : List (Env F × Call F)) (x : Watched F) :
    (steps.foldl call x).engine = Engine.run steps x.engine ∧
    (steps.foldl call x).handed = x.handed ++ Engine.writesAll steps x.engine := by
  induction steps generalizing x with
  | nil => exact ⟨rfl, (List.append_nil _).symm⟩
  | cons step rest ih =>
    obtain ⟨engine, handed⟩ := call_spec x step
    obtain ⟨engine', handed'⟩ := ih (x.call step)
    rw [List.foldl_cons, engine', handed', engine, handed, List.append_assoc]
    exact ⟨rfl, rfl⟩

/-- Watching changes nothing. -/
theorem run_spec (steps : List (Env F × Call F)) (e : Engine F) :
    (run steps e).engine = Engine.run steps e ∧ (run steps e).handed = Engine.writesAll steps e :=
  foldl_call steps (start e)

/-- Along the run, no block of another sensor takes its end from `a`. -/
def AlwaysApart (a : SensorId) (steps : List (Env F × Call F)) (e : Engine F) : Prop :=
  Runs.Each call (Apart a) (start e) steps

instance (a : SensorId) (steps : List (Env F × Call F)) (e : Engine F) :
    Decidable (AlwaysApart a steps e) := by
  unfold AlwaysApart
  infer_instance

end Watched

/-- The same operations in the same environment, but for the rows appended to `a`. -/
def SameRun [FloatArith F] (a : SensorId) (steps steps' : List (Env F × Call F)) : Prop :=
  List.Forall₂ (fun p p' => p.1.Steady ∧ p'.1 = p.1 ∧ p.2.SameBut a p'.2) steps steps'

/-- What a run handed to `WriteBlock` for other sensors than `a`: the sensor, the
block id and the bytes. -/
def Engine.bytesBut [FloatArith F] (bits : F → UInt32) (a : SensorId)
    (steps : List (Env F × Call F)) (e : Engine F) : List (SensorId × Nat × List UInt8) :=
  ((writesAll steps e).filter fun b => b.sensorId ≠ a).map fun b =>
    (b.sensorId, b.blockId, b.bytes bits)

theorem bytes_congr [FloatArith F] {bs bs' : List (Block F)} (bits : F → UInt32)
    (alike : List.Forall₂ Block.Alike bs bs') :
    bs'.map (fun b => (b.sensorId, b.blockId, b.bytes bits)) =
      bs.map fun b => (b.sensorId, b.blockId, b.bytes bits) := by
  induction alike with
  | nil => rfl
  | @cons b b' bs bs' first _ ih =>
    rw [List.map_cons, List.map_cons, ih, first.sensor, first.id, Block.bytes_alike first]

theorem run_twins [FloatArith F] {a : SensorId} {e : Engine F} (ok : e.Ok)
    {steps steps' : List (Env F × Call F)} (same : SameRun a steps steps')
    (apart : Watched.AlwaysApart a steps e) (apart' : Watched.AlwaysApart a steps' e) :
    Watched.Twins a (Watched.run steps e) (Watched.run steps' e) := by
  apply Runs.foldl_related (R := Watched.Twins a) ?_ (Watched.twins_start ok a) same apart apart'
  rintro x x' ⟨env, c⟩ ⟨env', c'⟩ h ⟨steady, rfl, sameBut⟩ apart apart'
  exact h.call steady sameBut apart apart'

/-- **Isolation.** Two runs that differ in the rows of one sensor write the same
bytes for every other sensor and leave it the same blocks, while no block of
another sensor takes its end timestamp from the one. -/
theorem isolated [FloatArith F] {a : SensorId} {e : Engine F} (ok : e.Ok)
    {steps steps' : List (Env F × Call F)} (same : SameRun a steps steps')
    (apart : Watched.AlwaysApart a steps e) (apart' : Watched.AlwaysApart a steps' e)
    (bits : F → UInt32) :
    Engine.bytesBut bits a steps' e = Engine.bytesBut bits a steps e ∧
    ∀ s, s ≠ a → (Engine.run steps' e).backend.cold.blocks s =
      (Engine.run steps e).backend.cold.blocks s := by
  have twins := run_twins ok same apart apart'
  obtain ⟨engine, handed⟩ := Watched.run_spec steps e
  obtain ⟨engine', handed'⟩ := Watched.run_spec steps' e
  refine ⟨?_, fun s ne => ?_⟩
  · have alike := twins.handed
    rw [Watched.others, Watched.others, handed, handed'] at alike
    exact bytes_congr bits alike
  · have blocks := twins.engine.backend.blocks s ne
    rwa [engine, engine'] at blocks

/-- The calm environment, whose map iterates in byte order. -/
def Env.ordered (now : Int64) : Env ℚ :=
  { Env.calm ℚ now with
    order := List.insertionSort fun s t => s.bytes ≤ t.bytes
    order_perm := List.perm_insertionSort _ }

theorem Env.ordered_steady (now : Int64) : (Env.ordered now).Steady := by
  intro l l' perm
  have total : Std.Total fun s t : SensorId => s.bytes ≤ t.bytes := ⟨fun s t => le_total _ _⟩
  have trans : IsTrans SensorId fun s t => s.bytes ≤ t.bytes := ⟨fun s t u => le_trans⟩
  have sorted := List.pairwise_insertionSort (fun s t : SensorId => s.bytes ≤ t.bytes) l
  have sorted' := List.pairwise_insertionSort (fun s t : SensorId => s.bytes ≤ t.bytes) l'
  apply List.Perm.eq_of_pairwise ?_ sorted sorted'
  · exact ((List.perm_insertionSort _ l).trans perm).trans (List.perm_insertionSort _ l').symm
  · exact fun s t _ _ le ge => SensorId.ext (le_antisymm le ge)

/-- Two rows of `sensorA`, of which the second is at `ts`, and later one of
`sensorB`; each sensor flushed. -/
def longThenShort (ts : Int64) : List (Env ℚ × Call ℚ) :=
  [.appendBatch (some sensorA.bytes) (some fun i => if i = 0 then 1 else ts) (some fun _ => 1) 2 1
      none, .flush, .append (some sensorB.bytes) 3 (some fun _ => 1) 1 none, .flush].map
    fun c => (.ordered 0, c)

theorem longThenShort_same (ts ts' : Int64) :
    SameRun sensorA (longThenShort ts) (longThenShort ts') := by
  have steady := Env.ordered_steady 0
  exact .cons ⟨steady, rfl, .appendBatch _ _ _ _ _ _ _ _⟩ (.cons ⟨steady, rfl, .same _⟩
    (.cons ⟨steady, rfl, .same _⟩ (.cons ⟨steady, rfl, .same _⟩ .nil)))

/-- The block of `sensorB` ends at the timestamp that `sensorA` left behind. -/
theorem end_leaks :
    ¬ ∀ (e : Engine ℚ) (a : SensorId) (steps steps' : List (Env ℚ × Call ℚ)), Engine.Reachable e →
      e.cfg.maxSensors = 0 → SameRun a steps steps' →
      ∀ s, s ≠ a → (Engine.run steps' e).backend.cold.blocks s =
        (Engine.run steps e).backend.cold.blocks s := by
  intro h
  have blocks := h smallEngine sensorA _ _ (.created (smallEngine_created 0)) rfl
    (longThenShort_same 5 9) sensorB (by decide)
  have ends := congrArg (fun m : SortedMap Nat (StoredBlock ℚ) => m.values.map
    StoredBlock.tEndMs) blocks
  revert ends
  decide +kernel

/-- One row of each sensor: every block is as long as the scratch. -/
def shortThenShort (ts : Int64) : List (Env ℚ × Call ℚ) :=
  [.append (some sensorA.bytes) ts (some fun _ => 1) 1 none,
    .append (some sensorB.bytes) 3 (some fun _ => 1) 1 none, .flush].map fun c => (.ordered 0, c)

/-- A representation for whole numbers. -/
def numBits (x : ℚ) : UInt32 := .ofNat x.num.toNat

theorem isolated_short :
    Engine.bytesBut numBits sensorA (shortThenShort 9) smallEngine =
      Engine.bytesBut numBits sensorA (shortThenShort 5) smallEngine ∧
    ∀ s, s ≠ sensorA → (Engine.run (shortThenShort 9) smallEngine).backend.cold.blocks s =
      (Engine.run (shortThenShort 5) smallEngine).backend.cold.blocks s := by
  have steady := Env.ordered_steady 0
  apply isolated (Engine.reachable_ok (.created (smallEngine_created 0))) ?_ ?_ ?_ numBits
  · exact .cons ⟨steady, rfl, .append _ _ _ _ _ _ _⟩ (.cons ⟨steady, rfl, .same _⟩
      (.cons ⟨steady, rfl, .same _⟩ .nil))
  · decide +kernel
  · decide +kernel

end ChronosVector
