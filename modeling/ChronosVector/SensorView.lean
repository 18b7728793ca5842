import ChronosVector.DroppedSensor
import ChronosVector.EvictionRace

/-!
# One sensor among the threads

What the machine of `Threads` keeps of one sensor, and what a step can do to it.

* `View`: slot, ring number, drops, blocks and appended rows of a sensor, with
  the scratch that passes share;
* `Settled`: the passes at the sensor get their memory, and their writes
  succeed, uncut, while nobody is about to delete its blocks;
* `ViewStep`, `Step.view`: the changes of a view, one case each.
-/

namespace ChronosVector

variable {F : Type}

structure View (F : Type) where
  slot : Option (SensorSlot F)
  blocks : SortedMap Nat (StoredBlock F)
  attached : Nat
  drops : Nat
  rows : Appended F → Prop
  scratch : EvictScratch F

def View.ptr (v : View F) (s : SensorId) : RingPtr := ⟨s, v.attached, v.drops⟩

/-- The view after an append to the ring `r`. -/
def View.store [FloatArith F] (v : View F) (s : SensorId) (r : SensorRing F) (next dim : Nat)
    (row : Engine.BatchRow F) : View F :=
  { v with
    slot := some ⟨some (r.ingest row.ts row.vec dim row.payload), next⟩
    rows := fun x => v.rows x ∧ ¬ x.Lost (v.ptr s) r ∨
      x = ⟨v.ptr s, r.head, (r.ingested row.ts row.vec dim row.payload).toRow⟩ }

namespace Threads

def view (c : Threads F) (s : SensorId) : View F where
  slot := c.engine.sensors.lookup s
  blocks := c.engine.backend.cold.blocks s
  attached := c.attached s
  drops := c.drops s
  rows := fun x => x ∈ c.appended ∧ x.ring.sensor = s
  scratch := c.engine.evictScratch

structure Settled [FloatArith F] (s : SensorId) (c : Threads F) (x : Turn F) : Prop where
  memory : ∀ p b n, c.pc x.thread = .snapped p s b n → 4 ≤ x.env.scratchMemory s
  written : ∀ p b n, c.pc x.thread = .moved p s b n → x.env.storage.writeBlock s = .ok
  whole : ∀ p b n, c.pc x.thread = .moved p s b n → n - b < 2 ^ 32
  alone : ∀ p b n, c.pc x.thread = .moved p s b n → ∀ u, (c.pc u).dropping ≠ some s

/-- What a step of thread `t` does to the view `v` of `s`. -/
inductive ViewStep [FloatArith F] (s : SensorId) (c : Threads F) (t : Nat) (v : View F) :
    View F → Prop
  | same (stays : ∀ p b n, c.pc t ≠ .moved p s b n) : ViewStep s c t v v
  | erase (at_ : c.pc t = .idle) (free : c.passOwner = none) :
    ViewStep s c t v { v with slot := none, drops := v.drops + 1 }
  | attach {rows mem next} (at_ : c.pc t = .inserting s rows) (free : c.passOwner = none)
    (bare : v.slot = some ⟨none, next⟩ ∨ v.slot = none ∧ next = 0) :
    ViewStep s c t v
      { v with
        slot := some ⟨some (.new c.engine.cfg.shape mem), next⟩
        attached := v.attached + 1 }
  | store {p rows count r next dim} {row : Engine.BatchRow F}
    (at_ : c.pc t = .storing p rows count) (slot : v.slot = some ⟨some r, next⟩) :
    ViewStep s c t v (v.store s r next dim row)
  | delete (at_ : c.pc t = .deleting s) : ViewStep s c t v { v with blocks := .empty }
  | reserve {p s' b n} (sc : EvictScratch F) (at_ : c.pc t = .snapped p s' b n) (other : s' ≠ s) :
    ViewStep s c t v { v with scratch := sc }
  | copy {p b n r next} (at_ : c.pc t = .snapped p s b n) (slot : v.slot = some ⟨some r, next⟩)
    (sc : EvictScratch F) :
    ViewStep s c t v { v with scratch := sc.copyRows r b (n - b) }
  | move {p b n r next} (at_ : c.pc t = .copied p s b n) (slot : v.slot = some ⟨some r, next⟩) :
    ViewStep s c t v { v with slot := some ⟨some (r.advanceTail n), next⟩ }
  | write {p b n r next} (at_ : c.pc t = .moved p s b n) (slot : v.slot = some ⟨some r, next⟩)
    (whole : n - b < 2 ^ 32) (alone : ∀ u, (c.pc u).dropping ≠ some s) :
    ViewStep s c t v
      { v with
        slot := some ⟨some r, next + 1⟩
        blocks := v.blocks.put next (v.scratch.block r s next (n - b)).stored }

section
variable [FloatArith F] {c c' : Threads F} {t : Nat} {env : Env F} {op : ThreadOp F} {s : SensorId}

theorem writeBlock_persisted {bk : Backend F} (persists : bk.persists = true) {blk : Block F}
    (complete : blk.Complete) :
    (bk.writeBlock .ok blk).1 = .ok ∧
      (bk.writeBlock .ok blk).2.cold.blocks blk.sensorId =
        (bk.cold.blocks blk.sensorId).put blk.blockId blk.stored ∧
      (bk.writeBlock .ok blk).2.persists = true := by
  cases bk with
  | null => cases persists
  | rocksdb db =>
    simp only [Backend.writeBlock, complete, not_true, if_false, if_true]
    exact ⟨trivial, db.blocks_put_self _ _ _, rfl⟩

theorem writeEvicted_persisted {e : Engine F} (r : SensorRing F) (next n : Nat)
    (persists : e.backend.persists = true) (wr : env.storage.writeBlock s = .ok) :
    let e' := e.writeEvicted env s ⟨some r, next⟩ r n
    e'.sensors.lookup s = some ⟨some r, next + 1⟩ ∧
      e'.backend.cold.blocks s =
        (e.backend.cold.blocks s).put next (e.evictScratch.block r s next n).stored := by
  obtain ⟨rc, blocks, -⟩ := writeBlock_persisted persists
    (EvictScratch.block_complete s next n : (e.evictScratch.block r s next n).Complete)
  simp only [Engine.writeEvicted, wr, rc, if_true]
  exact ⟨AList.lookup_insert _, blocks⟩

theorem mem_store {r : SensorRing F} {row : Engine.BatchRow F} {x : Appended F} :
    x ∈ (c.store s r row).appended ↔ x ∈ c.appended ∧ ¬ x.Lost (c.ptr s) r ∨
      x = ⟨c.ptr s, r.head,
        (r.ingested row.ts row.vec c.engine.cfg.dim.toNat row.payload).toRow⟩ := by
  simp [store]

theorem Step.persists (h : Step c t env op c') (persists : c.engine.backend.persists = true) :
    c'.engine.backend.persists = true := by
  cases h with
  | @delete s' =>
    obtain ⟨-, -, -, same⟩ := Engine.deleteSensor_blocks (env.storage.deleteSensor s')
      c.engine.backend s'
    exact same.trans persists
  | @write p s' b newTail r next =>
    have complete : (c.engine.evictScratch.block r s' next (newTail - b)).Complete :=
      EvictScratch.block_complete s' next (newTail - b)
    have same := (Engine.writeBlock_outcome complete (env.storage.writeBlock s') c.engine.backend
      ⟨.empty, next, _⟩ rfl rfl 0).2.2.2
    exact same.trans persists
  | @store p row _ _ r =>
    have backend := congrArg Engine.backend (c.store_frame p.sensor r row)
    exact (congrArg Backend.persists backend).trans persists
  | _ => exact persists

omit [FloatArith F] in
theorem view_congr (sensors : c'.engine.sensors.lookup s = c.engine.sensors.lookup s)
    (blocks : c'.engine.backend.cold.blocks s = c.engine.backend.cold.blocks s)
    (attached : c'.attached s = c.attached s) (drops : c'.drops s = c.drops s)
    (appended : ∀ x, x.ring.sensor = s → (x ∈ c'.appended ↔ x ∈ c.appended))
    (scratch : c'.engine.evictScratch = c.engine.evictScratch) : c'.view s = c.view s := by
  have rows : (c'.view s).rows = (c.view s).rows := by
    funext x
    exact propext (and_congr_left fun own => appended x own)
  simp only [view, View.mk.injEq] at rows ⊢
  exact ⟨sensors, blocks, attached, drops, rows, scratch⟩

/-- The view of the sensor that is appended to. -/
theorem view_store {r : SensorRing F} {next : Nat}
    (found : c.engine.sensors.lookup s = some ⟨some r, next⟩) (row : Engine.BatchRow F) :
    (c.store s r row).view s = (c.view s).store s r next c.engine.cfg.dim.toNat row := by
  have engine := store_engine found row
  simp only [Threads.view, View.store, engine, View.mk.injEq]
  refine ⟨AList.lookup_insert _, rfl, rfl, rfl, ?_, rfl⟩
  funext x
  rw [mem_store]
  apply propext
  constructor
  · rintro ⟨⟨old, kept⟩ | new, own⟩
    · exact .inl ⟨⟨old, own⟩, kept⟩
    · exact .inr new
  · rintro (⟨⟨old, own⟩, kept⟩ | rfl)
    · exact ⟨.inl ⟨old, kept⟩, own⟩
    · exact ⟨.inr rfl, rfl⟩

/-- An append changes no other sensor's view. -/
theorem view_store_ne {s' : SensorId} {r : SensorRing F} {next : Nat}
    (found : c.engine.sensors.lookup s' = some ⟨some r, next⟩) (row : Engine.BatchRow F)
    (ne : s ≠ s') : (c.store s' r row).view s = c.view s := by
  have engine := store_engine found row
  apply view_congr
  · exact (congrArg (fun e => e.sensors.lookup s) engine).trans (AList.lookup_insert_ne ne)
  · exact congrArg (fun e => e.backend.cold.blocks s) engine
  · rfl
  · rfl
  · intro x own
    have elsewhere : x.ring.sensor ≠ s' := fun h => ne (own.symm.trans h)
    rw [mem_store]
    constructor
    · rintro (⟨old, -⟩ | rfl)
      · exact old
      · exact (elsewhere rfl).elim
    · intro old
      refine .inl ⟨old, fun lost => elsewhere ?_⟩
      exact (congrArg RingPtr.sensor lost.1 :)
  · exact congrArg (fun e => e.evictScratch) engine

theorem viewStep_of_eq {v v' : View F} (h : v' = v) (stays : ∀ p b n, c.pc t ≠ .moved p s b n) :
    ViewStep s c t v v' := h ▸ .same stays

/-- Past its tail advance, a pass writes. -/
theorem Step.write_of_moved (h : Step c t env op c') {p : PassRun F} {b n : Nat}
    (at_ : c.pc t = .moved p s b n) : ∃ r next,
      c.engine.sensors.lookup s = some ⟨some r, next⟩ ∧
      c' = (c.setEngine (c.engine.writeEvicted env s ⟨some r, next⟩ r (n - b))).goto t
        (.visiting p) := by
  cases h with
  | @write p' s' b' n' r next at_' slot =>
    rw [at_] at at_'
    cases at_'
    exact ⟨r, next, slot, rfl⟩
  | _ => simp_all

theorem Step.view (h : Step c t env op c') (persists : c.engine.backend.persists = true)
    (settled : Settled s c ⟨t, env, op⟩) : ViewStep s c t (c.view s) (c'.view s) := by
  by_cases moved : ∃ p b n, c.pc t = .moved p s b n
  · obtain ⟨p, b, n, at_⟩ := moved
    obtain ⟨r, next, slot, rfl⟩ := h.write_of_moved at_
    obtain ⟨sensors, blocks⟩ := writeEvicted_persisted r next (n - b) persists
      (settled.written p b n at_)
    convert ViewStep.write (v := c.view s) at_ slot (settled.whole p b n at_)
      (settled.alone p b n at_) using 1
    simp only [Threads.view, goto, setEngine, View.mk.injEq]
    exact ⟨sensors, blocks, trivial, trivial, trivial, rfl⟩
  have stays : ∀ p b n, c.pc t ≠ .moved p s b n := fun p b n at_ => moved ⟨p, b, n, at_⟩
  cases h with
  | @erase s' slot at_ _ free =>
    by_cases eq : s = s'
    · subst eq
      convert ViewStep.erase (v := c.view s) at_ free using 1
      simp [Threads.view, goto, Threads.erase, Engine.eraseSlot]
    · refine viewStep_of_eq (view_congr ?_ rfl rfl ?_ (fun _ _ => .rfl) rfl) stays
      · exact AList.lookup_erase_ne eq
      · exact Function.update_of_ne eq _ _
  | @attach s' rows mem next at_ free slot =>
    by_cases eq : s = s'
    · subst eq
      have target : ViewStep s c t (c.view s)
          { c.view s with
            slot := some ⟨some (.new c.engine.cfg.shape mem), next⟩
            attached := c.attached s + 1 } :=
        .attach at_ free (slot.imp id fun h => ⟨h.1, h.2.1⟩)
      convert target using 1
      simp [Threads.view, goto, Threads.attach, Engine.setSlot]
    · refine viewStep_of_eq (view_congr ?_ rfl ?_ rfl (fun _ _ => .rfl) rfl) stays
      · exact AList.lookup_insert_ne eq
      · exact Function.update_of_ne eq _ _
  | @store p row rows count r at_ live =>
    obtain ⟨next, found⟩ := lookup_of_deref live
    by_cases eq : s = p.sensor
    · subst eq
      have target : ViewStep p.sensor c t (c.view p.sensor)
          ((c.view p.sensor).store p.sensor r next c.engine.cfg.dim.toNat row) := .store at_ found
      rwa [← view_store found row] at target
    · exact viewStep_of_eq (view_store_ne found row eq) stays
  | @delete s' at_ =>
    obtain ⟨others, own, -, -⟩ := Engine.deleteSensor_blocks (env.storage.deleteSensor s')
      c.engine.backend s'
    by_cases eq : s = s'
    · subst eq
      obtain empty | kept := own
      · convert ViewStep.delete (v := c.view s) at_ using 1
        simp [Threads.view, goto, setEngine, Engine.deleteBlocks, empty]
      · exact viewStep_of_eq (view_congr rfl kept rfl rfl (fun _ _ => .rfl) rfl) stays
    · exact viewStep_of_eq (view_congr rfl (others s eq) rfl rfl (fun _ _ => .rfl) rfl) stays
  | @copyFailed p s' b n r at_ ring few =>
    have other : s' ≠ s := by
      rintro rfl
      exact absurd (settled.memory p b n at_) (Nat.not_le.mpr few)
    exact .reserve _ at_ other
  | @copy p s' b n r at_ ring =>
    by_cases eq : s = s'
    · subst eq
      obtain ⟨next, found⟩ := Engine.slot_of_ring ring
      exact .copy at_ found _
    · exact .reserve _ at_ (Ne.symm eq)
  | @move p s' b n r next at_ slot =>
    by_cases eq : s = s'
    · subst eq
      convert ViewStep.move (v := c.view s) at_ slot using 1
      simp [Threads.view, goto, setEngine, Engine.moveTail, Engine.setSlot]
    · exact viewStep_of_eq
        (view_congr (AList.lookup_insert_ne eq) rfl rfl rfl (fun _ _ => .rfl) rfl) stays
  | @write p s' b n r next at_ slot =>
    have other : s ≠ s' := by
      rintro rfl
      exact stays p b n at_
    refine viewStep_of_eq
      (view_congr (AList.lookup_insert_ne other) ?_ rfl rfl (fun _ _ => .rfl) rfl) stays
    exact Backend.writeBlock_blocks_ne (by exact other) _ _
  | _ => exact .same stays

end

end Threads

end ChronosVector
