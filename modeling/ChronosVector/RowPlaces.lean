import ChronosVector.SensorView

/-!
# Where the rows of a sensor's present life are

Predicates on the view of a sensor, and what the steps keep of them.

* `View.Cold`: a row is in a block that no later write of its life replaces;
* `View.Known`, `View.Keeps`: rows of earlier lives do not come back;
* `View.PassOk`: what a pass at the sensor knows of its range and its copy;
* `View.Owed`, `View.FlushOk`: the rows a flush still answers for;
* `View.Placed`: a row is in its slot, with a pass, or persisted.
-/

namespace ChronosVector

variable {F : Type}

/-! ## Rows of the present life -/

namespace View

/-- In a block of an id that the slot has given out in this life. -/
def Cold (v : View F) (x : Appended F) : Prop :=
  ∃ slot, v.slot = some slot ∧
    ∃ id blk, id < slot.nextBlockId ∧ v.blocks.get id = some blk ∧ x.row ∈ blk.rows

/-- A row of an earlier life, or at an index of the attached ring. -/
structure Known (v : View F) (x : Appended F) : Prop where
  life : x.ring.life ≤ v.drops
  ring : x.ring.life = v.drops → x.ring.ring = v.attached ∧
    ∃ r next, v.slot = some ⟨some r, next⟩ ∧ x.index < r.head

/-- What a step keeps for rows that were known before it. -/
structure Keeps (v v' : View F) : Prop where
  known : ∀ x, v.Known x → v'.Known x
  life : ∀ x, v.Known x → x.ring.life = v'.drops → x.ring.life = v.drops
  rows : ∀ x, v.Known x → x.ring.life = v'.drops → v'.rows x → v.rows x
  cold : ∀ x, v.Known x → x.ring.life = v'.drops → v.Cold x → v'.Cold x

theorem Keeps.refl (v : View F) : Keeps v v :=
  ⟨fun _ h => h, fun _ _ h => h, fun _ _ _ h => h, fun _ _ _ h => h⟩

section
variable {v v' : View F} {x : Appended F} {r r' : SensorRing F} {next next' : Nat}

/-- No known row is of the new life. -/
theorem Keeps.fresh (later : v.drops ≤ v'.drops)
    (past : ∀ x, v.Known x → x.ring.life ≠ v'.drops) : Keeps v v' where
  known x known := ⟨Nat.le_trans known.life later, fun life => absurd life (past x known)⟩
  life x known life := absurd life (past x known)
  rows x known life := absurd life (past x known)
  cold x known life := absurd life (past x known)

/-- The ring is replaced by one that holds no fewer indices. -/
theorem Known.reslot (known : v.Known x) (drops : v'.drops = v.drops)
    (attached : v'.attached = v.attached) (slot : v.slot = some ⟨some r, next⟩)
    (slot' : v'.slot = some ⟨some r', next'⟩) (grows : r.head ≤ r'.head) : v'.Known x := by
  refine ⟨drops ▸ known.life, ?_⟩
  intro life
  obtain ⟨ring, r₂, next₂, slot₂, index⟩ := known.ring (life.trans drops)
  cases slot.symm.trans slot₂
  exact ⟨ring.trans attached.symm, r', next', slot', Nat.lt_of_lt_of_le index grows⟩

/-- The blocks of the ids given out so far are still there. -/
theorem Cold.reslot (cold : v.Cold x) (slot : v.slot = some ⟨some r, next⟩)
    (slot' : v'.slot = some ⟨some r', next'⟩) (grows : next ≤ next')
    (blocks : ∀ id < next, v'.blocks.get id = v.blocks.get id) : v'.Cold x := by
  obtain ⟨slot₂, found, id, blk, lt, get, mem⟩ := cold
  cases slot.symm.trans found
  exact ⟨_, slot', id, blk, Nat.lt_of_lt_of_le lt grows, (blocks id lt).trans get, mem⟩

end

variable (v : View F) (s : SensorId)

/-- The indices that a pass at the sensor is about to evict. -/
def InRange (b n : Nat) : Prop :=
  ∃ r next, v.slot = some ⟨some r, next⟩ ∧ r.tail ≤ b ∧ b ≤ n ∧ n ≤ r.head ∧
    (b = r.tail ∨ b + r.shape.capacity ≤ r.head)

/-- The tail is past them. -/
def Moved (n : Nat) : Prop :=
  ∃ r next, v.slot = some ⟨some r, next⟩ ∧ r.tail = n ∧ n ≤ r.head

/-- Every row of them that was not overwritten is in the scratch. -/
def HasCopy (b n : Nat) : Prop :=
  ∀ r next, v.slot = some ⟨some r, next⟩ → ∀ x, v.rows x → x.ring.life = v.drops →
    b ≤ x.index → x.index < n → v.scratch.rowAt r.shape (x.index - b) = x.row

/-- What a thread knows of the sensor in its pass. -/
def PassOk : Pc F → Prop
  | .snapped _ s' b n => s' = s → v.InRange b n
  | .copied _ s' b n => s' = s → v.InRange b n ∧ v.HasCopy b n
  | .moved _ s' b n => s' = s → v.Moved n ∧ v.HasCopy b n
  | _ => True

/-- Rows that a flush answers for: persisted, or still ahead of its pass. -/
def Owed (rest : List SensorId) (reach : Nat) (due : List (Appended F)) : Prop :=
  ∀ x ∈ due, x.ring.sensor = s → v.Known x ∧
    (x.ring.life = v.drops → v.rows x → s ∈ rest ∨ v.Cold x ∨ x.index < reach)

def FlushOk : Pc F → Prop
  | .entering w (some due) => w = 0 ∧ ∀ x ∈ due, x.ring.sensor = s → v.Known x
  | .visiting p => ∀ due, p.flush = some due → p.windowMs = 0 ∧ v.Owed s p.rest 0 due
  | .snapped p s' _ n | .copied p s' _ n | .moved p s' _ n =>
    ∀ due, p.flush = some due → p.windowMs = 0 ∧ v.Owed s p.rest (if s' = s then n else 0) due
  | .syncing due => v.Owed s [] 0 due
  | _ => True

/-- Where a row of the attached ring is: in its slot, or past the tail and then
with a pass or persisted. -/
structure Placed (held : Nat → Prop) (x : Appended F) (r : SensorRing F) : Prop where
  hot : r.tail ≤ x.index →
    r.head ≤ x.index + r.shape.capacity ∧ (r.entryAt x.index).toRow = x.row
  out : x.index < r.tail → held x.index ∨ v.Cold x

variable {v s} {v' : View F}

theorem Owed.keeps {rest : List SensorId} {reach : Nat} {due : List (Appended F)}
    (h : v.Owed s rest reach due) (keeps : Keeps v v') : v'.Owed s rest reach due := by
  intro x hx own
  obtain ⟨known, where_⟩ := h x hx own
  refine ⟨keeps.known x known, ?_⟩
  intro life mem
  obtain ahead | cold | near := where_ (keeps.life x known life) (keeps.rows x known life mem)
  · exact .inl ahead
  · exact .inr (.inl (keeps.cold x known life cold))
  · exact .inr (.inr near)

theorem FlushOk.keeps {p : Pc F} (h : v.FlushOk s p) (keeps : Keeps v v') : v'.FlushOk s p := by
  cases p with
  | entering w flush =>
    cases flush with
    | none => trivial
    | some due => exact ⟨h.1, fun x hx own => keeps.known x (h.2 x hx own)⟩
  | visiting p => exact fun due flush => ⟨(h due flush).1, (h due flush).2.keeps keeps⟩
  | snapped p s' b n => exact fun due flush => ⟨(h due flush).1, (h due flush).2.keeps keeps⟩
  | copied p s' b n => exact fun due flush => ⟨(h due flush).1, (h due flush).2.keeps keeps⟩
  | moved p s' b n => exact fun due flush => ⟨(h due flush).1, (h due flush).2.keeps keeps⟩
  | syncing due => exact Owed.keeps h keeps
  | _ => trivial

theorem Placed.mono {held held' : Nat → Prop} {x : Appended F} {r : SensorRing F}
    (h : v.Placed held x r) (still : held x.index → held' x.index)
    (cold : v.Cold x → v'.Cold x) : v'.Placed held' x r :=
  ⟨h.hot, fun past => (h.out past).imp still cold⟩

/-- The row of a block made from the copy. -/
theorem cold_of_write [FloatArith F] {b n next : Nat} {r : SensorRing F} {x : Appended F}
    (slot : v.slot = some ⟨some r, next⟩) (copy : v.HasCopy b n) (whole : n - b < 2 ^ 32)
    (mem : v.rows x) (life : x.ring.life = v.drops) (lo : b ≤ x.index) (hi : x.index < n) :
    Cold
      { v with
        slot := some ⟨some r, next + 1⟩
        blocks := v.blocks.put next (v.scratch.block r s next (n - b)).stored } x := by
  refine ⟨_, rfl, next, _, Nat.lt_succ_self _, SortedMap.get_put_self _, ?_⟩
  have count : (v.scratch.block r s next (n - b)).count.toNat = n - b := by
    simp only [EvictScratch.block, UInt32.toNat_ofNat']
    exact Nat.mod_eq_of_lt whole
  have row : (v.scratch.block r s next (n - b)).row (x.index - b) =
      v.scratch.rowAt r.shape (x.index - b) := EvictScratch.block_row s next (n - b) (x.index - b)
  rw [copy r next slot x mem life lo hi] at row
  simp only [Block.stored, count]
  exact List.mem_map.mpr ⟨x.index - b, List.mem_range.mpr (by omega), row⟩

section
variable [FloatArith F] {b n next dim : Nat} {r : SensorRing F} {row : Engine.BatchRow F}

/-- A row stays in its place unless the append laps it. -/
theorem Placed.ingest {held : Nat → Prop} {x : Appended F} (place : v.Placed held x r)
    (index : x.index < r.head)
    (kept : ¬ (r.shape.capacity ≤ r.head - r.tail ∧ x.index + r.shape.capacity = r.head)) :
    v.Placed held x (r.ingest row.ts row.vec dim row.payload) := by
  refine ⟨?_, fun past => place.out (by rwa [SensorRing.ingest_tail] at past)⟩
  rw [SensorRing.ingest_tail, SensorRing.ingest_head, SensorRing.ingest_shape]
  intro hot
  obtain ⟨near, same⟩ := place.hot hot
  have nearer : r.head + 1 ≤ x.index + r.shape.capacity := by omega
  exact ⟨nearer, by rw [SensorRing.entryAt_ingest_ne index nearer]; exact same⟩

/-- The new row is in its slot. -/
theorem placed_ingested {held : Nat → Prop} {x : Appended F} (ok : r.Ok) (index : x.index = r.head)
    (stored : x.row = (r.ingested row.ts row.vec dim row.payload).toRow) :
    v.Placed held x (r.ingest row.ts row.vec dim row.payload) := by
  unfold SensorRing.Ok at ok
  rw [← index] at ok
  constructor
  · intro _
    have := r.shape.capacity_pos
    rw [SensorRing.ingest_head, SensorRing.ingest_shape, stored, index]
    exact ⟨by omega, congrArg Entry.toRow SensorRing.entryAt_ingest_self⟩
  · rw [SensorRing.ingest_tail]
    intro past
    exact absurd past (Nat.not_lt.mpr ok)

theorem InRange.store (h : v.InRange b n) (slot : v.slot = some ⟨some r, next⟩) :
    (v.store s r next dim row).InRange b n := by
  obtain ⟨r', next', slot', lo, le, hi, start⟩ := h
  cases slot.symm.trans slot'
  refine ⟨_, next, rfl, ?_, le, ?_, ?_⟩
  · rwa [SensorRing.ingest_tail]
  · rw [SensorRing.ingest_head]
    omega
  · rw [SensorRing.ingest_tail, SensorRing.ingest_head, SensorRing.ingest_shape]
    omega

theorem HasCopy.store (h : v.HasCopy b n) (slot : v.slot = some ⟨some r, next⟩)
    (hi : n ≤ r.head) : (v.store s r next dim row).HasCopy b n := by
  intro r' next' slot' x mem life lo lt
  cases slot'
  rw [SensorRing.ingest_shape]
  obtain ⟨old, -⟩ | rfl := mem
  · exact h r next slot x old life lo lt
  · exact absurd lt (Nat.not_lt.mpr hi)

end

end View

namespace Threads

open View

section
variable [FloatArith F] {c c' : Threads F} {t : Nat} {s : SensorId} {v v' : View F}

theorem ViewStep.keeps (h : ViewStep s c t v v')
    (pending : ∀ u, (c.pc u).dropping = some s → ∀ slot, v.slot = some slot →
      slot.nextBlockId = 0) : Keeps v v' := by
  cases h with
  | same => exact .refl v
  | erase =>
    refine .fresh (Nat.le_succ _) ?_
    intro x known life
    exact absurd (life.symm.trans_le known.life) (Nat.not_succ_le_self _)
  | attach _ _ bare =>
    refine .fresh (Nat.le_refl _) ?_
    intro x known life
    obtain ⟨-, r, next, slot, -⟩ := known.ring life
    obtain bare | ⟨bare, -⟩ := bare
    · cases slot.symm.trans bare
    · cases slot.symm.trans bare
  | @store p rows count r next dim row _ slot =>
    refine ⟨?_, fun _ _ life => life, ?_, ?_⟩
    · have grows : r.head ≤ (r.ingest row.ts row.vec dim row.payload).head := by
        rw [SensorRing.ingest_head]
        exact Nat.le_succ _
      exact fun x known => known.reslot rfl rfl slot rfl grows
    · intro x known life mem
      obtain ⟨old, -⟩ | rfl := mem
      · exact old
      · obtain ⟨-, r', next', slot', index⟩ := known.ring life
        cases slot.symm.trans slot'
        exact absurd index (Nat.lt_irrefl _)
    · exact fun x _ _ cold => cold.reslot slot rfl (Nat.le_refl _) fun id _ => rfl
  | delete at_ =>
    refine ⟨fun x known => ⟨known.life, known.ring⟩, fun _ _ life => life, fun _ _ _ mem => mem, ?_⟩
    rintro x - - ⟨slot, found, id, blk, lt, -⟩
    have zero := pending t (by rw [at_]; rfl) slot found
    omega
  | reserve =>
    exact ⟨fun x known => ⟨known.life, known.ring⟩, fun _ _ life => life, fun _ _ _ mem => mem,
      fun _ _ _ cold => cold⟩
  | copy =>
    exact ⟨fun x known => ⟨known.life, known.ring⟩, fun _ _ life => life, fun _ _ _ mem => mem,
      fun _ _ _ cold => cold⟩
  | move _ slot =>
    refine ⟨?_, fun _ _ life => life, fun _ _ _ mem => mem, ?_⟩
    · exact fun x known => known.reslot rfl rfl slot rfl (Nat.le_refl _)
    · exact fun x _ _ cold => cold.reslot slot rfl (Nat.le_refl _) fun id _ => rfl
  | @write p b n r next _ slot =>
    refine ⟨?_, fun _ _ life => life, fun _ _ _ mem => mem, ?_⟩
    · exact fun x known => known.reslot rfl rfl slot rfl (Nat.le_refl _)
    · refine fun x _ _ cold => cold.reslot slot rfl (Nat.le_succ next) ?_
      exact fun id lt => SortedMap.get_put_ne _ (Nat.ne_of_lt lt)

end

end Threads

end ChronosVector
