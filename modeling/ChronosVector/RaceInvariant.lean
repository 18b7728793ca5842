import ChronosVector.EvictionRace

/-!
# What holds between two steps of a pass

The invariant of `Race`, by part:

* `RingInv`: a slot holds the newest entry appended to it, and a lost entry is a
  lap behind;
* `HeldInv`: from the snapshot to the tail advance;
* `CopiedInv`: the rows in the scratch;
* `PassedInv`: a range behind the tail;
* `HandedInv`: a block that was given to `WriteBlock`.
-/

namespace ChronosVector

variable {F : Type}

namespace Race

/-- Slots hold the newest entries appended to them; a lost entry is a lap
behind. -/
structure RingInv (r : SensorRing F) (log : List (Entry F)) (lost : List Nat) : Prop where
  ok : r.Ok
  logged : log.length = r.head
  counted : lost.length = r.overwrittenEntries
  lapped : ∀ j ∈ lost, j + r.shape.capacity < r.head
  live : ∀ idx, idx < r.head → r.head ≤ idx + r.shape.capacity → log[idx]? = some (r.entryAt idx)

/-- Before the tail is advanced past `b`: nothing from `b` on is lost as long as
the ring was not found full, and `b` is the first entry to go. -/
structure HeldInv (r : SensorRing F) (lost : List Nat) (overtaken : Bool) (b u : Nat) : Prop where
  lo : r.tail ≤ b
  le : b ≤ u
  hi : u ≤ r.head
  clear : overtaken = false → r.head ≤ b + r.shape.capacity
  hit : overtaken = true → b ∈ lost
  aligned : r.tail = b ∨ b + r.shape.capacity ≤ r.head

/-- `n` rows have been copied, each from the entry its slot held. -/
structure CopiedInv (log : List (Entry F)) (sc : EvictScratch F) (sh : RingShape)
    (sources : List Nat) (overtaken : Bool) (b n : Nat) : Prop where
  count : sources.length = n
  rows : ∀ j idx, sources[j]? = some idx → (log[idx]?).map Entry.toRow = some (sc.rowAt sh j)
  exact : overtaken = false → sources = List.range' b n

/-- Lost and copied entries: a range `[b, t)` behind the tail. -/
structure PassedInv (tail : Nat) (lost : List Nat) (overtaken : Bool) (b t : Nat) : Prop where
  le : b ≤ t
  passed : t ≤ tail
  apart : overtaken = false → ∀ j ∈ lost, j < b ∨ t ≤ j
  hit : overtaken = true → b ∈ lost

variable (c : Race F)

/-- What the pass has done so far. -/
def PointInv : Prop :=
  match c.point with
  | .idle => True
  | .scanning b e _ _ _ =>
    HeldInv c.ring c.lost c.overtaken b e ∧
      CopiedInv c.log c.scratch c.ring.shape c.sources c.overtaken b 0
  | .advancing b e t _ =>
    (HeldInv c.ring c.lost c.overtaken b e ∧
      CopiedInv c.log c.scratch c.ring.shape c.sources c.overtaken b 0) ∧ b ≤ t ∧ t ≤ e
  | .reserving b t =>
    HeldInv c.ring c.lost c.overtaken b t ∧
      CopiedInv c.log c.scratch c.ring.shape c.sources c.overtaken b 0
  | .copying b t i =>
    (HeldInv c.ring c.lost c.overtaken b t ∧
      CopiedInv c.log c.scratch c.ring.shape c.sources c.overtaken b i) ∧ i ≤ t - b
  | .writing b t =>
    PassedInv c.ring.tail c.lost c.overtaken b t ∧
      CopiedInv c.log c.scratch c.ring.shape c.sources c.overtaken b (t - b) ∧
      ∀ p ∈ c.handed, p.b + p.sources.length ≤ b

/-- A block that was given away. -/
structure HandedInv (log : List (Entry F)) (lost : List Nat) (tail : Nat) (p : Handed F) :
    Prop where
  rows : p.block.rows.map some = p.sources.map fun idx => (log[idx]?).map Entry.toRow
  exact : p.overtaken = false → p.sources = List.range' p.b p.sources.length
  range : PassedInv tail lost p.overtaken p.b (p.b + p.sources.length)

structure Inv : Prop where
  ring : RingInv c.ring c.log c.lost
  point : c.PointInv
  handed : ∀ p ∈ c.handed, HandedInv c.log c.lost c.ring.tail p
  ordered : c.handed.Pairwise fun p q => p.b + p.sources.length ≤ q.b

/-! ### An append -/

section
variable {c} {r : SensorRing F} {log : List (Entry F)} {lost : List Nat} {overtaken : Bool}
variable {b t u n : Nat} {ts : Int64} {vec : Nat → Elem F} {norm scale : F}
variable {payload : Option (Nat → UInt8)}

/-- The entry that an append on a full ring overwrites. -/
def lostBy (r : SensorRing F) (lost : List Nat) : List Nat :=
  if decide (r.shape.capacity ≤ r.head - r.tail) then lost ++ [r.head - r.shape.capacity] else lost

theorem mem_lostBy {j : Nat} :
    j ∈ lostBy r lost ↔
      j ∈ lost ∨ (r.shape.capacity ≤ r.head - r.tail ∧ j = r.head - r.shape.capacity) := by
  unfold lostBy
  split
  · rename_i full
    simp [of_decide_eq_true full]
  · rename_i room
    simp at room
    simp [Nat.not_le.mpr room]

theorem RingInv.append (h : RingInv r log lost) :
    RingInv (r.append ts vec norm payload scale) (log ++ [r.stored ts vec norm payload scale])
      (lostBy r lost) where
  ok := SensorRing.append_ok h.ok
  logged := by simp [h.logged]
  counted := by
    simp only [SensorRing.append, lostBy, decide_eq_true_eq]
    split
    · rw [List.length_append, h.counted, List.length_singleton]
    · exact h.counted
  lapped := by
    intro j hj
    rw [SensorRing.append_head, SensorRing.append_shape]
    obtain hj | ⟨full, rfl⟩ := mem_lostBy.mp hj
    · exact Nat.lt_succ_of_lt (h.lapped j hj)
    · omega
  live := by
    intro idx hidx near
    rw [SensorRing.append_head, SensorRing.append_shape] at near
    rw [SensorRing.append_head] at hidx
    by_cases last : idx = r.head
    · rw [last, SensorRing.entryAt_append_self, ← h.logged, List.getElem?_concat_length]
    · rw [SensorRing.entryAt_append_ne (SensorRing.slotOf_ne (by omega) (by omega)),
        List.getElem?_append_left (by rw [h.logged]; omega)]
      exact h.live idx (by omega) (by omega)

theorem HeldInv.append (h : HeldInv r lost overtaken b u) :
    HeldInv (r.append ts vec norm payload scale) (lostBy r lost)
      (overtaken || (decide (r.shape.capacity ≤ r.head - r.tail) && true)) b u where
  lo := h.lo
  le := h.le
  hi := Nat.le_succ_of_le h.hi
  clear := by
    intro calm
    simp only [Bool.and_true, Bool.or_eq_false_iff, decide_eq_false_iff_not] at calm
    have near := h.clear calm.1
    have room := calm.2
    rw [SensorRing.append_head, SensorRing.append_shape]
    obtain aligned | aligned := h.aligned
    · omega
    · have := h.lo
      omega
  hit := by
    intro hit
    rw [mem_lostBy]
    cases before : overtaken with
    | true => exact .inl (h.hit before)
    | false =>
      rw [before, Bool.false_or, Bool.and_true, decide_eq_true_eq] at hit
      have near := h.clear before
      have := r.shape.capacity_pos
      right
      refine ⟨hit, ?_⟩
      obtain aligned | aligned := h.aligned
      · omega
      · omega
  aligned := by
    rw [SensorRing.append_head, SensorRing.append_shape, SensorRing.append_tail]
    obtain aligned | aligned := h.aligned
    · exact .inl aligned
    · exact .inr (Nat.le_succ_of_le aligned)

theorem PassedInv.append (h : PassedInv r.tail lost overtaken b t) :
    PassedInv r.tail (lostBy r lost) overtaken b t where
  le := h.le
  passed := h.passed
  apart := by
    intro calm j hj
    obtain hj | ⟨full, rfl⟩ := mem_lostBy.mp hj
    · exact h.apart calm j hj
    · have := h.passed
      have := r.shape.capacity_pos
      right
      omega
  hit := by
    intro hit
    exact mem_lostBy.mpr (.inl (h.hit hit))

theorem log_append {x : Entry F} {idx : Nat} {row : Row F}
    (h : (log[idx]?).map Entry.toRow = some row) :
    ((log ++ [x])[idx]?).map Entry.toRow = some row := by
  obtain ⟨y, found, rfl⟩ := Option.map_eq_some_iff.mp h
  rw [List.getElem?_append_left (List.getElem?_eq_some_iff.mp found).1, found]
  rfl

theorem CopiedInv.append {sc : EvictScratch F} {sh : RingShape} {sources : List Nat} {now : Bool}
    (h : CopiedInv log sc sh sources overtaken b n) (x : Entry F)
    (mono : now = false → overtaken = false) :
    CopiedInv (log ++ [x]) sc sh sources now b n where
  count := h.count
  rows := by
    intro j idx hj
    exact log_append (h.rows j idx hj)
  exact := by
    intro calm
    exact h.exact (mono calm)

/-- While the pass still reads the ring. -/
theorem held_append {sc : EvictScratch F} {sh : RingShape} {sources : List Nat}
    (h : HeldInv r lost overtaken b u ∧ CopiedInv log sc sh sources overtaken b n) (x : Entry F) :
    HeldInv (r.append ts vec norm payload scale) (lostBy r lost)
        (overtaken || (decide (r.shape.capacity ≤ r.head - r.tail) && true)) b u ∧
      CopiedInv (log ++ [x]) sc sh sources
        (overtaken || (decide (r.shape.capacity ≤ r.head - r.tail) && true)) b n := by
  constructor
  · exact h.1.append
  · apply h.2.append
    intro calm
    exact (Bool.or_eq_false_iff.mp calm).1

theorem HandedInv.append {p : Handed F} (h : HandedInv log lost r.tail p) (x : Entry F) :
    HandedInv (log ++ [x]) (lostBy r lost) r.tail p where
  rows := by
    rw [h.rows]
    apply List.map_congr_left
    intro idx hidx
    have present : (log[idx]?).map Entry.toRow ∈ p.block.rows.map some := by
      rw [h.rows]
      exact List.mem_map_of_mem hidx
    obtain ⟨row, -, found⟩ := List.mem_map.mp present
    rw [← found, log_append found.symm]
  exact := h.exact
  range := h.range.append

end

/-! ### The steps of the pass -/

section
variable {c} {r : SensorRing F} {log : List (Entry F)} {lost : List Nat} {overtaken : Bool}
variable {b t u n : Nat}

theorem snapshot_held (h : r.Ok) : HeldInv r lost false r.snapshot.1 r.snapshot.2 where
  lo := by
    unfold SensorRing.Ok at h
    simp only [SensorRing.snapshot]
    split <;> omega
  le := SensorRing.snapshot_le h
  hi := Nat.le_refl _
  clear := by
    intro _
    exact SensorRing.snapshot_near h
  hit := by
    intro h
    cases h
  aligned := by
    unfold SensorRing.Ok at h
    simp only [SensorRing.snapshot]
    split
    · right
      omega
    · exact .inl rfl

theorem nothing_copied (log : List (Entry F)) (sc : EvictScratch F) (sh : RingShape)
    (overtaken : Bool) (b : Nat) : CopiedInv log sc sh [] overtaken b 0 where
  count := rfl
  rows := by
    intro j idx h
    simp at h
  exact := by
    intro _
    rfl

/-- A frontier inside the range. -/
theorem HeldInv.shrink (h : HeldInv r lost overtaken b u) (lo : b ≤ t) (hi : t ≤ u) :
    HeldInv r lost overtaken b t :=
  { h with le := lo, hi := Nat.le_trans hi h.hi }

theorem holder_lt {idx : Nat} (h : idx < r.head) : r.holder idx < r.head := by
  unfold SensorRing.holder
  omega

theorem holder_near {idx : Nat} (h : idx < r.head) :
    r.head ≤ r.holder idx + r.shape.capacity ∧ r.slotOf (r.holder idx) = r.slotOf idx := by
  have pos := r.shape.capacity_pos
  have small := Nat.mod_lt (r.head - 1 - idx) pos
  have part := Nat.div_add_mod (r.head - 1 - idx) r.shape.capacity
  refine ⟨?_, ?_⟩
  · unfold SensorRing.holder
    omega
  · have laps : r.holder idx =
        idx + r.shape.capacity * ((r.head - 1 - idx) / r.shape.capacity) := by
      unfold SensorRing.holder
      omega
    rw [SensorRing.slotOf_eq_mod, SensorRing.slotOf_eq_mod, laps, Nat.add_mul_mod_self_left]

theorem holder_live {idx : Nat} (h : idx < r.head) (near : r.head ≤ idx + r.shape.capacity) :
    r.holder idx = idx := by
  unfold SensorRing.holder
  rw [Nat.mod_eq_of_lt (by omega)]
  omega

theorem entryAt_congr {i j : Nat} (h : r.slotOf i = r.slotOf j) : r.entryAt i = r.entryAt j := by
  have vec : r.vectorAt i = r.vectorAt j := by
    funext k
    simp only [SensorRing.vectorAt, h]
  have payload : r.payloadAt i = r.payloadAt j := by
    funext k
    simp only [SensorRing.payloadAt, h]
  simp only [SensorRing.entryAt, SensorRing.timestampAt, SensorRing.normAt, SensorRing.scaleAt,
    vec, payload, h]

/-- What a copy reads is the entry of the holder. -/
theorem RingInv.held_entry (h : RingInv r log lost) {idx : Nat} (hidx : idx < r.head) :
    log[r.holder idx]? = some (r.entryAt idx) := by
  obtain ⟨near, slot⟩ := holder_near hidx
  rw [h.live _ (holder_lt hidx) near, entryAt_congr slot]

theorem CopiedInv.copyRow [FloatArith F] {sc : EvictScratch F} {sources : List Nat} {i : Nat}
    (ring : RingInv r log lost) (held : HeldInv r lost overtaken b t)
    (h : CopiedInv log sc r.shape sources overtaken b i) (hi : i < t - b) :
    CopiedInv log (sc.copyRow r b i) r.shape (sources ++ [r.holder (b + i)]) overtaken b
      (i + 1) where
  count := by simp [h.count]
  rows := by
    intro j idx hj
    obtain old | new := Nat.lt_or_ge j sources.length
    · rw [List.getElem?_append_left old] at hj
      rw [EvictScratch.rowAt_copyRow_ne (by rw [← h.count]; omega)]
      exact h.rows j idx hj
    · have here : j = i := by
        have inside := (List.getElem?_eq_some_iff.mp hj).1
        rw [List.length_append, List.length_singleton, h.count] at inside
        rw [h.count] at new
        omega
      have hidx : b + i < r.head := by
        have := held.hi
        omega
      subst here
      rw [← h.count, List.getElem?_concat_length, Option.some.injEq] at hj
      rw [← hj, h.count, ring.held_entry hidx, EvictScratch.rowAt_copyRow_self]
      rfl
  exact := by
    intro calm
    have near := held.clear calm
    have := held.hi
    rw [h.exact calm, holder_live (by omega) (by omega), List.range'_concat, Nat.one_mul]

/-- The tail passes what was copied. -/
theorem HeldInv.advance (ring : RingInv r log lost) (h : HeldInv r lost overtaken b t) :
    PassedInv t lost overtaken b t where
  le := h.le
  passed := Nat.le_refl t
  apart := by
    intro calm j hj
    have near := h.clear calm
    have gone := ring.lapped j hj
    left
    omega
  hit := h.hit

theorem RingInv.advanceTail (h : RingInv r log lost) (hi : t ≤ r.head) :
    RingInv (r.advanceTail t) log lost where
  ok := hi
  logged := h.logged
  counted := h.counted
  lapped := h.lapped
  live := h.live

theorem PassedInv.later {tail tail' : Nat} (h : PassedInv tail lost overtaken b t)
    (mono : tail ≤ tail') : PassedInv tail' lost overtaken b t :=
  { h with passed := Nat.le_trans h.passed mono }

theorem HandedInv.later {tail tail' : Nat} {p : Handed F} (h : HandedInv log lost tail p)
    (mono : tail ≤ tail') : HandedInv log lost tail' p :=
  { h with range := h.range.later mono }

theorem PassedInv.shrink {tail t' : Nat} (h : PassedInv tail lost overtaken b t) (lo : b ≤ t')
    (hi : t' ≤ t) : PassedInv tail lost overtaken b t' where
  le := lo
  passed := Nat.le_trans hi h.passed
  apart := by
    intro calm j hj
    exact (h.apart calm j hj).imp_right (Nat.le_trans hi)
  hit := h.hit

/-- The block of the copied rows, cut to what its count can express. -/
theorem handed_write [FloatArith F] {sc : EvictScratch F} {sources : List Nat}
    (passed : PassedInv r.tail lost overtaken b t)
    (copied : CopiedInv log sc r.shape sources overtaken b (t - b)) (s : SensorId) (id : Nat)
    (rc : ErrorCode) :
    HandedInv log lost r.tail
      ⟨b, rc, (sc.block r s id (t - b)).stored,
        sources.take (sc.block r s id (t - b)).count.toNat, overtaken⟩ := by
  have small : (sc.block r s id (t - b)).count.toNat ≤ sources.length := by
    rw [copied.count]
    simp only [EvictScratch.block, UInt32.toNat_ofNat']
    exact Nat.mod_le _ _
  generalize hm : (sc.block r s id (t - b)).count.toNat = m at small
  have length : (sources.take m).length = m := List.length_take_of_le small
  constructor
  · simp only [Block.stored, hm]
    apply List.ext_getElem?
    intro i
    obtain inside | outside := Nat.lt_or_ge i m
    · have source := List.getElem?_eq_getElem (Nat.lt_of_lt_of_le inside small)
      have row := copied.rows i _ source
      rw [List.getElem?_map, List.getElem?_map, List.getElem?_range inside, List.getElem?_map,
        List.getElem?_take_of_lt inside, source]
      simp only [Option.map_some, EvictScratch.block_row, row]
    · rw [List.getElem?_eq_none (by simpa using outside),
        List.getElem?_eq_none (by rw [List.length_map, length]; exact outside)]
  · intro calm
    simp only [length]
    rw [copied.count] at small
    rw [copied.exact calm, List.take_range'_of_length_ge small]
  · simp only [length]
    rw [copied.count] at small
    apply passed.shrink
    · exact Nat.le_add_right b m
    · have := passed.le
      omega

end

theorem start_inv (sh : RingShape) (mem : Columns F) (sc : EvictScratch F) :
    (start sh mem sc).Inv where
  ring :=
    { ok := SensorRing.new_ok sh mem
      logged := rfl
      counted := rfl
      lapped := by
        intro j hj
        cases hj
      live := by
        intro idx hidx
        exact absurd hidx (Nat.not_lt_zero idx) }
  point := trivial
  handed := by
    intro p hp
    cases hp
  ordered := List.Pairwise.nil

theorem produce_inv {c : Race F} (inv : c.Inv) (ts : Int64) (vec : Nat → Elem F) (norm : F)
    (payload : Option (Nat → UInt8)) (scale : F) :
    (c.produce ts vec norm payload scale).Inv where
  ring := inv.ring.append
  point := by
    have before := inv.point
    unfold PointInv at before ⊢
    cases at_point : c.point with
    | idle =>
      simp only [produce, at_point]
    | scanning b e i maxTs windowMs =>
      simp only [produce, at_point, PassPoint.held, Option.isSome_some] at before ⊢
      exact held_append before _
    | advancing b e t cutoff =>
      simp only [produce, at_point, PassPoint.held, Option.isSome_some] at before ⊢
      exact ⟨held_append before.1 _, before.2⟩
    | reserving b t =>
      simp only [produce, at_point, PassPoint.held, Option.isSome_some] at before ⊢
      exact held_append before _
    | copying b t i =>
      simp only [produce, at_point, PassPoint.held, Option.isSome_some] at before ⊢
      exact ⟨held_append before.1 _, before.2⟩
    | writing b t =>
      simp only [produce, at_point, PassPoint.held, Option.isSome_none, Bool.and_false,
        Bool.or_false] at before ⊢
      exact ⟨before.1.append, before.2.1.append _ id, before.2.2⟩
  handed := by
    intro p hp
    exact (inv.handed p hp).append _
  ordered := inv.ordered

section
variable [FloatArith F] {c c' : Race F}

omit [FloatArith F] in
/-- The tail moves past the copied rows. -/
theorem Inv.advanceTail (inv : c.Inv) {b t : Nat} (at_point : c.point = .copying b t (t - b)) :
    Inv { c with ring := c.ring.advanceTail t, point := .writing b t } := by
  have point := inv.point
  simp only [PointInv, at_point] at point
  obtain ⟨⟨held, copied⟩, -⟩ := point
  have mono : c.ring.tail ≤ t := Nat.le_trans held.lo held.le
  refine ⟨inv.ring.advanceTail held.hi, ⟨held.advance inv.ring, copied, ?_⟩, ?_, inv.ordered⟩
  · intro p hp
    exact Nat.le_trans (inv.handed p hp).range.passed held.lo
  · intro p hp
    exact (inv.handed p hp).later mono

/-- The copied rows are handed over. -/
theorem Inv.write (inv : c.Inv) {b t : Nat} (at_point : c.point = .writing b t) (s : SensorId)
    (blockId : Nat) (rc : ErrorCode) :
    let blk := c.scratch.block c.ring s blockId (t - b)
    Inv { c with
      point := .idle
      handed := c.handed ++ [⟨b, rc, blk.stored, c.sources.take blk.count.toNat, c.overtaken⟩] } := by
  have point := inv.point
  simp only [PointInv, at_point] at point
  obtain ⟨passed, copied, after⟩ := point
  refine ⟨inv.ring, trivial, ?_, ?_⟩
  · intro p hp
    obtain hp | hp := List.mem_append.mp hp
    · exact inv.handed p hp
    · rw [List.mem_singleton.mp hp]
      exact handed_write passed copied s blockId rc
  · rw [List.pairwise_append]
    refine ⟨inv.ordered, List.pairwise_singleton _ _, ?_⟩
    intro p hp q hq
    rw [List.mem_singleton.mp hq]
    exact after p hp

/-- One step of either thread. -/
theorem step_inv {a : RaceAction F} (inv : c.Inv) (h : c.step a = some c') : c'.Inv := by
  have point := inv.point
  cases a with
  | append ts vec norm payload scale =>
    cases h
    exact produce_inv inv ts vec norm payload scale
  | snapshot windowMs =>
    simp only [step] at h
    split at h
    · have taken : HeldInv c.ring c.lost false c.ring.snapshot.1 c.ring.snapshot.2 :=
        snapshot_held inv.ring.ok
      split at h
      · cases h
        exact inv
      · split at h <;> cases h
        · exact ⟨inv.ring, ⟨taken, nothing_copied _ _ _ _ _⟩, inv.handed, inv.ordered⟩
        · exact ⟨inv.ring, ⟨taken, nothing_copied _ _ _ _ _⟩, inv.handed, inv.ordered⟩
    · cases h
  | read =>
    simp only [step] at h
    split at h
    · rename_i b e i maxTs windowMs at_point
      simp only [PointInv, at_point] at point
      split at h <;> cases h
      · exact ⟨inv.ring, point, inv.handed, inv.ordered⟩
      · exact ⟨inv.ring, ⟨point, Nat.le_refl b, point.1.le⟩, inv.handed, inv.ordered⟩
    · rename_i b e t cutoff at_point
      simp only [PointInv, at_point] at point
      obtain ⟨⟨held, copied⟩, lo, hi⟩ := point
      split at h
      · rename_i older
        cases h
        exact ⟨inv.ring, ⟨⟨held, copied⟩, Nat.le_succ_of_le lo, older.1⟩, inv.handed, inv.ordered⟩
      · split at h <;> cases h
        · exact ⟨inv.ring, trivial, inv.handed, inv.ordered⟩
        · exact ⟨inv.ring, ⟨held.shrink lo hi, copied⟩, inv.handed, inv.ordered⟩
    · cases h
  | reserve memory =>
    simp only [step] at h
    split at h
    · rename_i b t at_point
      simp only [PointInv, at_point] at point
      obtain ⟨held, copied⟩ := point
      have none : c.sources = [] := List.eq_nil_of_length_eq_zero copied.count
      cases h
      refine ⟨inv.ring, ?_, inv.handed, inv.ordered⟩
      simp only [PointInv, none]
      by_cases refused : memory < 4
      · rw [if_pos refused]
        trivial
      · rw [if_neg refused]
        exact ⟨⟨held, nothing_copied _ _ _ _ _⟩, Nat.zero_le _⟩
    · cases h
  | copy =>
    simp only [step] at h
    split at h
    · rename_i b t i at_point
      simp only [PointInv, at_point] at point
      split at h <;> cases h
      rename_i more
      exact ⟨inv.ring, ⟨⟨point.1.1, point.1.2.copyRow inv.ring point.1.1 more⟩, more⟩, inv.handed,
        inv.ordered⟩
    · cases h
  | advanceTail =>
    simp only [step] at h
    split at h
    · rename_i b t i at_point
      split at h <;> cases h
      rename_i done
      subst done
      exact inv.advanceTail at_point
    · cases h
  | write s blockId rc =>
    simp only [step] at h
    split at h
    · rename_i b t at_point
      cases h
      exact inv.write at_point s blockId rc
    · cases h

theorem run_inv {acts : List (RaceAction F)} (inv : c.Inv) (h : c.run acts = some c') :
    c'.Inv := by
  induction acts generalizing c with
  | nil =>
    cases h
    exact inv
  | cons a rest ih =>
    obtain ⟨next, stepped, tail⟩ := Option.bind_eq_some_iff.mp h
    exact ih (step_inv inv stepped) tail

end

end Race

end ChronosVector
