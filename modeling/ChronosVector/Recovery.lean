import ChronosVector.Engine

/-!
# Recovery of the hot window

`RehydrateSensorRing`: blocks are visited from the newest to the oldest and the
rows of each are replayed into a fresh ring. Only the end of the loop attaches
the ring to the slot; every `return` inside it discards what was replayed.

The scratch buffers hold exactly one block here: their sizing is not part of
this model.

* `Loaded`: a ring that holds given rows and nothing was pushed out of it;
* `replayRows_loaded`, `replayRows_full`: the loop over one block;
* `rehydrate_loaded`, `rehydrate_discarded`: when recovery attaches a ring, it
  holds every eligible row, newest block first; else the window stays empty.
-/

namespace ChronosVector

variable {F : Type} [FloatArith F]

/-- The norm recovery computes for a stored row. -/
def replayNorm (dtype : Dtype) (dim : Nat) (vec : Nat → Elem F) (scale : F) : F :=
  match dtype with
  | .float32 => l2NormF32 (fun j => (vec j).float) dim
  | .int8 =>
    let q := fun j => (vec j).int8
    scale * FloatArith.sqrt (FloatArith.ofInt (dotI8 q q dim))

/-- The replay of the first of the block's remaining rows. The pointers run on
into the rows behind it. -/
def SensorRing.replay (r : SensorRing F) (blk : StoredBlock F) (row : Row F)
    (rest : List (Row F)) : SensorRing F :=
  let vec := fun j => ((row :: rest).flatMap Row.vec).getD j default
  let scale := row.scale.getD 0
  let payload :=
    if 0 < blk.payloadSizeBytes then
      some fun j => ((row :: rest).flatMap Row.payload).getD j 0
    else none
  r.append row.ts vec (replayNorm blk.dtype blk.dim vec scale) payload scale

/-- The loop over the rows of a block. `filled` counts the rows replayed so far;
`none` is a `return` from the function. -/
def replayRows (capacity : Nat) (cutoff : Int64) (blk : StoredBlock F) :
    List (Row F) → SensorRing F → Nat → Option (SensorRing F × Nat)
  | [], r, filled => some (r, filled)
  | row :: rest, r, filled =>
    if row.ts < cutoff then replayRows capacity cutoff blk rest r filled
    else if capacity ≤ filled then none
    else replayRows capacity cutoff blk rest (r.replay blk row rest) (filled + 1)

section
variable (cfg : ValidConfig) (bk : Backend F) (env : Env F)

/-- The loop over the block ids, newest first. -/
def replayBlocks (s : SensorId) (cutoff : Int64) :
    List Nat → SensorRing F → Nat → Option (SensorRing F)
  | [], r, _ => some r
  | id :: rest, r, filled =>
    match bk.readBlock (env.storage.peekBlock s id) s id with
    | .error .corruption => replayBlocks s cutoff rest r filled
    | .error _ => none
    | .ok hdr =>
      if hdr.tEndMs < cutoff then none
      else if env.recoveryMemory s = false then none
      else
        match bk.readBlock (env.storage.readBlock s id) s id with
        | .error .corruption => replayBlocks s cutoff rest r filled
        | .error _ => none
        | .ok full =>
          match replayRows cfg.ringCapacity.toNat cutoff full full.rows r filled with
          | none => none
          | some (r', filled') => replayBlocks s cutoff rest r' filled'

/-- `RehydrateSensorRing`: the ring it leaves in the slot. -/
def rehydrateSensorRing (s : SensorId) (ids : List Nat) (cutoff : Int64) :
    Option (SensorRing F) :=
  if ids = [] then none
  else
    match env.ringMemory s with
    | none => none
    | some mem => replayBlocks cfg bk env s cutoff ids.reverse (SensorRing.new cfg.shape mem) 0

end

/-! ## What recovery loads -/

/-- The rows that are not older than the cutoff. -/
def eligibleRows (cutoff : Int64) (rows : List (Row F)) : List (Row F) :=
  rows.filter fun row => ¬ row.ts < cutoff

def StoredBlock.eligible (cutoff : Int64) (b : StoredBlock F) : List (Row F) :=
  eligibleRows cutoff b.rows

/-- A block of the engine's schema. -/
def StoredBlock.HasShape (b : StoredBlock F) (sh : RingShape) : Prop :=
  b.dim = sh.dim ∧ b.payloadSizeBytes = sh.payloadSize ∧ b.dtype = sh.dtype

instance (b : StoredBlock F) (sh : RingShape) : Decidable (b.HasShape sh) := by
  unfold StoredBlock.HasShape
  infer_instance

/-- The ring holds `rows` and has never overwritten or evicted anything. -/
structure Loaded (r : SensorRing F) (sh : RingShape) (rows : List (Row F)) : Prop where
  shape : r.shape = sh
  ok : r.Ok
  rows_eq : r.queue.items.map Entry.toRow = rows
  first : r.queue.first = 0
  dropped : r.queue.dropped = 0

section
variable {r : SensorRing F} {sh : RingShape} {rows rest : List (Row F)} {row : Row F}
  {blk : StoredBlock F} {cutoff : Int64}

omit [FloatArith F] in
theorem loaded_new (sh : RingShape) (mem : Columns F) : Loaded (SensorRing.new sh mem) sh [] :=
  ⟨rfl, SensorRing.new_ok _ _, by simp, by simp [BoundedQueue.empty], by simp [BoundedQueue.empty]⟩

omit [FloatArith F] in
theorem Loaded.length (h : Loaded r sh rows) : r.queue.items.length = rows.length := by
  rw [← h.rows_eq, List.length_map]

omit [FloatArith F] in
/-- Reading a row's section through a pointer that runs on. -/
theorem load_prefix {α : Type} (xs ys : List α) (zero : α) {n : Nat} (hn : xs.length = n) :
    Cells.load (fun j => (xs ++ ys).getD j zero) 0 n = xs := by
  apply List.ext_getElem
  · simp [hn]
  · intro i h1 h2
    rw [Cells.load_getElem, Nat.zero_add, List.getD_eq_getElem?_getD,
      List.getElem?_append_left h2, List.getElem?_eq_getElem h2, Option.getD_some]

/-- Replaying a row of the engine's schema puts that row back. -/
theorem stored_replay (hb : blk.HasShape r.shape)
    (fits : row.Fits blk.dim blk.payloadSizeBytes blk.dtype) (norm : F) :
    (r.stored row.ts (fun j => ((row :: rest).flatMap Row.vec).getD j default) norm
      (if 0 < blk.payloadSizeBytes then
        some fun j => ((row :: rest).flatMap Row.payload).getD j 0 else none)
      (row.scale.getD 0)).toRow = row := by
  obtain ⟨hdim, hpay, hdt⟩ := hb
  obtain ⟨hv, hp, hs⟩ := fits
  rw [hdim] at hv
  rw [hpay] at hp
  rw [hdt] at hs
  have hscale : (if r.shape.dtype = .int8 then some (row.scale.getD 0) else none) = row.scale := by
    cases hrow : row.scale with
    | none => simp_all
    | some x => simp_all
  refine Row.ext rfl ?_ hscale ?_
  · simp only [SensorRing.stored, List.flatMap_cons]
    exact load_prefix _ _ _ hv
  · simp only [SensorRing.stored, hpay]
    split
    · rename_i hz
      have h0 : r.shape.payloadSize = 0 := by
        by_contra hne
        simp [Nat.pos_of_ne_zero hne] at hz
      rw [h0] at hp ⊢
      rw [List.length_eq_zero_iff.mp hp]
      rfl
    · rename_i p hp'
      split at hp'
      · cases hp'
        exact load_prefix _ _ _ hp
      · cases hp'

theorem Loaded.replay (h : Loaded r sh rows) (hroom : rows.length < sh.capacity)
    (hb : blk.HasShape sh) (fits : row.Fits blk.dim blk.payloadSizeBytes blk.dtype) :
    Loaded (r.replay blk row rest) sh (rows ++ [row]) := by
  have hsh := h.shape
  subst hsh
  have hq : (r.replay blk row rest).queue = r.queue.push r.shape.capacity _ :=
    SensorRing.queue_append h.ok
  have hlen := h.length
  refine ⟨rfl, SensorRing.append_ok h.ok, ?_, ?_, ?_⟩
  all_goals
    rw [hq, BoundedQueue.push, if_neg (by omega)]
  · simp only [List.map_append, h.rows_eq, List.map_cons, List.map_nil]
    rw [stored_replay hb fits]
  · exact h.first
  · exact h.dropped

/-- A block whose eligible rows fit is replayed whole. -/
theorem replayRows_loaded {l : List (Row F)} (h : Loaded r sh rows) (hb : blk.HasShape sh)
    (fits : ∀ row ∈ l, row.Fits blk.dim blk.payloadSizeBytes blk.dtype)
    (room : rows.length + (eligibleRows cutoff l).length ≤ sh.capacity) :
    ∃ r', replayRows sh.capacity cutoff blk l r rows.length =
        some (r', (rows ++ eligibleRows cutoff l).length) ∧
      Loaded r' sh (rows ++ eligibleRows cutoff l) := by
  induction l generalizing r rows with
  | nil => exact ⟨r, by simp [replayRows, eligibleRows], by simpa [eligibleRows] using h⟩
  | cons row rest ih =>
    have fits' := fun x hx => fits x (List.mem_cons_of_mem _ hx)
    by_cases old : row.ts < cutoff
    · have hel : eligibleRows cutoff (row :: rest) = eligibleRows cutoff rest := by
        simp [eligibleRows, old]
      rw [hel] at room ⊢
      simpa only [replayRows, old, if_true] using ih h fits' room
    · have hel : eligibleRows cutoff (row :: rest) = row :: eligibleRows cutoff rest :=
        List.filter_cons_of_pos (by rwa [decide_eq_true_eq])
      rw [hel] at room ⊢
      rw [List.length_cons] at room
      have hnext : Loaded (r.replay blk row rest) sh (rows ++ [row]) :=
        h.replay (by omega) hb (fits row List.mem_cons_self)
      have hfull : ¬ sh.capacity ≤ rows.length := by omega
      obtain ⟨r', heq, hl⟩ := ih hnext fits' (by
        rw [List.length_append, List.length_singleton]
        omega)
      simp only [List.append_assoc, List.singleton_append] at heq hl
      refine ⟨r', ?_, hl⟩
      simp only [replayRows, old, hfull, if_false]
      rwa [List.length_append, List.length_singleton] at heq

omit [FloatArith F] in
theorem eligibleRows_cons_length_le (cutoff : Int64) (row : Row F) (rest : List (Row F)) :
    (eligibleRows cutoff (row :: rest)).length ≤ (eligibleRows cutoff rest).length + 1 := by
  simp only [eligibleRows, List.filter_cons]
  split <;> simp

/-- A block with more eligible rows than there is room for ends the recovery. -/
theorem replayRows_full {l : List (Row F)} {capacity filled : Nat} (hf : filled ≤ capacity)
    (excess : capacity < filled + (eligibleRows cutoff l).length) :
    replayRows capacity cutoff blk l r filled = none := by
  induction l generalizing r filled with
  | nil => simp [eligibleRows] at excess; omega
  | cons row rest ih =>
    by_cases old : row.ts < cutoff
    · have hel : eligibleRows cutoff (row :: rest) = eligibleRows cutoff rest := by
        simp [eligibleRows, old]
      rw [hel] at excess
      simpa only [replayRows, old, if_true] using ih hf excess
    · simp only [replayRows, old, if_false]
      split
      · rfl
      · rename_i hroom
        have := eligibleRows_cons_length_le cutoff row rest
        exact ih (by omega) (by omega)

end

section
variable {cfg : ValidConfig} {bk : Backend F} {env : Env F} {s : SensorId} {cutoff : Int64}
  {r : SensorRing F} {rows : List (Row F)} {ids : List Nat} {blks : List (StoredBlock F)}

/-- What the loop over the rows does with the first one, if it returns a ring. -/
theorem replayRows_cons {capacity filled n : Nat} {blk : StoredBlock F} {row : Row F}
    {rest : List (Row F)} {r' : SensorRing F}
    (h : replayRows capacity cutoff blk (row :: rest) r filled = some (r', n)) :
    replayRows capacity cutoff blk rest r filled = some (r', n) ∨
      replayRows capacity cutoff blk rest (r.replay blk row rest) (filled + 1) = some (r', n) := by
  simp only [replayRows] at h
  split at h
  · exact .inl h
  · split at h
    · cases h
    · exact .inr h

/-- What the loop over the blocks does with the first one: it skips a corrupt
block, and replays one that it can read. -/
theorem replayBlocks_cons {id : Nat} {rest : List Nat} {filled : Nat} {r' : SensorRing F}
    (h : replayBlocks cfg bk env s cutoff (id :: rest) r filled = some r') :
    replayBlocks cfg bk env s cutoff rest r filled = some r' ∨
      ∃ full r₁ n, bk.readBlock (env.storage.readBlock s id) s id = .ok full ∧
        replayRows cfg.ringCapacity.toNat cutoff full full.rows r filled = some (r₁, n) ∧
        replayBlocks cfg bk env s cutoff rest r₁ n = some r' := by
  simp only [replayBlocks] at h
  split at h
  · exact .inl h
  · cases h
  split at h
  · cases h
  split at h
  · cases h
  split at h
  · exact .inl h
  · cases h
  rename_i full read
  split at h
  · cases h
  rename_i r₁ n rows
  exact .inr ⟨full, r₁, n, read, rows, h⟩

/-- A ring that recovery attaches was new before the replay. -/
theorem rehydrate_replays (h : rehydrateSensorRing cfg bk env s ids cutoff = some r) :
    ∃ mem, replayBlocks cfg bk env s cutoff ids.reverse (.new cfg.shape mem) 0 = some r := by
  unfold rehydrateSensorRing at h
  split at h
  · cases h
  split at h
  · cases h
  · exact ⟨_, h⟩

theorem replayRows_ring {capacity filled n : Nat} {blk : StoredBlock F} {l : List (Row F)}
    {r' : SensorRing F} (h : replayRows capacity cutoff blk l r filled = some (r', n))
    (ok : r.Ok) : r'.shape = r.shape ∧ r'.Ok := by
  induction l generalizing r filled with
  | nil =>
    cases h
    exact ⟨rfl, ok⟩
  | cons row rest ih =>
    obtain old | replayed := replayRows_cons h
    · exact ih old ok
    · have hnext := ih replayed (SensorRing.append_ok ok)
      exact hnext

theorem replayBlocks_ring {filled : Nat} {r' : SensorRing F}
    (h : replayBlocks cfg bk env s cutoff ids r filled = some r') (ok : r.Ok) :
    r'.shape = r.shape ∧ r'.Ok := by
  induction ids generalizing r filled with
  | nil =>
    cases h
    exact ⟨rfl, ok⟩
  | cons id rest ih =>
    obtain skipped | ⟨full, r₁, n, -, rows, later⟩ := replayBlocks_cons h
    · exact ih skipped ok
    · obtain ⟨hsh, hok⟩ := replayRows_ring rows ok
      obtain ⟨hsh', hok'⟩ := ih later hok
      exact ⟨hsh'.trans hsh, hok'⟩

/-- A ring that recovery attaches is one of the engine's. -/
theorem rehydrate_ring (h : rehydrateSensorRing cfg bk env s ids cutoff = some r) :
    r.shape = cfg.shape ∧ r.Ok := by
  obtain ⟨mem, replayed⟩ := rehydrate_replays h
  exact replayBlocks_ring replayed (SensorRing.new_ok _ _)

/-- Both reads of a block return its content. -/
def Reads (bk : Backend F) (env : Env F) (s : SensorId) (id : Nat) (b : StoredBlock F) : Prop :=
  bk.readBlock (env.storage.peekBlock s id) s id = .ok b ∧
  bk.readBlock (env.storage.readBlock s id) s id = .ok b

/-- Recovery goes through when no block is stale and everything fits. -/
theorem replayBlocks_loaded (h : Loaded r cfg.shape rows)
    (reads : List.Forall₂ (Reads bk env s) ids blks)
    (shape : ∀ b ∈ blks, b.HasShape cfg.shape) (live : ∀ b ∈ blks, ¬ b.tEndMs < cutoff)
    (memory : env.recoveryMemory s = true)
    (room : rows.length + (blks.flatMap (StoredBlock.eligible cutoff)).length ≤
      cfg.shape.capacity) :
    ∃ r', replayBlocks cfg bk env s cutoff ids r rows.length = some r' ∧
      Loaded r' cfg.shape (rows ++ blks.flatMap (StoredBlock.eligible cutoff)) := by
  induction reads generalizing r rows with
  | nil => exact ⟨r, rfl, by simpa using h⟩
  | @cons id b ids blks hr reads ih =>
    obtain ⟨hpeek, hread⟩ := hr
    obtain ⟨hb, shape'⟩ := List.forall_mem_cons.mp shape
    obtain ⟨hlive, live'⟩ := List.forall_mem_cons.mp live
    rw [List.flatMap_cons, List.length_append] at room
    have fit : rows.length + (eligibleRows cutoff b.rows).length ≤ cfg.shape.capacity := by
      simp only [StoredBlock.eligible] at room
      omega
    obtain ⟨r₁, heq, h₁⟩ := replayRows_loaded h hb b.fits fit
    obtain ⟨r', heq', h'⟩ := ih h₁ shape' live' (by
      simp only [StoredBlock.eligible, List.length_append] at room ⊢
      omega)
    refine ⟨r', ?_, by simpa only [List.flatMap_cons, StoredBlock.eligible,
      List.append_assoc] using h'⟩
    have hcap : cfg.ringCapacity.toNat = cfg.shape.capacity := rfl
    simp only [replayBlocks, hpeek, hread, hlive, memory, if_false, hcap, heq]
    exact heq'

/-- A stale block, a lack of room or of memory makes recovery discard the ring. -/
theorem replayBlocks_discarded (h : Loaded r cfg.shape rows)
    (hf : rows.length ≤ cfg.shape.capacity)
    (reads : List.Forall₂ (Reads bk env s) ids blks)
    (shape : ∀ b ∈ blks, b.HasShape cfg.shape)
    (bad : (∃ b ∈ blks, b.tEndMs < cutoff) ∨ (blks ≠ [] ∧ env.recoveryMemory s = false) ∨
      cfg.shape.capacity <
        rows.length + (blks.flatMap (StoredBlock.eligible cutoff)).length) :
    replayBlocks cfg bk env s cutoff ids r rows.length = none := by
  induction reads generalizing r rows with
  | nil => simp at bad; omega
  | @cons id b ids blks hr reads ih =>
    obtain ⟨hpeek, hread⟩ := hr
    obtain ⟨hb, shape'⟩ := List.forall_mem_cons.mp shape
    have hcap : cfg.ringCapacity.toNat = cfg.shape.capacity := rfl
    simp only [replayBlocks, hpeek, hread, hcap]
    by_cases stale : b.tEndMs < cutoff
    · simp only [stale, if_true]
    by_cases memory : env.recoveryMemory s = false
    · simp only [stale, memory, if_true, if_false]
    simp only [stale, memory, reduceCtorEq, if_false]
    by_cases excess : cfg.shape.capacity < rows.length + (eligibleRows cutoff b.rows).length
    · rw [replayRows_full hf excess]
    · obtain ⟨r₁, heq, h₁⟩ := replayRows_loaded h hb b.fits (Nat.le_of_not_lt excess)
      rw [heq]
      apply ih h₁ (by rw [List.length_append]; omega) shape' ?_
      obtain ⟨b', hb', st⟩ | ⟨-, mem⟩ | room := bad
      · obtain rfl | hb' := List.mem_cons.mp hb'
        · exact absurd st stale
        · exact .inl ⟨b', hb', st⟩
      · exact absurd mem memory
      · refine .inr (.inr ?_)
        simp only [List.flatMap_cons, StoredBlock.eligible, List.length_append] at room ⊢
        omega

/-- Whatever a replay of a block returns, it loaded the block's eligible rows. -/
theorem replayRows_sound {blk : StoredBlock F} {l : List (Row F)} {r' : SensorRing F} {n : Nat}
    (h : Loaded r cfg.shape rows) (hb : blk.HasShape cfg.shape)
    (fits : ∀ row ∈ l, row.Fits blk.dim blk.payloadSizeBytes blk.dtype)
    (hrun : replayRows cfg.shape.capacity cutoff blk l r rows.length = some (r', n)) :
    n = (rows ++ eligibleRows cutoff l).length ∧
      Loaded r' cfg.shape (rows ++ eligibleRows cutoff l) := by
  have hf : rows.length ≤ cfg.shape.capacity := by
    rw [← h.length, ← h.shape]
    exact SensorRing.window_length_le h.ok
  by_cases room : rows.length + (eligibleRows cutoff l).length ≤ cfg.shape.capacity
  · obtain ⟨r₁, heq, hl⟩ := replayRows_loaded h hb fits room
    rw [heq] at hrun
    cases hrun
    exact ⟨rfl, hl⟩
  · rw [replayRows_full hf (by omega)] at hrun
    cases hrun

theorem replayBlocks_sound {db : ColdTier F} {l : List (Nat × StoredBlock F)} {r' : SensorRing F}
    (h : Loaded r cfg.shape rows) (gets : ∀ p ∈ l, (db.blocks s).get p.1 = some p.2)
    (shape : ∀ p ∈ l, p.2.HasShape cfg.shape)
    (hrun : replayBlocks cfg (.rocksdb db) env s cutoff (l.map Prod.fst) r rows.length =
      some r') :
    ∃ blks : List (StoredBlock F), blks.Sublist (l.map Prod.snd) ∧
      Loaded r' cfg.shape (rows ++ blks.flatMap (StoredBlock.eligible cutoff)) := by
  induction l generalizing r rows with
  | nil =>
    cases hrun
    exact ⟨[], .slnil, by simpa using h⟩
  | cons p rest ih =>
    obtain ⟨hp, gets'⟩ := List.forall_mem_cons.mp gets
    obtain ⟨hsh, shape'⟩ := List.forall_mem_cons.mp shape
    obtain skipped | ⟨full, r₁, n, hread, hrows, later⟩ := replayBlocks_cons hrun
    · obtain ⟨blks, hsub, hl⟩ := ih h gets' shape' skipped
      exact ⟨blks, hsub.cons _, hl⟩
    -- the block that was read is the one listed
    have hfull := Backend.readBlock_ok hread
    rw [hp] at hfull
    cases hfull
    obtain ⟨rfl, h₁⟩ := replayRows_sound h hsh p.2.fits hrows
    obtain ⟨blks, hsub, hl⟩ := ih h₁ gets' shape' later
    refine ⟨p.2 :: blks, hsub.cons_cons _, ?_⟩
    simpa only [List.flatMap_cons, StoredBlock.eligible, List.append_assoc] using hl

/-- **What recovery loads is persisted.** Whatever the backend answers, an
attached ring holds the eligible rows of some of the blocks, newest first. -/
theorem rehydrate_sound {db : ColdTier F}
    (shape : ∀ b ∈ (db.blocks s).values, b.HasShape cfg.shape)
    (hrun : rehydrateSensorRing cfg (.rocksdb db) env s (db.blocks s).keys cutoff = some r) :
    ∃ blks : List (StoredBlock F), blks.Sublist (db.blocks s).values.reverse ∧
      Loaded r cfg.shape (blks.flatMap (StoredBlock.eligible cutoff)) := by
  obtain ⟨mem, replayed⟩ := rehydrate_replays hrun
  rw [SortedMap.keys, ← List.map_reverse] at replayed
  rw [SortedMap.values, ← List.map_reverse]
  refine replayBlocks_sound (loaded_new cfg.shape mem) (fun p hp => ?_) (fun p hp => ?_) replayed
  · exact SortedMap.get_eq_some.mpr (List.mem_reverse.mp hp)
  · exact shape p.2 (List.mem_map_of_mem (List.mem_reverse.mp hp))

end

/-! ## The window after recovery -/

/-- The rows in the hot window of a slot. -/
def windowRows : Option (SensorRing F) → List (Row F)
  | none => []
  | some r => r.window.map Entry.toRow

/-- Every block of a sensor can be read, both times. -/
def Readable (env : Env F) (s : SensorId) : Prop :=
  ∀ id, env.storage.peekBlock s id = .ok ∧ env.storage.readBlock s id = .ok

/-- The allocator serves the ring and the scratch of a recovery. -/
def RecoveryAllocates (env : Env F) (s : SensorId) : Prop :=
  (env.ringMemory s).isSome ∧ env.recoveryMemory s = true

section
variable {cfg : ValidConfig} {db : ColdTier F} {env : Env F} {s : SensorId} {cutoff : Int64}

omit [FloatArith F] in
theorem reads_all (readable : Readable env s) :
    List.Forall₂ (Reads (.rocksdb db) env s) (db.blocks s).keys (db.blocks s).values := by
  rw [SortedMap.keys, SortedMap.values, List.forall₂_map_left_iff, List.forall₂_map_right_iff,
    List.forall₂_same]
  intro p hp
  have hget : (db.blocks s).get p.1 = some p.2 := SortedMap.get_eq_some.mpr hp
  obtain ⟨hpeek, hread⟩ := readable p.1
  simp only [Reads, Backend.readBlock, hpeek, hread, if_true, hget, and_self]

/-- The newest-first list of what a recovery at `cutoff` may load. -/
def replayOrder (blks : List (StoredBlock F)) (cutoff : Int64) : List (Row F) :=
  blks.reverse.flatMap (StoredBlock.eligible cutoff)

/-- The same rows in the order in which they were appended. -/
def appendOrder (blks : List (StoredBlock F)) (cutoff : Int64) : List (Row F) :=
  blks.flatMap (StoredBlock.eligible cutoff)

omit [FloatArith F] in
theorem replayOrder_perm (blks : List (StoredBlock F)) (cutoff : Int64) :
    (replayOrder blks cutoff).Perm (appendOrder blks cutoff) :=
  (List.reverse_perm blks).flatMap_right _

/-- **A complete recovery.** -/
theorem rehydrate_loaded (readable : Readable env s) (alloc : RecoveryAllocates env s)
    (shape : ∀ b ∈ (db.blocks s).values, b.HasShape cfg.shape)
    (live : ∀ b ∈ (db.blocks s).values, ¬ b.tEndMs < cutoff)
    (room : (appendOrder (db.blocks s).values cutoff).length ≤ cfg.shape.capacity)
    (some_ids : (db.blocks s).keys ≠ []) :
    ∃ r, rehydrateSensorRing cfg (.rocksdb db) env s (db.blocks s).keys cutoff = some r ∧
      Loaded r cfg.shape (replayOrder (db.blocks s).values cutoff) := by
  obtain ⟨ring, memory⟩ := alloc
  obtain ⟨mem, hmem⟩ := Option.isSome_iff_exists.mp ring
  have hperm := (replayOrder_perm (db.blocks s).values cutoff).length_eq
  obtain ⟨r, heq, h⟩ := replayBlocks_loaded
    (loaded_new cfg.shape mem) (List.rel_reverse (reads_all readable))
    (fun b hb => shape b (List.mem_reverse.mp hb)) (fun b hb => live b (List.mem_reverse.mp hb))
    memory (by simpa [replayOrder] using hperm.trans_le room)
  refine ⟨r, ?_, by simpa [replayOrder] using h⟩
  simp only [rehydrateSensorRing, some_ids, if_false, hmem]
  exact heq

/-- **A discarded recovery.** -/
theorem rehydrate_discarded (readable : Readable env s)
    (shape : ∀ b ∈ (db.blocks s).values, b.HasShape cfg.shape)
    (bad : (∃ b ∈ (db.blocks s).values, b.tEndMs < cutoff) ∨ ¬ RecoveryAllocates env s ∨
      cfg.shape.capacity < (appendOrder (db.blocks s).values cutoff).length) :
    rehydrateSensorRing cfg (.rocksdb db) env s (db.blocks s).keys cutoff = none := by
  unfold rehydrateSensorRing
  split
  · rfl
  rename_i some_ids
  split
  · rfl
  rename_i mem hmem
  refine replayBlocks_discarded (loaded_new cfg.shape mem) (Nat.zero_le _)
    (List.rel_reverse (reads_all readable)) (fun b hb => shape b (List.mem_reverse.mp hb)) ?_
  obtain ⟨b, hb, st⟩ | alloc | room := bad
  · exact .inl ⟨b, List.mem_reverse.mpr hb, st⟩
  · refine .inr (.inl ⟨?_, ?_⟩)
    · simp only [SortedMap.keys, List.map_eq_nil_iff] at some_ids
      simpa [SortedMap.values] using some_ids
    · simpa [RecoveryAllocates, hmem] using alloc
  · refine .inr (.inr ?_)
    have hperm := (replayOrder_perm (db.blocks s).values cutoff).length_eq
    simpa [replayOrder] using room.trans_eq hperm.symm

end

end ChronosVector
