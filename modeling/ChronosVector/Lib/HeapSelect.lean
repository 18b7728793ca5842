import Mathlib.Data.List.Sort

/-!
# The best of a list by a bounded heap

Selecting the best `k` elements of a list: a heap of the best seen so far with
the worst of them in front, and a final sort. The heap and the sort are a
library's, known by their contracts only.

* `StrictWeak`: what a comparison has to be on the elements it is used on;
* `HeapOps.Standard`: the contracts of the three library operations;
* `HeapOps.Rearranges`: what of them is left when only the elements matter;
* `select_exact`: the selection returns the best `k` in order, whichever library
  it is compiled with;
* `select_among`: it returns elements of the list, whatever the comparison;
* `HeapOps.ordered_standard`: a heap kept sorted meets the contracts.
-/

namespace HeapSelect

variable {α : Type}

/-- `lt` is a strict weak order on the elements of `xs`: as a total order, except
that elements may be equivalent without being equal. -/
structure StrictWeak (lt : α → α → Bool) (xs : List α) : Prop where
  asymm : ∀ a ∈ xs, ∀ b ∈ xs, lt a b = true → lt b a = false
  trans : ∀ a ∈ xs, ∀ b ∈ xs, ∀ c ∈ xs, lt a b = false → lt b c = false → lt a c = false

section StrictWeak
variable {lt : α → α → Bool} {xs ys : List α}

theorem StrictWeak.mono (weak : StrictWeak lt xs) (sub : ∀ a ∈ ys, a ∈ xs) : StrictWeak lt ys where
  asymm := fun a ha b hb => weak.asymm a (sub a ha) b (sub b hb)
  trans := fun a ha b hb c hc => weak.trans a (sub a ha) b (sub b hb) c (sub c hc)

theorem StrictWeak.perm (weak : StrictWeak lt xs) (h : ys.Perm xs) : StrictWeak lt ys :=
  weak.mono fun _ ha => h.mem_iff.mp ha

theorem StrictWeak.swap (weak : StrictWeak lt xs) : StrictWeak (fun a b => lt b a) xs where
  asymm := fun a ha b hb => weak.asymm b hb a ha
  trans := fun a ha b hb c hc ab bc => weak.trans c hc b hb a ha bc ab

/-- A comparison of keys is as good as the comparison it uses. -/
theorem StrictWeak.on_key {β : Type} (key : β → α) {zs : List β}
    (weak : StrictWeak lt (zs.map key)) : StrictWeak (fun a b => lt (key a) (key b)) zs where
  asymm := fun _ ha _ hb =>
    weak.asymm _ (List.mem_map_of_mem ha) _ (List.mem_map_of_mem hb)
  trans := fun _ ha _ hb _ hc =>
    weak.trans _ (List.mem_map_of_mem ha) _ (List.mem_map_of_mem hb) _ (List.mem_map_of_mem hc)

/-- The order of a linear order is one on every list. -/
theorem strictWeak_of_linear [LinearOrder α] (h : ∀ a b, lt a b = decide (a < b)) :
    StrictWeak lt xs where
  asymm := by
    intro a _ b _ ab
    simp only [h, decide_eq_true_eq, decide_eq_false_iff_not] at ab ⊢
    exact lt_asymm ab
  trans := by
    intro a _ b _ c _ ab bc
    simp only [h, decide_eq_false_iff_not, not_lt] at ab bc ⊢
    exact bc.trans ab

end StrictWeak

/-! ## The library's operations -/

/-- The heap and sort operations of a standard library, over whole ranges. -/
structure HeapOps (α : Type) where
  pushHeap : (α → α → Bool) → List α → List α
  popHeap : (α → α → Bool) → List α → List α
  sort : (α → α → Bool) → List α → List α

/-- **The contracts.** `Heap` is whichever organisation of a range the library
calls a heap; of it the contracts only say that no element is greater than the
front, and that the operations keep it. -/
structure HeapOps.Standard (ops : HeapOps α) (Heap : (α → α → Bool) → List α → Prop) : Prop where
  empty : ∀ lt, Heap lt []
  front : ∀ lt x xs, StrictWeak lt (x :: xs) → Heap lt (x :: xs) → ∀ a ∈ xs, lt x a = false
  push : ∀ lt x xs, StrictWeak lt (xs ++ [x]) → Heap lt xs →
    (ops.pushHeap lt (xs ++ [x])).Perm (xs ++ [x]) ∧ Heap lt (ops.pushHeap lt (xs ++ [x]))
  pop : ∀ lt x xs, StrictWeak lt (x :: xs) → Heap lt (x :: xs) →
    ∃ rest, ops.popHeap lt (x :: xs) = rest ++ [x] ∧ rest.Perm xs ∧ Heap lt rest
  sort : ∀ lt xs, StrictWeak lt xs →
    (ops.sort lt xs).Perm xs ∧ (ops.sort lt xs).Pairwise fun a b => lt b a = false

/-- The operations move elements, on the ranges for which they are `Specified`. -/
structure HeapOps.Rearranges (ops : HeapOps α) (Specified Heap : (α → α → Bool) → List α → Prop) :
    Prop where
  among : ∀ lt xs ys, Specified lt xs → (∀ a ∈ ys, a ∈ xs) → Specified lt ys
  empty : ∀ lt, Heap lt []
  push : ∀ lt x xs, Specified lt (xs ++ [x]) → Heap lt xs →
    (ops.pushHeap lt (xs ++ [x])).Perm (xs ++ [x]) ∧ Heap lt (ops.pushHeap lt (xs ++ [x]))
  pop : ∀ lt x xs, Specified lt (x :: xs) → Heap lt (x :: xs) →
    (ops.popHeap lt (x :: xs)).Perm (x :: xs) ∧ Heap lt (ops.popHeap lt (x :: xs)).dropLast
  sort : ∀ lt xs, Specified lt xs → (ops.sort lt xs).Perm xs

theorem HeapOps.Standard.rearranges {ops : HeapOps α} {Heap : (α → α → Bool) → List α → Prop}
    (contract : ops.Standard Heap) : ops.Rearranges StrictWeak Heap where
  among _ _ _ weak sub := weak.mono sub
  empty := contract.empty
  push := contract.push
  pop lt x xs weak heap := by
    obtain ⟨rest, popped, same, heap'⟩ := contract.pop lt x xs weak heap
    rw [popped, List.dropLast_concat]
    exact ⟨(List.perm_append_singleton x rest).trans (same.cons x), heap'⟩
  sort lt xs weak := (contract.sort lt xs weak).1

/-! ## The selection -/

/-- One element offered to a heap of the best `k`. -/
def step (ops : HeapOps α) (better : α → α → Bool) (k : Nat) (heap : List α) (x : α) : List α :=
  if heap.length < k then ops.pushHeap better (heap ++ [x])
  else
    match heap with
    | [] => []
    | worst :: _ =>
      if better x worst then ops.pushHeap better ((ops.popHeap better heap).dropLast ++ [x])
      else heap

def select (ops : HeapOps α) (better : α → α → Bool) (k : Nat) (xs : List α) : List α :=
  ops.sort better (xs.foldl (step ops better k) [])

variable {ops : HeapOps α} {Specified Heap : (α → α → Bool) → List α → Prop}
  {better : α → α → Bool} {k : Nat} {seen heap out : List α} {x : α}

/-! ### Whatever the comparison -/

/-- `heap` holds as many of the elements seen as it can. -/
structure Held (Heap : (α → α → Bool) → List α → Prop) (better : α → α → Bool) (k : Nat)
    (seen heap : List α) : Prop where
  size : heap.length = min k seen.length
  heaped : Heap better heap
  among : ∀ a ∈ heap, a ∈ seen

theorem Held.start (contract : ops.Rearranges Specified Heap) : Held Heap better k [] [] :=
  ⟨(Nat.min_zero k).symm, contract.empty better, by simp⟩

/-- The new element goes into the heap, behind `kept` ones of it. -/
theorem Held.push {kept : List α} (contract : ops.Rearranges Specified Heap)
    (specified : Specified better (seen ++ [x])) (heaped : Heap better kept)
    (among : ∀ a ∈ kept, a ∈ seen) (size : kept.length + 1 = min k (seen.length + 1)) :
    Held Heap better k (seen ++ [x]) (ops.pushHeap better (kept ++ [x])) := by
  have now : ∀ a ∈ kept ++ [x], a ∈ seen ++ [x] := by
    intro a ha
    obtain ha | ha := List.mem_append.mp ha
    · exact List.mem_append_left _ (among a ha)
    · exact List.mem_append_right _ ha
  obtain ⟨same, pushed⟩ :=
    contract.push better x kept (contract.among _ _ _ specified now) heaped
  refine ⟨?_, pushed, fun a ha => now a (same.mem_iff.mp ha)⟩
  rw [same.length_eq, List.length_append, List.length_append, List.length_singleton]
  exact size

theorem step_held (contract : ops.Rearranges Specified Heap) (held : Held Heap better k seen heap)
    (specified : Specified better (seen ++ [x])) :
    Held Heap better k (seen ++ [x]) (step ops better k heap x) := by
  have size := held.size
  have old : ∀ a ∈ heap, a ∈ seen ++ [x] := fun a ha => List.mem_append_left _ (held.among a ha)
  have total : (seen ++ [x]).length = seen.length + 1 := List.length_append
  unfold step
  split
  · exact .push contract specified held.heaped held.among (by omega)
  · cases heap with
    | nil => exact ⟨by simp only [List.length_nil] at *; omega, held.heaped, old⟩
    | cons worst rest =>
      dsimp only
      split
      · obtain ⟨same, left⟩ := contract.pop better worst rest
          (contract.among _ _ _ specified old) held.heaped
        apply Held.push contract specified left
        · intro a ha
          exact held.among a (same.mem_iff.mp (List.dropLast_subset _ ha))
        · rw [List.length_dropLast, same.length_eq]
          simp only [List.length_cons] at *
          omega
      · exact ⟨by omega, held.heaped, old⟩

theorem foldl_held (contract : ops.Rearranges Specified Heap) {xs : List α}
    (held : Held Heap better k seen heap) (specified : Specified better (seen ++ xs)) :
    Held Heap better k (seen ++ xs) (xs.foldl (step ops better k) heap) := by
  induction xs generalizing seen heap with
  | nil => rwa [List.append_nil]
  | cons x rest ih =>
    rw [List.append_cons] at specified ⊢
    have first := contract.among _ _ (seen ++ [x]) specified fun a => List.mem_append_left rest
    exact ih (step_held contract held first) specified

/-- **The fold holds what it was offered**, as much of it as it can. -/
theorem offered_held (contract : ops.Rearranges Specified Heap) {xs : List α}
    (specified : Specified better xs) :
    Held Heap better k xs (xs.foldl (step ops better k) []) := by
  exact foldl_held contract (.start contract) specified

theorem select_among (contract : ops.Rearranges Specified Heap) {xs : List α}
    (specified : Specified better xs) {a : α} (ha : a ∈ select ops better k xs) : a ∈ xs := by
  have held := offered_held (k := k) contract specified
  have same := contract.sort better _ (contract.among _ _ _ specified held.among)
  exact held.among a (same.mem_iff.mp ha)

/-! ### With a strict weak order -/

/-- `heap` holds the best `k` of the elements seen, and `out` the others. -/
structure Kept (Heap : (α → α → Bool) → List α → Prop) (better : α → α → Bool) (k : Nat)
    (seen heap out : List α) : Prop extends Held Heap better k seen heap where
  split : (heap ++ out).Perm seen
  best : ∀ a ∈ heap, ∀ b ∈ out, better b a = false

theorem Kept.mem_out (kept : Kept Heap better k seen heap out) {a : α} (ha : a ∈ out) :
    a ∈ seen := kept.split.mem_iff.mp (List.mem_append_right _ ha)

/-- As long as there is room nothing is left out. -/
theorem Kept.room (kept : Kept Heap better k seen heap out) (room : heap.length < k) : out = [] := by
  have lengths := kept.split.length_eq
  have size := kept.size
  rw [List.length_append] at lengths
  apply List.eq_nil_of_length_eq_zero
  omega

/-- The heap has room. -/
theorem Kept.push (contract : ops.Standard Heap) (kept : Kept Heap better k seen heap out)
    (weak : StrictWeak better (seen ++ [x])) (room : heap.length < k) :
    Kept Heap better k (seen ++ [x]) (ops.pushHeap better (heap ++ [x])) [] := by
  have all : heap.Perm seen := by
    have split := kept.split
    rwa [kept.room room, List.append_nil] at split
  have all' : (heap ++ [x]).Perm (seen ++ [x]) := all.append_right [x]
  have size := kept.size
  have held := Held.push (k := k) contract.rearranges weak kept.heaped kept.among (by omega)
  refine { held with split := ?_, best := ?_ }
  · rw [List.append_nil]
    exact (contract.push better x heap (weak.perm all') kept.heaped).1.trans all'
  · intro a _ b hb
    cases hb

/-- The new element replaces the front, which the kept ones are no worse than. -/
theorem Kept.replace {worst : α} {rest : List α} (contract : ops.Standard Heap)
    (kept : Kept Heap better k seen (worst :: rest) out) (weak : StrictWeak better (seen ++ [x]))
    (full : k ≤ (worst :: rest).length) (wins : better x worst = true) :
    Kept Heap better k (seen ++ [x])
      (ops.pushHeap better ((ops.popHeap better (worst :: rest)).dropLast ++ [x]))
      (worst :: out) := by
  have inside : ∀ a ∈ seen, a ∈ seen ++ [x] := fun a ha => List.mem_append_left _ ha
  have mem_x : x ∈ seen ++ [x] := List.mem_append_right _ List.mem_cons_self
  have mem_worst := inside worst (kept.among worst List.mem_cons_self)
  have old := weak.mono fun a ha => inside a (kept.among a ha)
  obtain ⟨left, popped, same, heap'⟩ := contract.pop better worst rest old kept.heaped
  rw [popped, List.dropLast_concat]
  have mem_left : ∀ a ∈ left, a ∈ worst :: rest :=
    fun a ha => List.mem_cons_of_mem _ (same.mem_iff.mp ha)
  have now : StrictWeak better (left ++ [x]) := by
    apply weak.mono
    intro a ha
    obtain ha | ha := List.mem_append.mp ha
    · exact inside a (kept.among a (mem_left a ha))
    · exact List.mem_append_right _ ha
  have perm := (contract.push better x left now heap').1
  have held := Held.push (k := k) contract.rearranges weak heap'
    (fun a ha => kept.among a (mem_left a ha)) (by
      have size := kept.size
      have lengths := same.length_eq
      rw [List.length_cons] at size full
      omega)
  refine { held with split := ?_, best := ?_ }
  · calc ops.pushHeap better (left ++ [x]) ++ worst :: out
      List.Perm _ (left ++ [x] ++ worst :: out) := perm.append_right _
      List.Perm _ (rest ++ [x] ++ worst :: out) := (same.append_right _).append_right _
      List.Perm _ (x :: worst :: (rest ++ out)) := by
        rw [List.append_assoc]
        refine List.perm_middle.trans ?_
        exact (List.perm_middle).cons x
      List.Perm _ (worst :: rest ++ out ++ [x]) := (List.perm_append_singleton x _).symm
      List.Perm _ (seen ++ [x]) := kept.split.append_right _
  · have lost := weak.asymm x mem_x worst mem_worst wins
    intro a ha b hb
    obtain ha | ha := List.mem_append.mp (perm.mem_iff.mp ha)
    · obtain rfl | hb := List.mem_cons.mp hb
      · exact contract.front better b rest old kept.heaped a (same.mem_iff.mp ha)
      · exact kept.best a (mem_left a ha) b hb
    · rw [List.mem_singleton.mp ha]
      obtain rfl | hb := List.mem_cons.mp hb
      · exact lost
      · apply weak.trans b (inside b (kept.mem_out hb)) worst mem_worst x mem_x ?_ lost
        exact kept.best worst List.mem_cons_self b hb

/-- The new element is no better than the front, hence than any kept one. -/
theorem Kept.skip {worst : α} {rest : List α} (contract : ops.Standard Heap)
    (kept : Kept Heap better k seen (worst :: rest) out) (weak : StrictWeak better (seen ++ [x]))
    (full : k ≤ (worst :: rest).length) (loses : better x worst = false) :
    Kept Heap better k (seen ++ [x]) (worst :: rest) (x :: out) := by
  have inside : ∀ a ∈ worst :: rest, a ∈ seen ++ [x] :=
    fun a ha => List.mem_append_left _ (kept.among a ha)
  have mem_x : x ∈ seen ++ [x] := List.mem_append_right _ List.mem_cons_self
  have old := weak.mono inside
  have size : (worst :: rest).length = min k (seen ++ [x]).length := by
    have size := kept.size
    rw [List.length_append, List.length_singleton]
    omega
  refine ⟨⟨size, kept.heaped, inside⟩, ?_, ?_⟩
  · calc worst :: rest ++ x :: out
      List.Perm _ (x :: (worst :: rest ++ out)) := List.perm_middle
      List.Perm _ (worst :: rest ++ out ++ [x]) := (List.perm_append_singleton x _).symm
      List.Perm _ (seen ++ [x]) := kept.split.append_right _
  · intro a ha b hb
    obtain rfl | hb := List.mem_cons.mp hb
    · obtain rfl | hr := List.mem_cons.mp ha
      · exact loses
      · have front := contract.front better worst rest old kept.heaped a hr
        exact weak.trans b mem_x worst (inside worst List.mem_cons_self) a (inside a ha) loses front
    · exact kept.best a ha b hb

/-- **One element** keeps the invariant. -/
theorem step_kept (contract : ops.Standard Heap) (pos : 0 < k)
    (kept : Kept Heap better k seen heap out) (weak : StrictWeak better (seen ++ [x])) :
    ∃ out', Kept Heap better k (seen ++ [x]) (step ops better k heap x) out' := by
  unfold step
  split
  · rename_i room
    exact ⟨[], kept.push contract weak room⟩
  · rename_i full
    rw [Nat.not_lt] at full
    cases heap with
    | nil => exact absurd full (Nat.not_le.mpr pos)
    | cons worst rest =>
      dsimp only
      cases wins : better x worst with
      | true => exact ⟨worst :: out, kept.replace contract weak full wins⟩
      | false => exact ⟨x :: out, kept.skip contract weak full wins⟩

theorem foldl_kept (contract : ops.Standard Heap) (pos : 0 < k) {xs : List α}
    (kept : Kept Heap better k seen heap out) (weak : StrictWeak better (seen ++ xs)) :
    ∃ out', Kept Heap better k (seen ++ xs) (xs.foldl (step ops better k) heap) out' := by
  induction xs generalizing seen heap out with
  | nil => exact ⟨out, by rwa [List.append_nil]⟩
  | cons x rest ih =>
    rw [List.append_cons] at weak ⊢
    obtain ⟨out', kept'⟩ := step_kept contract pos kept (weak.mono fun a ha =>
      List.mem_append_left rest ha)
    exact ih kept' weak

/-- **The selection is exact.** The result and the elements left out are the list
again; the result is as long as it can be, is sorted best first, and nothing left
out is better than anything in it. -/
theorem select_exact (contract : ops.Standard Heap) (pos : 0 < k) {xs : List α}
    (weak : StrictWeak better xs) :
    ∃ out, (select ops better k xs ++ out).Perm xs ∧
      (select ops better k xs).length = min k xs.length ∧
      (select ops better k xs).Pairwise (fun a b => better b a = false) ∧
      ∀ a ∈ select ops better k xs, ∀ b ∈ out, better b a = false := by
  have start : Kept Heap better k [] [] [] :=
    ⟨.start contract.rearranges, List.Perm.refl _, by simp⟩
  obtain ⟨out, kept⟩ := foldl_kept contract pos start weak
  simp only [List.nil_append] at kept
  obtain ⟨same, sorted⟩ := contract.sort better _ (weak.mono kept.among)
  refine ⟨out, ?_, ?_, sorted, ?_⟩
  · exact (same.append_right out).trans kept.split
  · exact same.length_eq.trans kept.size
  · intro a ha b hb
    exact kept.best a (same.mem_iff.mp ha) b hb

/-! ## A library that keeps its heaps sorted -/

/-- An insertion behind the elements that are not greater keeps a list sorted. -/
theorem orderedInsert_sorted {lt : α → α → Bool} {xs : List α} (weak : StrictWeak lt (x :: xs))
    (sorted : xs.Pairwise fun a b => lt b a = false) :
    (xs.orderedInsert (fun a b => lt a b = true) x).Pairwise fun a b => lt b a = false := by
  induction xs with
  | nil => exact List.pairwise_singleton _ x
  | cons y ys ih =>
    obtain ⟨below, tail⟩ := List.pairwise_cons.mp sorted
    have mem_x : x ∈ x :: y :: ys := List.mem_cons_self
    have mem_y : y ∈ x :: y :: ys := List.mem_cons_of_mem _ List.mem_cons_self
    rw [List.orderedInsert_cons]
    split
    · rename_i less
      have front := weak.asymm x mem_x y mem_y less
      apply List.Pairwise.cons ?_ sorted
      intro z hz
      obtain rfl | hz := List.mem_cons.mp hz
      · exact front
      · have mem_z := List.mem_cons_of_mem x (List.mem_cons_of_mem y hz)
        exact weak.trans z mem_z y mem_y x mem_x (below z hz) front
    · rename_i notLess
      apply List.Pairwise.cons ?_ ?_
      · intro z hz
        obtain rfl | hz := List.mem_cons.mp ((List.perm_orderedInsert _ x ys).mem_iff.mp hz)
        · exact Bool.not_eq_true _ ▸ notLess
        · exact below z hz
      · apply ih (weak.mono ?_) tail
        intro z hz
        obtain rfl | hz := List.mem_cons.mp hz
        · exact mem_x
        · exact List.mem_cons_of_mem _ (List.mem_cons_of_mem _ hz)

theorem insertionSort_sorted {lt : α → α → Bool} {xs : List α} (weak : StrictWeak lt xs) :
    (xs.insertionSort fun a b => lt a b = true).Pairwise fun a b => lt b a = false := by
  induction xs with
  | nil => exact List.Pairwise.nil
  | cons y ys ih =>
    apply orderedInsert_sorted (weak.perm ((List.perm_insertionSort _ ys).cons y))
    exact ih (weak.mono fun a ha => List.mem_cons_of_mem y ha)

/-- Heaps are lists in descending order. Among equivalent elements, whose order
the contracts leave open, the one pushed last goes last. -/
def HeapOps.ordered : HeapOps α where
  pushHeap lt xs :=
    match xs.getLast? with
    | none => []
    | some x => xs.dropLast.orderedInsert (fun a b => lt b a = true) x
  popHeap _ xs :=
    match xs with
    | [] => []
    | x :: rest => rest ++ [x]
  sort lt xs := xs.insertionSort fun a b => lt a b = true

theorem HeapOps.ordered_push (lt : α → α → Bool) (x : α) (xs : List α) :
    ordered.pushHeap lt (xs ++ [x]) = xs.orderedInsert (fun a b => lt b a = true) x := by
  simp only [ordered, List.getLast?_concat, List.dropLast_concat]

theorem HeapOps.ordered_standard :
    (ordered : HeapOps α).Standard fun lt xs => xs.Pairwise fun a b => lt a b = false where
  empty _ := List.Pairwise.nil
  front _ _ _ _ heap := (List.pairwise_cons.mp heap).1
  push lt x xs weak heap := by
    rw [ordered_push]
    constructor
    · exact (List.perm_orderedInsert _ x xs).trans (List.perm_append_singleton x xs).symm
    · exact orderedInsert_sorted (weak.perm (List.perm_append_singleton x xs).symm).swap heap
  pop _ _ xs _ heap := ⟨xs, rfl, List.Perm.refl _, (List.pairwise_cons.mp heap).2⟩
  sort _ xs weak := ⟨List.perm_insertionSort _ xs, insertionSort_sorted weak⟩

/-- Sorted heaps rearrange every range, whatever the comparison. -/
theorem HeapOps.ordered_rearranges :
    (ordered : HeapOps α).Rearranges (fun _ _ => True) (fun _ _ => True) where
  among _ _ _ _ _ := trivial
  empty _ := trivial
  push lt x xs _ _ := by
    rw [ordered_push]
    exact ⟨(List.perm_orderedInsert _ x xs).trans (List.perm_append_singleton x xs).symm, trivial⟩
  pop _ x xs _ _ := ⟨List.perm_append_singleton x xs, trivial⟩
  sort _ xs _ := List.perm_insertionSort _ xs

end HeapSelect
