import Mathlib.Data.List.Infix

/-!
# A bounded queue of the last items

A queue that keeps at most `cap` items and drops its oldest one to make room,
counting what it dropped. `first` numbers the item at the front, counting from
the first item ever pushed.

* `push`, `pop`: the two operations;
* `Suffix`: the queue holds the end of a log, at its positions in that log;
* `since`: the queued items from a position on;
* `numbered`: the queued item with a given number. Numbers that the front has
  passed never come back;
* `Conserves`: what was popped, what is queued and what was dropped account for
  the whole log.
-/

structure BoundedQueue (α : Type) where
  items : List α
  first : Nat
  dropped : Nat

namespace BoundedQueue

variable {α : Type} {cap : Nat} {q : BoundedQueue α} {log popped : List α} {x : α} {k : Nat}

def empty : BoundedQueue α := ⟨[], 0, 0⟩

/-- Append an item; a full queue first drops its front. -/
def push (cap : Nat) (q : BoundedQueue α) (x : α) : BoundedQueue α :=
  if cap ≤ q.items.length then ⟨q.items.tail ++ [x], q.first + 1, q.dropped + 1⟩
  else ⟨q.items ++ [x], q.first, q.dropped⟩

/-- Remove the `k` oldest items. -/
def pop (q : BoundedQueue α) (k : Nat) : BoundedQueue α :=
  ⟨q.items.drop k, q.first + min k q.items.length, q.dropped⟩

@[simp] theorem pop_dropped (q : BoundedQueue α) : (q.pop k).dropped = q.dropped := rfl

@[simp] theorem pop_length (q : BoundedQueue α) :
    (q.pop k).items.length = q.items.length - k := List.length_drop

@[simp] theorem pop_zero (q : BoundedQueue α) : q.pop 0 = q := by
  simp [pop]

@[simp] theorem empty_items : (empty : BoundedQueue α).items = [] := rfl

theorem push_length_le (h : q.items.length ≤ cap) (hc : 0 < cap) :
    (q.push cap x).items.length ≤ cap := by
  unfold push
  split <;> simp <;> omega

theorem push_ne_nil (q : BoundedQueue α) (cap : Nat) (x : α) : (q.push cap x).items ≠ [] := by
  unfold push
  split <;> simp

/-- What is queued after pushes is the end of what was queued and what was pushed. -/
theorem pushAll_isSuffix (cap : Nat) (q : BoundedQueue α) (xs : List α) :
    (xs.foldl (push cap) q).items <:+ q.items ++ xs := by
  induction xs generalizing q with
  | nil => exact ⟨[], (List.append_nil _).symm⟩
  | cons x xs ih =>
    have one : (q.push cap x).items <:+ q.items ++ [x] := by
      unfold push
      split
      · exact List.suffix_append_self_iff.mpr (List.tail_suffix _)
      · exact List.suffix_rfl
    have all := (ih (q.push cap x)).trans (List.suffix_append_self_iff.mpr one)
    rwa [List.append_assoc] at all

theorem pushAll_ne_nil (xs : List α) (h : q.items ≠ []) : (xs.foldl (push cap) q).items ≠ [] := by
  induction xs generalizing q with
  | nil => exact h
  | cons x xs ih => exact ih (push_ne_nil q cap x)

theorem pop_length_le (h : q.items.length ≤ cap) : (q.pop k).items.length ≤ cap := by
  simp [pop]
  omega

theorem pushAll_length_le (xs : List α) (h : q.items.length ≤ cap) (hc : 0 < cap) :
    (xs.foldl (push cap) q).items.length ≤ cap := by
  induction xs generalizing q with
  | nil => exact h
  | cons x xs ih => exact ih (push_length_le h hc)

/-- A queue fills up to its capacity. -/
theorem pushAll_length (xs : List α) (h : q.items.length ≤ cap) (hc : 0 < cap) :
    (xs.foldl (push cap) q).items.length = min cap (q.items.length + xs.length) := by
  induction xs generalizing q with
  | nil => simp [Nat.min_eq_right h]
  | cons x xs ih =>
    have one : (q.push cap x).items.length = min cap (q.items.length + 1) := by
      unfold push
      split <;> simp <;> omega
    rw [List.foldl_cons, ih (push_length_le h hc), one, List.length_cons]
    omega

/-- What the front passes to make room is counted. -/
theorem push_passed : (q.push cap x).first + q.dropped = q.first + (q.push cap x).dropped := by
  unfold push
  split
  · show q.first + 1 + q.dropped = q.first + (q.dropped + 1)
    omega
  · rfl

theorem mem_push {y : α} (h : y ∈ (q.push cap x).items) : y ∈ q.items ∨ y = x := by
  unfold push at h
  split at h
  · obtain old | new := List.mem_append.mp h
    · exact .inl (List.mem_of_mem_tail old)
    · exact .inr (List.mem_singleton.mp new)
  · obtain old | new := List.mem_append.mp h
    · exact .inl old
    · exact .inr (List.mem_singleton.mp new)

theorem mem_push_self (q : BoundedQueue α) : x ∈ (q.push cap x).items := by
  unfold push
  split <;> simp

theorem mem_pushAll {y : α} {xs : List α} (h : y ∈ (xs.foldl (push cap) q).items) :
    y ∈ q.items ∨ y ∈ xs := by
  induction xs generalizing q with
  | nil => exact .inl h
  | cons x xs ih =>
    rw [List.mem_cons, ← or_assoc]
    obtain queued | later := ih h
    · exact .inl (mem_push queued)
    · exact .inr later

/-! ## The queue as the end of a log -/

/-- The queue is the log from position `first` on. -/
def Suffix (log : List α) (q : BoundedQueue α) : Prop :=
  q.items = log.drop q.first ∧ q.first ≤ log.length

theorem suffix_empty : Suffix [] (empty : BoundedQueue α) := ⟨rfl, Nat.le_refl _⟩

theorem Suffix.length (h : Suffix log q) : q.first + q.items.length = log.length := by
  have hl := congrArg List.length h.1
  have := h.2
  simp only [List.length_drop] at hl
  omega

theorem Suffix.push (h : Suffix log q) (hc : 0 < cap) : Suffix (log ++ [x]) (q.push cap x) := by
  have hl := h.length
  unfold BoundedQueue.push
  split
  · refine ⟨?_, by simp only [List.length_append, List.length_cons, List.length_nil]; omega⟩
    have hf : q.first + 1 ≤ log.length := by omega
    simp only [h.1, List.tail_drop, List.drop_append_of_le_length hf]
  · exact ⟨by rw [List.drop_append_of_le_length h.2, ← h.1], by simp; omega⟩

theorem Suffix.pushAll (h : Suffix log q) (hc : 0 < cap) (xs : List α) :
    Suffix (log ++ xs) (xs.foldl (BoundedQueue.push cap) q) := by
  induction xs generalizing log q with
  | nil => simpa using h
  | cons x xs ih => simpa using ih (h.push (x := x) hc)

theorem Suffix.pop (h : Suffix log q) : Suffix log (q.pop k) := by
  have hl := h.length
  refine ⟨?_, by simp only [BoundedQueue.pop]; omega⟩
  simp only [BoundedQueue.pop]
  rw [h.1, List.drop_drop]
  obtain hk | hk := Nat.le_total k q.items.length
  · rw [← h.1, Nat.min_eq_left hk]
  · rw [← h.1, Nat.min_eq_right hk, List.drop_eq_nil_of_le (by omega),
      List.drop_eq_nil_of_le (by omega)]

/-! ## Items from a position on -/

/-- The queued items numbered `n` or later. -/
def since (q : BoundedQueue α) (n : Nat) : List α := q.items.drop (n - q.first)

variable {n : Nat}

theorem since_of_le (h : n ≤ q.first) : q.since n = q.items := by
  rw [since, Nat.sub_eq_zero_of_le h, List.drop_zero]

theorem since_push (h : n ≤ q.first + q.items.length) (hc : 0 < cap) :
    ((q.push cap x).since n).Sublist (q.since n ++ [x]) := by
  unfold BoundedQueue.push
  split
  · have hl : n - (q.first + 1) ≤ q.items.tail.length := by
      rw [List.length_tail]
      omega
    simp only [since]
    rw [List.drop_append_of_le_length hl, ← List.drop_one, List.drop_drop]
    exact (List.drop_sublist_drop_left _ (by omega)).append_right _
  · simp only [since]
    rw [List.drop_append_of_le_length (by omega)]

theorem reach_push (h : n ≤ q.first + q.items.length) :
    n ≤ (q.push cap x).first + (q.push cap x).items.length := by
  unfold BoundedQueue.push
  split <;> simp <;> omega

theorem since_pushAll (h : n ≤ q.first + q.items.length) (hc : 0 < cap) (xs : List α) :
    ((xs.foldl (push cap) q).since n).Sublist (q.since n ++ xs) ∧
    n ≤ (xs.foldl (push cap) q).first + (xs.foldl (push cap) q).items.length := by
  induction xs generalizing q with
  | nil => exact ⟨by simp, h⟩
  | cons x xs ih =>
    obtain ⟨hs, hr⟩ := ih (q := push cap q x) (reach_push h)
    refine ⟨hs.trans ?_, hr⟩
    have := (since_push (x := x) h hc).append_right xs
    rwa [List.append_assoc] at this

theorem reach_pop (h : n ≤ q.first + q.items.length) :
    n ≤ (q.pop k).first + (q.pop k).items.length := by
  simp only [pop, List.length_drop]
  omega

/-- Popping items numbered `n` or later splits what is there. -/
theorem take_since_pop (h : n ≤ q.first) : q.items.take k ++ (q.pop k).since n = q.since n := by
  have h' : n ≤ (q.pop k).first := h.trans (Nat.le_add_right _ _)
  rw [since_of_le h, since_of_le h', pop, List.take_append_drop]

/-! ## Numbered items -/

/-- The item numbered `n`, while it is queued. -/
def numbered (q : BoundedQueue α) (n : Nat) : Option α :=
  if n < q.first then none else q.items[n - q.first]?

theorem numbered_passed (h : n < q.first) : q.numbered n = none := if_pos h

theorem numbered_queued (h : q.first ≤ n) : q.numbered n = q.items[n - q.first]? :=
  if_neg (Nat.not_lt.mpr h)

theorem first_le_push : q.first ≤ (q.push cap x).first := by
  unfold push
  split
  · exact Nat.le_succ _
  · exact Nat.le_refl _

theorem first_le_pushAll (xs : List α) : q.first ≤ (xs.foldl (push cap) q).first := by
  induction xs generalizing q with
  | nil => exact Nat.le_refl _
  | cons x xs ih => exact Nat.le_trans first_le_push ih

theorem first_le_pop : q.first ≤ (q.pop k).first := Nat.le_add_right _ _

/-! ## Accounting -/

/-- `popped` and the queue are disjoint parts of `log`, in its order, and the
items missing from both are the ones counted as dropped. -/
def Conserves (log popped : List α) (q : BoundedQueue α) : Prop :=
  (popped ++ q.items).Sublist log ∧
  log.length = popped.length + q.items.length + q.dropped

/-- A push keeps the item or counts another one as dropped. -/
theorem push_count (hc : 0 < cap) :
    (q.push cap x).items.length + (q.push cap x).dropped = q.items.length + q.dropped + 1 := by
  unfold push
  split
  · simp only [List.length_append, List.length_tail, List.length_cons, List.length_nil]
    omega
  · simp only [List.length_append, List.length_cons, List.length_nil]
    omega

theorem pushAll_count (hc : 0 < cap) (xs : List α) :
    (xs.foldl (push cap) q).items.length + (xs.foldl (push cap) q).dropped =
      q.items.length + q.dropped + xs.length := by
  induction xs generalizing q with
  | nil => rfl
  | cons x xs ih =>
    rw [List.foldl_cons, ih, push_count hc, List.length_cons]
    omega

/-- What does not fit is dropped, oldest first. -/
theorem pushAll_dropped (h : q.items.length ≤ cap) (hc : 0 < cap) (xs : List α) :
    (xs.foldl (push cap) q).dropped = q.dropped + (xs.length - (cap - q.items.length)) := by
  induction xs generalizing q with
  | nil => rw [List.foldl_nil, List.length_nil, Nat.zero_sub, Nat.add_zero]
  | cons x xs ih =>
    rw [List.foldl_cons, ih (push_length_le h hc), List.length_cons]
    unfold push
    split
    · simp only [List.length_append, List.length_tail, List.length_singleton]
      omega
    · simp only [List.length_append, List.length_singleton]
      omega

/-- Where nothing was dropped, the pushed items are all there. -/
theorem pushAll_lossless {xs : List α}
    (lossless : (xs.foldl (push cap) q).dropped = 0) :
    q.dropped = 0 ∧ (xs.foldl (push cap) q).items = q.items ++ xs := by
  induction xs generalizing q with
  | nil => exact ⟨lossless, (List.append_nil _).symm⟩
  | cons x xs ih =>
    obtain ⟨none, all⟩ := ih lossless
    by_cases full : cap ≤ q.items.length
    · rw [push, if_pos full] at none
      exact absurd none (Nat.succ_ne_zero _)
    · rw [push, if_neg full] at none
      refine ⟨none, ?_⟩
      rw [List.foldl_cons, all, push, if_neg full, List.append_assoc]
      rfl

theorem conserves_empty : Conserves [] [] (empty : BoundedQueue α) :=
  ⟨List.Sublist.refl _, rfl⟩

theorem Conserves.push (h : Conserves log popped q) (hc : 0 < cap) :
    Conserves (log ++ [x]) popped (q.push cap x) := by
  obtain ⟨hs, hl⟩ := h
  unfold BoundedQueue.push
  split
  · have ht : (popped ++ q.items.tail).Sublist log :=
      (List.Sublist.append_left (List.tail_sublist _) _).trans hs
    refine ⟨by simpa only [← List.append_assoc] using ht.append_right [x], ?_⟩
    simp only [List.length_append, List.length_tail, List.length_cons, List.length_nil]
    omega
  · refine ⟨by simpa only [← List.append_assoc] using hs.append_right [x], ?_⟩
    simp only [List.length_append, List.length_cons, List.length_nil]
    omega

theorem Conserves.pushAll (h : Conserves log popped q) (hc : 0 < cap) (xs : List α) :
    Conserves (log ++ xs) popped (xs.foldl (BoundedQueue.push cap) q) := by
  induction xs generalizing log q with
  | nil => simpa using h
  | cons x xs ih => simpa using ih (h.push (x := x) hc)

theorem Conserves.pop (h : Conserves log popped q) :
    Conserves log (popped ++ q.items.take k) (q.pop k) := by
  obtain ⟨hs, hl⟩ := h
  refine ⟨by simpa [BoundedQueue.pop] using hs, ?_⟩
  simp only [BoundedQueue.pop, List.length_append, List.length_take, List.length_drop]
  omega

end BoundedQueue
