import Mathlib.Data.List.Forall2

/-!
# Noninterference by unwinding

A machine answers labels one after the other. Some labels are an observer's own.

* `Unwinding`: what one step must do, for an observer to whom some states look
  alike: labels of others do not show, and equal own labels give equal answers;
* `Unwinding.runs`: two runs with the same own labels give the same answers to
  them, whatever other labels stand in between.
-/

variable {σ α β : Type} (step : σ → α → σ) (reply : σ → α → β) (own : α → Bool)

/-- The answers to the own labels of a run, in order. -/
def ownReplies : List α → σ → List β
  | [], _ => []
  | a :: rest, c => (if own a then [reply c a] else []) ++ ownReplies rest (step c a)

/-- `Like` relates states that look alike, `Same` own labels that ask the same. -/
structure Unwinding (Inv : σ → Prop) (Like : σ → σ → Prop) (Same : α → α → Prop) : Prop where
  keeps : ∀ {c a}, Inv c → Inv (step c a)
  symm : ∀ {c d}, Like c d → Like d c
  trans : ∀ {c d d'}, Like c d → Like d d' → Like c d'
  asks_refl : ∀ a, Same a a
  foreign : ∀ {c a}, Inv c → own a = false → Like c (step c a)
  own : ∀ {c d a b}, Inv c → Inv d → Like c d → own a = true → Same a b →
    reply c a = reply d b ∧ Like (step c a) (step d b)

namespace Unwinding

variable {step reply own} {Inv : σ → Prop} {Like : σ → σ → Prop} {Same : α → α → Prop}
  {c d : σ} {xs ys : List α}

/-- The labels of others can be left out. -/
theorem purge (h : Unwinding step reply own Inv Like Same) (xs : List α) (left : Inv c)
    (right : Inv d) (like : Like c d) :
    ownReplies step reply own xs c = ownReplies step reply own (xs.filter own) d ∧
      Like (xs.foldl step c) ((xs.filter own).foldl step d) := by
  induction xs generalizing c d with
  | nil => exact ⟨rfl, like⟩
  | cons a rest ih =>
    by_cases mine : own a
    · obtain ⟨answer, next⟩ := h.own left right like mine (h.asks_refl a)
      obtain ⟨answers, last⟩ := ih (h.keeps left) (h.keeps right) next
      rw [List.filter_cons_of_pos mine]
      simp only [ownReplies, mine, if_true, answer, answers, List.foldl_cons]
      exact ⟨trivial, last⟩
    · have other : own a = false := by simpa using mine
      have between := h.trans (h.symm (h.foreign left other)) like
      obtain ⟨answers, last⟩ := ih (h.keeps left) right between
      rw [List.filter_cons_of_neg mine]
      simp only [ownReplies, other, Bool.false_eq_true, if_false, List.nil_append, List.foldl_cons]
      exact ⟨answers, last⟩

/-- Own labels that ask the same, one by one. -/
theorem matched (h : Unwinding step reply own Inv Like Same) (left : Inv c) (right : Inv d)
    (like : Like c d) (mine : ∀ a ∈ xs, own a) (mine' : ∀ b ∈ ys, own b)
    (same : List.Forall₂ Same xs ys) :
    ownReplies step reply own xs c = ownReplies step reply own ys d ∧
      Like (xs.foldl step c) (ys.foldl step d) := by
  induction same generalizing c d with
  | nil => exact ⟨rfl, like⟩
  | @cons a b xs ys asks _ ih =>
    obtain ⟨answer, next⟩ := h.own left right like (mine a List.mem_cons_self) asks
    obtain ⟨answers, last⟩ := ih (h.keeps left) (h.keeps right) next
      (fun a' mem => mine a' (List.mem_cons_of_mem _ mem))
      fun b' mem => mine' b' (List.mem_cons_of_mem _ mem)
    simp only [ownReplies, mine a List.mem_cons_self, mine' b List.mem_cons_self, if_true, answer,
      answers, List.foldl_cons]
    exact ⟨trivial, last⟩

/-- **Noninterference.** -/
theorem runs (h : Unwinding step reply own Inv Like Same) (left : Inv c) (right : Inv d)
    (like : Like c d) (same : List.Forall₂ Same (xs.filter own) (ys.filter own)) :
    ownReplies step reply own xs c = ownReplies step reply own ys d ∧
      Like (xs.foldl step c) (ys.foldl step d) := by
  have alike : Like d d := h.trans (h.symm like) like
  obtain ⟨answers, last⟩ := h.purge xs left right like
  obtain ⟨answers', last'⟩ := h.purge ys right right alike
  obtain ⟨asked, between⟩ := h.matched right right alike (fun _ mem => List.of_mem_filter mem)
    (fun _ mem => List.of_mem_filter mem) same
  refine ⟨?_, ?_⟩
  · rw [answers, asked, answers']
  · exact h.trans last (h.trans between (h.symm last'))

end Unwinding
