import Mathlib.Data.List.Lex
import Mathlib.Order.Cover

/-!
# Composite keys under a separator

Strings over an ordered alphabet, in lexicographic order. A key is a group name
free of the separator, the separator, and the rest.

* `mem_range_iff`: the keys of one group are a half-open range;
* `sep_prefix_iff`: groups with different names have no key in common;
* `firstOfRuns`: taking the group of a key only when it changes lists every
  group once, in any ascending list of keys.
-/

namespace PrefixKeys

variable {α : Type} {sep next : α} {a b k x y : List α}

theorem sep_prefix_iff (ha : sep ∉ a) (hb : sep ∉ b) :
    a ++ [sep] <+: b ++ sep :: y ↔ a = b := by
  induction a generalizing b with
  | nil =>
    cases b with
    | nil => simp
    | cons c b =>
      rw [List.nil_append, List.cons_append, List.cons_prefix_cons]
      constructor
      · rintro ⟨rfl, -⟩
        exact absurd List.mem_cons_self hb
      · intro h
        cases h
  | cons d a ih =>
    cases b with
    | nil =>
      rw [List.cons_append, List.nil_append, List.cons_prefix_cons]
      constructor
      · rintro ⟨rfl, -⟩
        exact absurd List.mem_cons_self ha
      · intro h
        cases h
    | cons c b =>
      rw [List.cons_append, List.cons_append, List.cons_prefix_cons,
        ih (fun h => ha (List.mem_cons_of_mem _ h)) (fun h => hb (List.mem_cons_of_mem _ h)),
        List.cons.injEq]

section
variable [LinearOrder α]

theorem append_lt_append_left (p : List α) : p ++ x < p ++ y ↔ x < y := by
  induction p with
  | nil => rfl
  | cons c p ih =>
    rw [List.cons_append, List.cons_append, List.cons_lt_cons_iff]
    simp [ih]

/-- What starts with `p sep` lies from `p sep` up to `p next`, when nothing is
between `sep` and `next`. -/
theorem mem_range_iff (covers : sep ⋖ next) (p k : List α) :
    p ++ [sep] ≤ k ∧ k < p ++ [next] ↔ p ++ [sep] <+: k := by
  induction p generalizing k with
  | nil =>
    cases k with
    | nil => simp
    | cons c r =>
      rw [List.nil_append, List.nil_append, ← not_lt, List.cons_lt_cons_iff,
        List.cons_lt_cons_iff, List.cons_prefix_cons]
      constructor
      · rintro ⟨lower, upper⟩
        obtain upper | ⟨-, impossible⟩ := upper
        · refine ⟨?_, List.nil_prefix⟩
          apply le_antisymm
          · exact not_lt.mp fun h => lower (.inl h)
          · exact covers.le_of_lt upper
        · exact absurd impossible (List.not_lt_nil r)
      · rintro ⟨rfl, -⟩
        constructor
        · rintro (h | ⟨-, h⟩)
          · exact lt_irrefl _ h
          · exact absurd h (List.not_lt_nil r)
        · exact .inl covers.lt
  | cons d p ih =>
    cases k with
    | nil => simp
    | cons c r =>
      rw [List.cons_append, List.cons_append, List.cons_prefix_cons, ← ih, ← not_lt, ← not_lt,
        List.cons_lt_cons_iff, List.cons_lt_cons_iff]
      constructor
      · rintro ⟨lower, upper⟩
        obtain less | ⟨rfl, upper⟩ := upper
        · exact absurd (.inl less) lower
        · exact ⟨rfl, fun h => lower (.inr ⟨rfl, h⟩), upper⟩
      · rintro ⟨rfl, lower, upper⟩
        refine ⟨?_, .inr ⟨rfl, upper⟩⟩
        rintro (h | ⟨-, h⟩)
        · exact lt_irrefl _ h
        · exact lower h

/-! ## The group of a key -/

/-- The part before the first separator. -/
def beforeSep (sep : α) : List α → Option (List α)
  | [] => none
  | c :: rest => if c = sep then some [] else (beforeSep sep rest).map (c :: ·)

theorem beforeSep_append (ha : sep ∉ a) (y : List α) : beforeSep sep (a ++ sep :: y) = some a := by
  induction a with
  | nil => simp [beforeSep]
  | cons c a ih =>
    have other : c ≠ sep := fun h => ha (h ▸ List.mem_cons_self)
    rw [List.cons_append, beforeSep, if_neg other, ih fun h => ha (List.mem_cons_of_mem _ h)]
    rfl

theorem beforeSep_some (h : beforeSep sep k = some a) : sep ∉ a ∧ ∃ y, k = a ++ sep :: y := by
  induction k generalizing a with
  | nil => cases h
  | cons c k ih =>
    rw [beforeSep] at h
    split at h
    · rename_i eq
      cases h
      exact ⟨List.not_mem_nil, k, by rw [eq, List.nil_append]⟩
    · rename_i other
      obtain ⟨a', found, rfl⟩ := Option.map_eq_some_iff.mp h
      obtain ⟨free, y, rfl⟩ := ih found
      refine ⟨?_, y, List.cons_append.symm⟩
      intro mem
      obtain eq | mem := List.mem_cons.mp mem
      · exact other eq.symm
      · exact free mem

theorem beforeSep_starts (h : beforeSep sep k = some a) : a ++ [sep] <+: k := by
  obtain ⟨free, y, rfl⟩ := beforeSep_some h
  exact (sep_prefix_iff free free).mpr rfl

theorem beforeSep_of_starts (ha : sep ∉ a) (h : a ++ [sep] <+: k) : beforeSep sep k = some a := by
  obtain ⟨y, rfl⟩ := h
  rw [List.append_assoc]
  exact beforeSep_append ha y

/-- Between two keys of a group there are only keys of the group. -/
theorem beforeSep_between (covers : sep ⋖ next) (hx : beforeSep sep x = some a)
    (hy : beforeSep sep y = some a) (hxk : x < k) (hky : k < y) : beforeSep sep k = some a := by
  have least := ((mem_range_iff covers a x).mpr (beforeSep_starts hx)).1
  have greatest := ((mem_range_iff covers a y).mpr (beforeSep_starts hy)).2
  apply beforeSep_of_starts (beforeSep_some hx).1
  exact (mem_range_iff covers a k).mp ⟨least.trans hxk.le, hky.trans greatest⟩

end

/-! ## Runs -/

section
variable {β γ : Type} [DecidableEq γ] {f : β → Option γ} {last z : γ} {l : List β}

/-- The values of `f` along a list, each where it differs from the one before
it. -/
def firstOfRuns (f : β → Option γ) : γ → List β → List γ
  | _, [] => []
  | last, c :: rest =>
    match f c with
    | none => firstOfRuns f last rest
    | some z => if z = last then firstOfRuns f last rest else z :: firstOfRuns f z rest

theorem value_of_firstOfRuns (h : z ∈ firstOfRuns f last l) : ∃ c ∈ l, f c = some z := by
  induction l generalizing last with
  | nil => cases h
  | cons c rest ih =>
    have tail (last' : γ) (h : z ∈ firstOfRuns f last' rest) : ∃ d ∈ c :: rest, f d = some z := by
      obtain ⟨d, hd, value⟩ := ih h
      exact ⟨d, List.mem_cons_of_mem _ hd, value⟩
    rw [firstOfRuns] at h
    split at h
    · exact tail last h
    · rename_i z' value
      split at h
      · exact tail last h
      · obtain rfl | h := List.mem_cons.mp h
        · exact ⟨c, List.mem_cons_self, value⟩
        · exact tail z' h

theorem mem_firstOfRuns (last : γ) (h : ∃ c ∈ l, f c = some z) :
    z = last ∨ z ∈ firstOfRuns f last l := by
  induction l generalizing last with
  | nil => simp at h
  | cons c rest ih =>
    obtain ⟨d, hd, value⟩ := h
    have tail (last' : γ) (hd : d ∈ rest) : z = last' ∨ z ∈ firstOfRuns f last' rest :=
      ih last' ⟨d, hd, value⟩
    rw [firstOfRuns]
    obtain rfl | hd := List.mem_cons.mp hd
    · rw [value]
      by_cases same : z = last
      · exact .inl same
      · right
        simp only [if_neg same]
        exact List.mem_cons_self
    · split
      · exact tail last hd
      · rename_i z' _
        split
        · exact tail last hd
        · right
          obtain rfl | mem := tail z' hd
          · exact List.mem_cons_self
          · exact List.mem_cons_of_mem _ mem

theorem firstOfRuns_filter (f : β → Option γ) (last : γ) (l : List β) :
    firstOfRuns f last (l.filter fun c => (f c).isSome) = firstOfRuns f last l := by
  induction l generalizing last with
  | nil => rfl
  | cons c rest ih =>
    cases value : f c with
    | none => simp [firstOfRuns, value, ih]
    | some z => simp [firstOfRuns, value, ih]

/-- `z` is not taken again if nothing else comes before its last place. -/
theorem last_not_mem (h : l.Pairwise fun c d => f d = some z → f c = some z) :
    z ∉ firstOfRuns f z l := by
  induction l with
  | nil => exact List.not_mem_nil
  | cons c rest ih =>
    obtain ⟨head, tail⟩ := List.pairwise_cons.mp h
    rw [firstOfRuns]
    split
    · exact ih tail
    · rename_i z' value
      split
      · exact ih tail
      · rename_i other
        intro mem
        obtain eq | mem := List.mem_cons.mp mem
        · exact other eq.symm
        · obtain ⟨d, hd, again⟩ := value_of_firstOfRuns mem
          rw [head d hd again] at value
          exact other (Option.some.inj value).symm

/-- **Each value once**, when equal values are adjacent. -/
theorem firstOfRuns_nodup [Preorder β] (ascending : l.Pairwise (· < ·))
    (convex : ∀ x k y w, f x = some w → f y = some w → x < k → k < y → f k = some w) :
    (firstOfRuns f last l).Nodup := by
  induction l generalizing last with
  | nil => exact List.nodup_nil
  | cons c rest ih =>
    obtain ⟨head, tail⟩ := List.pairwise_cons.mp ascending
    rw [firstOfRuns]
    split
    · exact ih tail
    · rename_i z value
      split
      · exact ih tail
      · refine List.nodup_cons.mpr ⟨?_, ih tail⟩
        apply last_not_mem
        apply tail.imp_of_mem ?_
        intro d e hd he hlt again
        exact convex c d e z value again (head d hd) hlt

end

end PrefixKeys
