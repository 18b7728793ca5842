import Mathlib.Order.Basic
import Mathlib.Data.List.Sort

/-!
# Maps kept sorted by key

A finite map as an association list in strictly ascending key order, the order
in which a sorted store iterates. `put` inserts or replaces; `get` looks up.
`put_append` is the append-only case: a key past every present key goes last.
-/

/-- An association list in strictly ascending key order. -/
structure SortedMap (κ ν : Type) [LinearOrder κ] where
  entries : List (κ × ν)
  sorted : entries.Pairwise fun a b => a.1 < b.1

namespace SortedMap

variable {κ ν : Type} [LinearOrder κ] {k k' : κ} {v : ν}

def empty : SortedMap κ ν := ⟨[], .nil⟩

instance : Inhabited (SortedMap κ ν) := ⟨empty⟩

def keys (m : SortedMap κ ν) : List κ := m.entries.map Prod.fst

def values (m : SortedMap κ ν) : List ν := m.entries.map Prod.snd

def lookup (k : κ) : List (κ × ν) → Option ν
  | [] => none
  | (k', v) :: rest => if k = k' then some v else lookup k rest

def get (m : SortedMap κ ν) (k : κ) : Option ν := lookup k m.entries

def putList (k : κ) (v : ν) : List (κ × ν) → List (κ × ν)
  | [] => [(k, v)]
  | (k', v') :: rest =>
    if k < k' then (k, v) :: (k', v') :: rest
    else if k = k' then (k, v) :: rest
    else (k', v') :: putList k v rest

theorem mem_putList {p : κ × ν} {l : List (κ × ν)} (h : p ∈ putList k v l) :
    p = (k, v) ∨ p ∈ l := by
  induction l with
  | nil => exact .inl (by simpa [putList] using h)
  | cons a rest ih =>
    simp only [putList] at h
    split at h
    · exact List.mem_cons.mp h
    · split at h
      · obtain h | h := List.mem_cons.mp h
        · exact .inl h
        · exact .inr (List.mem_cons_of_mem _ h)
      · obtain h | h := List.mem_cons.mp h
        · exact .inr (h ▸ List.mem_cons_self)
        · exact (ih h).imp_right (List.mem_cons_of_mem _)

theorem putList_sorted {l : List (κ × ν)} (h : l.Pairwise fun a b => a.1 < b.1) :
    (putList k v l).Pairwise fun a b => a.1 < b.1 := by
  induction l with
  | nil => exact List.pairwise_singleton _ _
  | cons a rest ih =>
    obtain ⟨ha, hr⟩ := List.pairwise_cons.mp h
    simp only [putList]
    split
    · rename_i lt
      refine List.pairwise_cons.mpr ⟨?_, h⟩
      intro b hb
      obtain rfl | hb := List.mem_cons.mp hb
      · exact lt
      · exact lt_trans lt (ha b hb)
    · split
      · rename_i eq
        exact List.pairwise_cons.mpr ⟨fun b hb => eq ▸ ha b hb, hr⟩
      · rename_i nlt ne
        refine List.pairwise_cons.mpr ⟨?_, ih hr⟩
        intro b hb
        obtain rfl | hb := mem_putList hb
        · exact lt_of_le_of_ne (not_lt.mp nlt) (Ne.symm ne)
        · exact ha b hb

def put (m : SortedMap κ ν) (k : κ) (v : ν) : SortedMap κ ν :=
  ⟨putList k v m.entries, putList_sorted m.sorted⟩

@[simp] theorem get_empty : (empty : SortedMap κ ν).get k = none := rfl

theorem lookup_putList_self {l : List (κ × ν)} : lookup k (putList k v l) = some v := by
  induction l with
  | nil => simp [putList, lookup]
  | cons a rest ih =>
    simp only [putList]
    split
    · simp [lookup]
    · split
      · simp [lookup]
      · rename_i ne
        simpa [lookup, ne] using ih

theorem lookup_putList_ne (h : k' ≠ k) {l : List (κ × ν)} :
    lookup k' (putList k v l) = lookup k' l := by
  induction l with
  | nil => simp [putList, lookup, h]
  | cons a rest ih =>
    simp only [putList]
    split
    · simp [lookup, h]
    · split
      · rename_i eq
        simp [lookup, h, ← eq]
      · simp [lookup, ih]

@[simp] theorem get_put_self (m : SortedMap κ ν) : (m.put k v).get k = some v :=
  lookup_putList_self

theorem get_put_ne (m : SortedMap κ ν) (h : k' ≠ k) : (m.put k v).get k' = m.get k' :=
  lookup_putList_ne h

theorem lookup_eq_none {l : List (κ × ν)} : lookup k l = none ↔ k ∉ l.map Prod.fst := by
  induction l with
  | nil => simp [lookup]
  | cons a rest ih =>
    by_cases h : k = a.1 <;> simp [lookup, h, ih]

theorem get_eq_none {m : SortedMap κ ν} : m.get k = none ↔ k ∉ m.keys := lookup_eq_none

theorem mem_of_lookup {l : List (κ × ν)} (h : lookup k l = some v) : (k, v) ∈ l := by
  induction l with
  | nil => cases h
  | cons a rest ih =>
    simp only [lookup] at h
    split at h
    · rename_i eq
      cases h
      simp [eq]
    · exact List.mem_cons_of_mem _ (ih h)

theorem lookup_of_mem {l : List (κ × ν)} (hs : l.Pairwise fun a b => a.1 < b.1)
    (h : (k, v) ∈ l) : lookup k l = some v := by
  induction l with
  | nil => cases h
  | cons a rest ih =>
    obtain ⟨ha, hr⟩ := List.pairwise_cons.mp hs
    obtain rfl | h := List.mem_cons.mp h
    · simp [lookup]
    · have : k ≠ a.1 := (ha _ h).ne'
      simpa [lookup, this] using ih hr h

theorem get_eq_some {m : SortedMap κ ν} : m.get k = some v ↔ (k, v) ∈ m.entries :=
  ⟨mem_of_lookup, lookup_of_mem m.sorted⟩

theorem mem_values {m : SortedMap κ ν} : v ∈ m.values ↔ ∃ k, m.get k = some v := by
  simp [values, get_eq_some]

theorem mem_values_put {m : SortedMap κ ν} {v' : ν} (h : v' ∈ (m.put k v).values) :
    v' = v ∨ v' ∈ m.values := by
  obtain ⟨k', hget⟩ := mem_values.mp h
  by_cases eq : k' = k
  · subst eq
    rw [get_put_self] at hget
    exact .inl (Option.some.inj hget).symm
  · rw [get_put_ne m eq] at hget
    exact .inr (mem_values.mpr ⟨k', hget⟩)

theorem mem_put_values (m : SortedMap κ ν) (k : κ) (v : ν) : v ∈ (m.put k v).values :=
  mem_values.mpr ⟨k, get_put_self m⟩

theorem putList_append {l : List (κ × ν)} (h : ∀ p ∈ l, p.1 < k) :
    putList k v l = l ++ [(k, v)] := by
  induction l with
  | nil => rfl
  | cons a rest ih =>
    have ha := h a List.mem_cons_self
    simp only [putList, not_lt.mpr ha.le, ha.ne', if_false, List.cons_append]
    rw [ih fun p hp => h p (List.mem_cons_of_mem _ hp)]

/-- A key past every present key goes last. -/
theorem put_append {m : SortedMap κ ν} (h : ∀ k' ∈ m.keys, k' < k) :
    (m.put k v).entries = m.entries ++ [(k, v)] :=
  putList_append fun p hp => h p.1 (List.mem_map_of_mem hp)

theorem values_put_append {m : SortedMap κ ν} (h : ∀ k' ∈ m.keys, k' < k) :
    (m.put k v).values = m.values ++ [v] := by
  simp [values, put_append h]

theorem keys_put_append {m : SortedMap κ ν} (h : ∀ k' ∈ m.keys, k' < k) :
    (m.put k v).keys = m.keys ++ [k] := by
  simp [keys, put_append h]

theorem keys_sorted (m : SortedMap κ ν) : m.keys.Pairwise (· < ·) :=
  List.pairwise_map.mpr m.sorted

/-- The last key is the largest. -/
theorem le_of_getLast? {m : SortedMap κ ν} {last : κ} (h : m.keys.getLast? = some last)
    (hk : k ∈ m.keys) : k ≤ last := by
  obtain ⟨init, hinit⟩ := List.getLast?_eq_some_iff.mp h
  have hs := m.keys_sorted
  rw [hinit] at hs hk
  obtain hk | hk := List.mem_append.mp hk
  · exact ((List.pairwise_append.mp hs).2.2 k hk last List.mem_cons_self).le
  · rw [List.mem_singleton.mp hk]

/-! ## Half-open ranges -/

variable {lo hi : κ}

/-- The entries from `lo` up to `hi`, in key order. -/
def range (m : SortedMap κ ν) (lo hi : κ) : List (κ × ν) :=
  m.entries.filter fun e => decide (lo ≤ e.1 ∧ e.1 < hi)

def eraseRange (m : SortedMap κ ν) (lo hi : κ) : SortedMap κ ν :=
  ⟨m.entries.filter fun e => decide ¬ (lo ≤ e.1 ∧ e.1 < hi), m.sorted.filter _⟩

theorem mem_range {m : SortedMap κ ν} :
    (k, v) ∈ m.range lo hi ↔ m.get k = some v ∧ lo ≤ k ∧ k < hi := by
  rw [range, List.mem_filter, get_eq_some, decide_eq_true_eq]

theorem range_sorted (m : SortedMap κ ν) (lo hi : κ) :
    (m.range lo hi).Pairwise fun a b => a.1 < b.1 :=
  m.sorted.filter _

theorem get_eraseRange_of_mem (m : SortedMap κ ν) (h : lo ≤ k ∧ k < hi) :
    (m.eraseRange lo hi).get k = none := by
  rw [Option.eq_none_iff_forall_ne_some]
  intro v found
  have kept := (List.mem_filter.mp (get_eq_some.mp found)).2
  exact of_decide_eq_true kept h

theorem get_eraseRange_of_not_mem (m : SortedMap κ ν) (h : ¬ (lo ≤ k ∧ k < hi)) :
    (m.eraseRange lo hi).get k = m.get k := by
  apply Option.ext
  intro v
  rw [get_eq_some, get_eq_some, eraseRange, List.mem_filter, decide_eq_true_eq]
  exact and_iff_left h

theorem mem_keys {m : SortedMap κ ν} : k ∈ m.keys ↔ (m.get k).isSome := by
  rw [← not_iff_not, ← get_eq_none, Option.not_isSome_iff_eq_none]

theorem mem_keys_put {m : SortedMap κ ν} : k' ∈ (m.put k v).keys ↔ k' = k ∨ k' ∈ m.keys := by
  rw [mem_keys, mem_keys]
  by_cases same : k' = k
  · subst same
    simp
  · simp [get_put_ne m same, same]

theorem mem_keys_of_eraseRange {m : SortedMap κ ν} (h : k ∈ (m.eraseRange lo hi).keys) :
    k ∈ m.keys := by
  obtain ⟨e, he, rfl⟩ := List.mem_map.mp h
  exact List.mem_map_of_mem (List.mem_of_mem_filter he)

/-- An entry that a filter on keys drops makes no difference to it. -/
theorem filter_put (m : SortedMap κ ν) (p : κ → Bool) (h : p k = false) :
    ((m.put k v).entries.filter fun e => p e.1) = m.entries.filter fun e => p e.1 := by
  have step (l : List (κ × ν)) :
      ((putList k v l).filter fun e => p e.1) = l.filter fun e => p e.1 := by
    induction l with
    | nil => simp [putList, h]
    | cons a rest ih =>
      simp only [putList]
      split
      · simp [h]
      · split
        · rename_i eq
          simp [h, ← eq]
        · simp only [List.filter_cons, ih]
  exact step m.entries

theorem keys_filter_put (m : SortedMap κ ν) {p : κ → Bool} (h : p k = false) :
    (m.put k v).keys.filter p = m.keys.filter p := by
  rw [keys, keys, List.filter_map, List.filter_map]
  exact congrArg (List.map Prod.fst) (m.filter_put p h)

theorem range_put (m : SortedMap κ ν) (h : ¬ (lo ≤ k ∧ k < hi)) :
    (m.put k v).range lo hi = m.range lo hi :=
  m.filter_put (fun k => decide (lo ≤ k ∧ k < hi)) (decide_eq_false h)

/-! ## Filtering by key -/

/-- The entries whose keys satisfy `p`. -/
def filter (m : SortedMap κ ν) (p : κ → Bool) : SortedMap κ ν :=
  ⟨m.entries.filter fun e => p e.1, m.sorted.filter _⟩

variable {p : κ → Bool}

theorem keys_filter (m : SortedMap κ ν) (p : κ → Bool) : (m.filter p).keys = m.keys.filter p := by
  simp only [keys, filter, List.filter_map]
  rfl

theorem get_filter (m : SortedMap κ ν) (h : p k = true) : (m.filter p).get k = m.get k := by
  simp only [get, filter]
  induction m.entries with
  | nil => rfl
  | cons e rest ih =>
    by_cases eq : k = e.1
    · have kept : p e.1 = true := eq ▸ h
      simp [lookup, eq, kept]
    · by_cases kept : p e.1 = true
      · simp [lookup, eq, kept, ih]
      · simp [lookup, eq, kept, ih]

end SortedMap
