import Mathlib.Algebra.GroupWithZero.Nat
import Mathlib.Data.List.AList

/-!
# Sums over the values of a finite map

A number for each value of an association list, summed. Taking a key out takes
its number out, and inserting a key adds the number of its new value.
-/

namespace AList

variable {α : Type} {β : α → Type} [DecidableEq α]

def valueSum (f : (a : α) → β a → Nat) (m : AList β) : Nat :=
  (m.entries.map fun x => f x.1 x.2).sum

variable (f : (a : α) → β a → Nat) {m : AList β} {a : α} {b : β a}

theorem valueSum_erase (h : m.lookup a = some b) :
    m.valueSum f = f a b + (m.erase a).valueSum f := by
  have mem : a ∈ m.keys := AList.lookup_isSome.mp (by rw [h]; rfl)
  obtain ⟨b', before, after, fresh, entries, erased⟩ := List.exists_of_kerase mem
  have value : b' = b := by
    have found := (List.mem_dlookup_iff m.nodupKeys).mpr
      (show (⟨a, b'⟩ : Sigma β) ∈ m.entries by simp [entries])
    exact Option.some.inj (found.symm.trans h)
  subst value
  have rest : (m.erase a).entries = before ++ after := erased
  unfold valueSum
  rw [entries, rest]
  simp only [List.map_append, List.map_cons, List.sum_append, List.sum_cons]
  omega

theorem valueSum_insert (m : AList β) (a : α) (b : β a) :
    (m.insert a b).valueSum f = f a b + (m.erase a).valueSum f := by
  have entries : (m.insert a b).entries = ⟨a, b⟩ :: (m.erase a).entries := rfl
  unfold valueSum
  rw [entries, List.map_cons, List.sum_cons]

theorem valueSum_insert_of_lookup {b' : β a} (h : m.lookup a = some b) :
    (m.insert a b').valueSum f + f a b = m.valueSum f + f a b' := by
  rw [valueSum_insert, valueSum_erase f h]
  omega

theorem valueSum_insert_of_notMem {b : β a} (h : m.lookup a = none) :
    (m.insert a b).valueSum f = m.valueSum f + f a b := by
  have fresh : a ∉ m.keys := AList.lookup_eq_none.mp h
  have same : (m.erase a).entries = m.entries := List.kerase_of_notMem_keys fresh
  rw [valueSum_insert]
  unfold valueSum
  rw [same]
  omega

end AList
