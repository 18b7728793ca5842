import Mathlib.Data.List.Basic

/-!
# Flat memory in slots

Memory as a function of the cell's address, block copies between two memories,
and the layout of fixed-size slots: slot `i` of stride `s` is the cells
`i * s .. i * s + s`. Distinct slots never overlap, so a copy into one slot
leaves every other slot as it was.
-/

namespace Cells

variable {α : Type}

/-- The `n` cells from `off` on. -/
def load (m : Nat → α) (off n : Nat) : List α := (List.range n).map fun j => m (off + j)

/-- Copy the first `n` cells of `src` to `dst` at `off`. -/
def copy (dst : Nat → α) (off : Nat) (src : Nat → α) (n : Nat) : Nat → α :=
  fun i => if off ≤ i ∧ i < off + n then src (i - off) else dst i

/-- Slot `i` of stride `s`. -/
def slot (m : Nat → α) (s i : Nat) : List α := load m (i * s) s

/-- A list in memory, with anything behind it. -/
def view (l : List α) (beyond : Nat → α) : Nat → α := fun i => l.getD i (beyond i)

@[simp] theorem load_length (m : Nat → α) (off n : Nat) : (load m off n).length = n := by
  simp [load]

@[simp] theorem load_zero (m : Nat → α) (off : Nat) : load m off 0 = [] := rfl

theorem load_congr {m m' : Nat → α} {off off' n : Nat}
    (h : ∀ j, j < n → m (off + j) = m' (off' + j)) : load m off n = load m' off' n := by
  apply List.map_congr_left
  intro j hj
  exact h j (List.mem_range.mp hj)

/-- Two neighbouring pieces. -/
theorem load_add (m : Nat → α) (off a b : Nat) :
    load m off (a + b) = load m off a ++ load m (off + a) b := by
  simp only [load, List.range_add, List.map_append, List.map_map]
  congr 1
  apply List.map_congr_left
  intro j _
  rw [Function.comp_apply, Nat.add_assoc]

theorem load_getElem (m : Nat → α) (off n j : Nat) (h : j < (load m off n).length) :
    (load m off n)[j] = m (off + j) := by
  simp [load]

theorem load_getD (m : Nat → α) (off : Nat) {n j : Nat} (h : j < n) (d : α) :
    (load m off n).getD j d = m (off + j) := by
  have inside : j < (load m off n).length := by rwa [load_length]
  rw [List.getD_eq_getElem?_getD, List.getElem?_eq_getElem inside, Option.getD_some, load_getElem]

/-- Slots, one behind the other. -/
theorem load_slots {α : Type} (m : Nat → α) (size count : Nat) :
    load m 0 (count * size) = (List.range count).flatMap (slot m size) := by
  induction count with
  | zero => simp
  | succ count ih =>
    rw [Nat.succ_mul, load_add, ih, Nat.zero_add, List.range_succ, List.flatMap_append]
    simp [slot]

/-- A cell is in the slot that its address names. -/
theorem cell_of_slots {m m' : Nat → α} {s n x : Nat} (same : ∀ i < n, slot m s i = slot m' s i)
    (hx : x < n * s) : m x = m' x := by
  have pos : 0 < s := Nat.pos_of_mul_pos_left (Nat.zero_lt_of_lt hx)
  have inside : x / s < n := Nat.div_lt_of_lt_mul (by rwa [Nat.mul_comm])
  have cell := congrArg (fun l : List α => l[x % s]?) (same (x / s) inside)
  simp only [slot, load, List.getElem?_map, List.getElem?_range (Nat.mod_lt x pos),
    Option.map_some, Option.some.injEq] at cell
  rwa [Nat.mul_comm, Nat.div_add_mod] at cell

theorem load_view {l : List α} {off n : Nat} (beyond : Nat → α) (h : off + n ≤ l.length) :
    load (view l beyond) off n = (l.drop off).take n := by
  apply List.ext_getElem
  · simp only [load_length, List.length_take, List.length_drop]
    omega
  · intro j hj _
    have inside : off + j < l.length := by
      rw [load_length] at hj
      omega
    rw [load_getElem, List.getElem_take, List.getElem_drop, view,
      List.getD_eq_getElem?_getD, List.getElem?_eq_getElem inside, Option.getD_some]

/-- A part of a list in memory. -/
theorem load_view_part {data l : List α} {off n : Nat} (pre post : List α) (beyond : Nat → α)
    (hdata : data = pre ++ l ++ post) (hoff : off = pre.length) (hn : n = l.length) :
    load (view data beyond) off n = l := by
  subst hdata hoff hn
  rw [load_view, List.append_assoc, List.drop_left, List.take_left]
  simp only [List.length_append]
  omega

theorem load_view_all (l : List α) (beyond : Nat → α) : load (view l beyond) 0 l.length = l :=
  load_view_part [] [] beyond (by simp) rfl rfl

/-- A copy writes nothing behind its last cell. -/
theorem copy_beyond {dst src : Nat → α} {off n i : Nat} (beyond : off + n ≤ i) :
    copy dst off src n i = dst i := if_neg (by omega)

theorem load_copy_same (dst src : Nat → α) (off n : Nat) :
    load (copy dst off src n) off n = load src 0 n := by
  apply load_congr
  intro j hj
  simp [copy, hj]

theorem load_copy_disjoint {dst src : Nat → α} {off n off' n' : Nat}
    (h : off' + n' ≤ off ∨ off + n ≤ off') :
    load (copy dst off src n) off' n' = load dst off' n' := by
  apply load_congr
  intro j hj
  have : ¬ (off ≤ off' + j ∧ off' + j < off + n) := by omega
  simp [copy, this]

/-- One of `n` slots. -/
theorem slot_inside {i n : Nat} (s : Nat) (h : i < n) : i * s + s ≤ n * s := by
  rw [← Nat.succ_mul]
  exact Nat.mul_le_mul_right s h

theorem slots_disjoint {i j : Nat} (s : Nat) (h : i ≠ j) :
    j * s + s ≤ i * s ∨ i * s + s ≤ j * s := by
  obtain h | h := Nat.lt_or_gt_of_ne h
  · exact .inr (slot_inside s h)
  · exact .inl (slot_inside s h)

@[simp] theorem slot_copy_self (dst src : Nat → α) (s i : Nat) :
    slot (copy dst (i * s) src s) s i = load src 0 s :=
  load_copy_same dst src (i * s) s

theorem slot_copy_ne {i j : Nat} (dst src : Nat → α) (s : Nat) (h : i ≠ j) :
    slot (copy dst (i * s) src s) s j = slot dst s j :=
  load_copy_disjoint (slots_disjoint s h)

end Cells
