import Mathlib.Algebra.Group.Nat.Defs
import Mathlib.Logic.Function.Basic

/-!
# Reflected CRC registers

A register of `w` bits that shifts right and adds the polynomial when a one
falls out.

* `shifts_xor`: the register is linear over exclusive or;
* `shifts_table`: several shifts at once, from a table of the low bits;
* `shifts_injective`: with the top bit in the polynomial, nothing is forgotten;
* `fold_modify_ne`: hence changing one byte of a message changes its register;
* `feed`: the same register with the message bit by bit, each meeting the bit
  that falls out;
* `feeds_shifts`: up to `w` bits can be put in at once;
* `burst_ne`: messages that differ within `w` bits in a row have different
  registers.
-/

namespace Crc

variable {w : Nat}

/-- One step. -/
def shift (poly c : BitVec w) : BitVec w :=
  if c.getLsbD 0 then poly ^^^ (c >>> 1) else c >>> 1

def shifts (poly : BitVec w) : Nat → BitVec w → BitVec w
  | 0, c => c
  | n + 1, c => shifts poly n (shift poly c)

/-- The low `n` bits. -/
def low (w n : Nat) : BitVec w := BitVec.ofNat w (2 ^ n - 1)

variable (poly : BitVec w)

theorem shift_xor (a b : BitVec w) : shift poly (a ^^^ b) = shift poly a ^^^ shift poly b := by
  simp only [shift, BitVec.getLsbD_xor, BitVec.ushiftRight_xor_distrib]
  cases a.getLsbD 0 <;> cases b.getLsbD 0
  · rfl
  · simp only [Bool.false_xor, if_true, Bool.false_eq_true, if_false]
    ac_rfl
  · simp only [Bool.xor_false, if_true, Bool.false_eq_true, if_false]
    ac_rfl
  · -- the two polynomials cancel
    simp only [Bool.xor_self, Bool.false_eq_true, if_false, if_true]
    rw [BitVec.xor_comm poly (b >>> 1), ← BitVec.xor_assoc, BitVec.xor_comm poly (a >>> 1),
      BitVec.xor_assoc (a >>> 1), BitVec.xor_comm poly (b >>> 1), ← BitVec.xor_assoc,
      BitVec.xor_assoc, BitVec.xor_self, BitVec.xor_zero]

theorem shifts_xor (n : Nat) (a b : BitVec w) :
    shifts poly n (a ^^^ b) = shifts poly n a ^^^ shifts poly n b := by
  induction n generalizing a b with
  | zero => rfl
  | succ n ih => rw [shifts, shifts, shifts, shift_xor, ih]

/-- Zeros falling out only move the rest down. -/
theorem shifts_of_low {n : Nat} {c : BitVec w} (h : ∀ i, i < n → c.getLsbD i = false) :
    shifts poly n c = c >>> n := by
  induction n generalizing c with
  | zero => rw [shifts, BitVec.ushiftRight_zero]
  | succ n ih =>
    have first : shift poly c = c >>> 1 := by
      rw [shift, h 0 (Nat.succ_pos n), if_neg Bool.false_ne_true]
    rw [shifts, first, ih, ← BitVec.shiftRight_add, Nat.add_comm]
    intro i hi
    rw [BitVec.getLsbD_ushiftRight]
    exact h _ (by omega)

theorem getLsbD_low (n i : Nat) : (low w n).getLsbD i = (decide (i < w) && decide (i < n)) := by
  rw [low, BitVec.getLsbD_ofNat, Nat.testBit_two_pow_sub_one]

/-- **The table.** `n` steps are those of the low `n` bits, and the rest moved
down. -/
theorem shifts_table (n : Nat) (c : BitVec w) :
    shifts poly n c = shifts poly n (c &&& low w n) ^^^ (c >>> n) := by
  have parts : c = (c &&& low w n) ^^^ (c &&& ~~~low w n) := by
    apply BitVec.eq_of_getLsbD_eq
    intro i hi
    simp only [BitVec.getLsbD_xor, BitVec.getLsbD_and, BitVec.getLsbD_not, hi, decide_true]
    cases c.getLsbD i <;> cases (low w n).getLsbD i <;> rfl
  have rest : shifts poly n (c &&& ~~~low w n) = c >>> n := by
    rw [shifts_of_low]
    · apply BitVec.eq_of_getLsbD_eq
      intro i _
      simp only [BitVec.getLsbD_ushiftRight, BitVec.getLsbD_and, BitVec.getLsbD_not, getLsbD_low]
      by_cases hi : n + i < w
      · simp [hi]
      · simp [BitVec.getLsbD_of_ge c (n + i) (by omega)]
    · intro i hi
      simp [getLsbD_low, hi]
  conv => lhs; rw [parts]
  rw [shifts_xor, rest]

/-- The bit that falls out is the top bit after the step, and the others have
only moved. -/
theorem shift_injective (top : poly.msb = true) : Function.Injective (shift poly) := by
  have hw : 0 < w := by
    obtain rfl | h := Nat.eq_zero_or_pos w
    · simp [BitVec.eq_nil poly] at top
    · exact h
  have out (c : BitVec w) : (shift poly c).msb = c.getLsbD 0 := by
    unfold shift
    split
    · rename_i h
      rw [BitVec.msb_xor, top, BitVec.msb_ushiftRight, h]
      simp
    · rename_i h
      rw [BitVec.msb_ushiftRight]
      simp [h]
  intro a b h
  have bit : a.getLsbD 0 = b.getLsbD 0 := by rw [← out a, ← out b, h]
  have moved : a >>> 1 = b >>> 1 := by
    unfold shift at h
    rw [bit] at h
    split at h
    · simpa using h
    · exact h
  apply BitVec.eq_of_getLsbD_eq
  intro i _
  cases i with
  | zero => exact bit
  | succ i =>
    have := congrArg (fun c => c.getLsbD i) moved
    simpa only [BitVec.getLsbD_ushiftRight, Nat.add_comm 1 i] using this

theorem shifts_injective (top : poly.msb = true) (n : Nat) :
    Function.Injective (shifts poly n) := by
  induction n with
  | zero => exact fun _ _ h => h
  | succ n ih => exact fun a b h => shift_injective poly top (ih h)

/-! ## Messages -/

variable {α β : Type} {f : α → β → α}

/-- Different registers stay different over the same message. -/
theorem fold_ne (inj : ∀ b, Function.Injective fun a => f a b) {a a' : α} (h : a ≠ a')
    (l : List β) : l.foldl f a ≠ l.foldl f a' := by
  induction l generalizing a a' with
  | nil => exact h
  | cons b l ih => exact ih fun eq => h (inj b eq)

/-- **One changed byte** changes the register. -/
theorem fold_modify_ne (inj : ∀ b, Function.Injective fun a => f a b)
    (injByte : ∀ a, Function.Injective (f a)) (a : α) {l : List β} {i : Nat} {g : β → β}
    (hi : i < l.length) (hg : g l[i] ≠ l[i]) : (l.modify i g).foldl f a ≠ l.foldl f a := by
  induction l generalizing i a with
  | nil => simp at hi
  | cons b l ih =>
    cases i with
    | zero =>
      simp only [List.modify_zero_cons, List.foldl_cons]
      exact fold_ne inj (fun h => hg (injByte a h)) l
    | succ i =>
      simp only [List.modify_succ_cons, List.foldl_cons]
      exact ih _ (by simpa using hi) hg

/-! ## Bit by bit -/

/-- One message bit. -/
def feed (c : BitVec w) (b : Bool) : BitVec w :=
  if c.getLsbD 0 ≠ b then poly ^^^ (c >>> 1) else c >>> 1

/-- A bit at the low end. -/
def bit (w : Nat) (b : Bool) : BitVec w := if b then 1#w else 0#w

/-- Bits from the low end on. -/
def pack (w : Nat) (l : List Bool) : BitVec w := (BitVec.ofBoolListLE l).setWidth w

/-- The bits of a word, the lowest first. -/
def bits {n : Nat} (x : BitVec n) : List Bool := (List.range n).map x.getLsbD

@[simp] theorem bits_length {n : Nat} (x : BitVec n) : (bits x).length = n := by simp [bits]

theorem getLsbD_pack (l : List Bool) (i : Nat) :
    (pack w l).getLsbD i = (decide (i < w) && l.getD i false) := by
  rw [pack, BitVec.getLsbD_setWidth, BitVec.getLsbD_ofBoolListLE]

theorem pack_bits {n : Nat} (x : BitVec n) : pack w (bits x) = x.setWidth w := by
  apply BitVec.eq_of_getLsbD_eq
  intro i _
  rw [getLsbD_pack, BitVec.getLsbD_setWidth, bits, List.getD_eq_getElem?_getD, List.getElem?_map]
  by_cases inside : i < n
  · simp [inside]
  · simp [inside, BitVec.getLsbD_of_ge x i (Nat.le_of_not_lt inside)]

theorem getLsbD_bit (b : Bool) (i : Nat) :
    (bit w b).getLsbD i = (decide (i < w) && decide (i = 0) && b) := by
  cases b with
  | false => simp [bit]
  | true => cases i <;> simp [bit, BitVec.getLsbD_one]

theorem pack_injective {l l' : List Bool} (length : l.length = l'.length) (short : l.length ≤ w)
    (h : pack w l = pack w l') : l = l' := by
  apply List.ext_getElem length
  intro i hi hi'
  have bits := congrArg (fun c => c.getLsbD i) h
  have inside : i < w := Nat.lt_of_lt_of_le hi short
  simp only [getLsbD_pack] at bits
  simpa [inside, hi, hi'] using bits

theorem feed_eq (pos : 0 < w) (c : BitVec w) (b : Bool) :
    feed poly c b = shift poly (c ^^^ bit w b) := by
  have moved : bit w b >>> 1 = 0#w := by
    apply BitVec.eq_of_getLsbD_eq
    intro i _
    rw [BitVec.getLsbD_ushiftRight, getLsbD_bit]
    simp
  have low : (bit w b).getLsbD 0 = b := by
    rw [getLsbD_bit]
    simp [pos]
  rw [feed, shift, BitVec.getLsbD_xor, low, BitVec.ushiftRight_xor_distrib, moved, BitVec.xor_zero]
  cases c.getLsbD 0 <;> cases b <;> rfl

theorem feed_injective (top : poly.msb = true) (b : Bool) :
    Function.Injective fun c => feed poly c b := by
  obtain rfl | pos := Nat.eq_zero_or_pos w
  · simp [BitVec.eq_nil poly] at top
  · intro c c' h
    simp only [feed_eq poly pos] at h
    simpa using shift_injective poly top h

/-- The first bit goes out, the others move down. -/
theorem shift_pack {b : Bool} {l : List Bool} (short : l.length < w) :
    shift poly (pack w (b :: l)) = shift poly (bit w b) ^^^ pack w l := by
  have pos : 0 < w := Nat.lt_of_le_of_lt (Nat.zero_le _) short
  have parts : pack w (b :: l) = bit w b ^^^ (pack w l <<< 1) := by
    apply BitVec.eq_of_getLsbD_eq
    intro i hi
    rw [BitVec.getLsbD_xor, BitVec.getLsbD_shiftLeft, getLsbD_bit, getLsbD_pack, getLsbD_pack]
    cases i with
    | zero => simp [pos]
    | succ i =>
      have inside : i < w := Nat.lt_of_succ_lt hi
      simp [hi, inside]
  have rest : shift poly (pack w l <<< 1) = pack w l := by
    have zero : (pack w l <<< 1).getLsbD 0 = false := by simp
    rw [shift, zero, if_neg Bool.false_ne_true]
    apply BitVec.eq_of_getLsbD_eq
    intro i hi
    rw [BitVec.getLsbD_ushiftRight, BitVec.getLsbD_shiftLeft, getLsbD_pack, getLsbD_pack,
      Nat.add_comm 1 i, Nat.add_sub_cancel]
    by_cases last : i + 1 < w
    · simp [hi, last]
    · -- the bit that left at the top was none of the message's
      have past : l.length ≤ i := by omega
      simp [last, past]
  rw [parts, shift_xor, rest]

/-- **Many bits at once.** -/
theorem feeds_shifts {l : List Bool} (short : l.length ≤ w) (c : BitVec w) :
    l.foldl (feed poly) c = shifts poly l.length (c ^^^ pack w l) := by
  induction l generalizing c with
  | nil =>
    have none : pack w [] = 0#w := by
      apply BitVec.eq_of_getLsbD_eq
      intro i _
      rw [getLsbD_pack]
      simp
    rw [none, BitVec.xor_zero]
    rfl
  | cons b l ih =>
    have room : l.length < w := short
    have pos : 0 < w := Nat.lt_of_le_of_lt (Nat.zero_le _) room
    rw [List.foldl_cons, ih (Nat.le_of_lt room), feed_eq poly pos, List.length_cons, shifts,
      shift_xor, shift_xor, shift_pack poly room, BitVec.xor_assoc]

/-! ## Bursts -/

theorem feeds_ne (top : poly.msb = true) {c c' : BitVec w} (h : c ≠ c') (l : List Bool) :
    l.foldl (feed poly) c ≠ l.foldl (feed poly) c' := fold_ne (feed_injective poly top) h l

/-- At most `w` bits leave their own register each. -/
theorem short_ne (top : poly.msb = true) (c : BitVec w) {l l' : List Bool}
    (length : l.length = l'.length) (short : l.length ≤ w) (differ : l ≠ l') :
    l.foldl (feed poly) c ≠ l'.foldl (feed poly) c := by
  rw [feeds_shifts poly short, feeds_shifts poly (length ▸ short), ← length]
  intro same
  apply differ
  apply pack_injective length short
  simpa using shifts_injective poly top _ same

/-- **Bursts.** -/
theorem burst_ne (top : poly.msb = true) (c : BitVec w) {l l' : List Bool} {start : Nat}
    (length : l.length = l'.length) (differ : l ≠ l')
    (burst : ∀ i, l[i]? ≠ l'[i]? → start ≤ i ∧ i < start + w) :
    l.foldl (feed poly) c ≠ l'.foldl (feed poly) c := by
  have before : l.take start = l'.take start := by
    apply List.ext_getElem?
    intro i
    rw [List.getElem?_take, List.getElem?_take]
    split
    · by_contra other
      have := burst i other
      omega
    · rfl
  have after : (l.drop start).drop w = (l'.drop start).drop w := by
    apply List.ext_getElem?
    intro i
    rw [List.getElem?_drop, List.getElem?_drop, List.getElem?_drop, List.getElem?_drop]
    by_contra other
    have := burst _ other
    omega
  have middle : (l.drop start).take w ≠ (l'.drop start).take w := by
    intro same
    apply differ
    rw [← List.take_append_drop start l, ← List.take_append_drop w (l.drop start), before, same,
      after, List.take_append_drop, List.take_append_drop]
  have lengths : ((l.drop start).take w).length = ((l'.drop start).take w).length := by
    rw [List.length_take, List.length_take, List.length_drop, List.length_drop, length]
  have short : ((l.drop start).take w).length ≤ w := List.length_take_le _ _
  rw [← List.take_append_drop start l, ← List.take_append_drop w (l.drop start),
    ← List.take_append_drop start l', ← List.take_append_drop w (l'.drop start)]
  simp only [List.foldl_append, before, after]
  exact feeds_ne poly top (short_ne poly top _ lengths short middle) _

end Crc
