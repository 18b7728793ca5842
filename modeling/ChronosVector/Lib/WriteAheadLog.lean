import Mathlib.Data.List.Forall2
import Mathlib.Order.Basic

/-!
# A store behind a write-ahead log

Writes take effect in their order at once and become durable in their order
later. A crash keeps some first part of those made since the last sync.

* `view`, `write`, `sync`, `crash`: the store and what happens to it;
* `Moves`: every write of a list moves the store on along a relation;
* `Steady.between`: a crash leaves the store between what was durable and what
  was to be seen;
* `Twins`: two stores that are written together, and lose the same in a crash.
-/

/-- The store as it was at the last sync, and the writes made since. -/
structure Wal (σ ω : Type) where
  durable : σ
  pending : List ω

namespace Wal

variable {σ ω : Type} (apply : σ → ω → σ)

def view (w : Wal σ ω) : σ := w.pending.foldl apply w.durable

def write (w : Wal σ ω) (ops : List ω) : Wal σ ω := ⟨w.durable, w.pending ++ ops⟩

def sync (w : Wal σ ω) : Wal σ ω := ⟨w.view apply, []⟩

/-- The first `kept` writes have reached the disk. -/
def crash (w : Wal σ ω) (kept : Nat) : Wal σ ω := ⟨(w.pending.take kept).foldl apply w.durable, []⟩

@[simp] theorem view_write (w : Wal σ ω) (ops : List ω) :
    (w.write ops).view apply = ops.foldl apply (w.view apply) := List.foldl_append

@[simp] theorem view_sync (w : Wal σ ω) : (w.sync apply).view apply = w.view apply := rfl

@[simp] theorem view_crash (w : Wal σ ω) (kept : Nat) :
    (w.crash apply kept).view apply = (w.crash apply kept).durable := rfl

/-- Each of the writes, made in this order from `d`, moves the store along `R`. -/
def Moves (R : σ → σ → Prop) : σ → List ω → Prop
  | _, [] => True
  | d, x :: xs => R d (apply d x) ∧ Moves R (apply d x) xs

section
variable {apply} {R : σ → σ → Prop} {d : σ} {xs ys : List ω} {w : Wal σ ω}

theorem moves_append :
    Moves apply R d (xs ++ ys) ↔ Moves apply R d xs ∧ Moves apply R (xs.foldl apply d) ys := by
  induction xs generalizing d with
  | nil => simp [Moves]
  | cons x xs ih => simp only [List.cons_append, Moves, List.foldl_cons, ih, and_assoc]

theorem Moves.take (h : Moves apply R d xs) (n : Nat) : Moves apply R d (xs.take n) := by
  rw [← List.take_append_drop n xs] at h
  exact (moves_append.mp h).1

theorem Moves.drop (h : Moves apply R d xs) (n : Nat) :
    Moves apply R ((xs.take n).foldl apply d) (xs.drop n) := by
  rw [← List.take_append_drop n xs] at h
  exact (moves_append.mp h).2

section
variable [Std.Refl R] [IsTrans σ R]

theorem Moves.foldl (h : Moves apply R d xs) : R d (xs.foldl apply d) := by
  induction xs generalizing d with
  | nil => exact refl_of R d
  | cons x xs ih => exact trans_of R h.1 (ih h.2)

end

/-- Every write since the last sync moves the store along `R`. -/
def Steady (apply : σ → ω → σ) (R : σ → σ → Prop) (w : Wal σ ω) : Prop :=
  Moves apply R w.durable w.pending

theorem Steady.write (h : w.Steady apply R) (ops : Moves apply R (w.view apply) xs) :
    (w.write xs).Steady apply R := moves_append.mpr ⟨h, ops⟩

theorem steady_sync (w : Wal σ ω) : (w.sync apply).Steady apply R := trivial

theorem steady_crash (w : Wal σ ω) (kept : Nat) : (w.crash apply kept).Steady apply R := trivial

section
variable [Std.Refl R] [IsTrans σ R]

/-- **A crash leaves the store in between.** -/
theorem Steady.between (h : w.Steady apply R) (kept : Nat) :
    R w.durable (w.crash apply kept).durable ∧ R (w.crash apply kept).durable (w.view apply) := by
  constructor
  · exact (Moves.take h kept).foldl
  · have rest := (Moves.drop h kept).foldl
    rw [← List.foldl_append, List.take_append_drop] at rest
    exact rest

theorem Steady.durable_view (h : w.Steady apply R) : R w.durable (w.view apply) := Moves.foldl h

end

end

/-! ## Two stores -/

section
variable {τ υ : Type}

/-- What is durable belongs together, and so do the writes made since. -/
structure Twins (R : σ → τ → Prop) (S : ω → υ → Prop) (w : Wal σ ω) (v : Wal τ υ) : Prop where
  durable : R w.durable v.durable
  pending : List.Forall₂ S w.pending v.pending

variable {apply : σ → ω → σ} {apply' : τ → υ → τ} {R R' : σ → τ → Prop} {S S' : ω → υ → Prop}
  {w : Wal σ ω} {v : Wal τ υ} {xs : List ω} {ys : List υ}

theorem Twins.imp (h : Twins R S w v) (stores : ∀ d d', R d d' → R' d d')
    (writes : ∀ x y, S x y → S' x y) : Twins R' S' w v :=
  ⟨stores _ _ h.durable, h.pending.imp writes⟩

theorem Twins.write (h : Twins R S w v) (both : List.Forall₂ S xs ys) :
    Twins R S (w.write xs) (v.write ys) := ⟨h.durable, List.rel_append h.pending both⟩

section
open Relator
variable (keeps : (R ⇒ S ⇒ R) apply apply')
include keeps

theorem Twins.view (h : Twins R S w v) : R (w.view apply) (v.view apply') :=
  List.rel_foldl keeps h.durable h.pending

theorem Twins.sync (h : Twins R S w v) : Twins R S (w.sync apply) (v.sync apply') :=
  ⟨h.view keeps, .nil⟩

/-- **The same is lost.** -/
theorem Twins.crash (h : Twins R S w v) (kept : Nat) :
    Twins R S (w.crash apply kept) (v.crash apply' kept) :=
  ⟨List.rel_foldl keeps h.durable (List.forall₂_take kept h.pending), .nil⟩

end

end

end Wal
