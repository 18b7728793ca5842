import ChronosVector.Boundary
import ChronosVector.Lib.UniqueOwner

/-!
# The objects of the C++ wrapper

`chronosv::Engine` holds a handle or null, is moved and never copied. Its members
pass the handle on; a C call on a null handle is refused.

* `Stmt`: what a program does with its objects, and `Stmt.op`: what that is to
  their handles;
* `Objects.member`: the answer of a member function;
* `objects_own_engines`: each engine has one owner, is destroyed once, and takes no
  notice of being moved.
-/

namespace ChronosVector

open UniqueOwner (usesOf usesNow applyAll applyAll_append created)

variable {F : Type} [FloatArith F] {ι : Type} [DecidableEq ι]

/-- What a program does with the objects named by `ι`. `path` is what is at the
cold path then. -/
inductive Stmt (ι F : Type)
  | create (x : ι) (env : Env F) (cfg : Config) (path : Option (ColdTier F))
  | moveConstruct (x y : ι)
  | moveAssign (x y : ι)
  | request (x : ι) (env : Env F) (q : Request F)
  | destruct (x : ι)

namespace Stmt

/-- A `Create` that fails makes no object. -/
def op : Stmt ι F → Option (UniqueOwner.Op ι (Engine F))
  | create x env cfg path =>
    match Engine.create env cfg path with
    | .error _ => none
    | .ok e => some (.create x e)
  | moveConstruct x y => some (.moveConstruct x y)
  | moveAssign x y => some (.moveAssign x y)
  | request x env q => some (.use x fun e => (e.request env q).2)
  | destruct x => some (.destruct x)

end Stmt

abbrev Objects (ι F : Type) := UniqueOwner.State ι (Engine F)

def ops (program : List (Stmt ι F)) : List (UniqueOwner.Op ι (Engine F)) :=
  program.filterMap Stmt.op

/-- What a request answers without an engine. `Close` asks for itself. -/
def Request.onNull : Request F → ErrorCode
  | .call .close => .closed
  | _ => .invalidArg

/-- The answer of a member of `x`, if `x` is in its lifetime and its handle is null
or not gone. -/
def Objects.member (s : Objects ι F) (x : ι) (env : Env F) (q : Request F) : Option ErrorCode :=
  match s.slot x with
  | none => none
  | some none => some q.onNull
  | some (some h) => (s.heap h).map fun e => (e.request env q).1

/-- The request that engine `h` gets from a statement. -/
def requestsNow (s : Objects ι F) (h : Nat) : Stmt ι F → List (Env F × Request F)
  | .request x env q => if s.slot x = some (some h) then [(env, q)] else []
  | _ => []

/-- The requests that engine `h` gets, through whichever object has it then. -/
def requestsOf (h : Nat) : Objects ι F → List (Stmt ι F) → List (Env F × Request F)
  | _, [] => []
  | s, stmt :: rest =>
    match stmt.op with
    | none => requestsOf h s rest
    | some op =>
      requestsNow s h stmt ++
        match s.step op with
        | none => []
        | some s' => requestsOf h s' rest

/-- A request as what it does to an engine. -/
def effectOf (p : Env F × Request F) (e : Engine F) : Engine F := (e.request p.1 p.2).2

omit [DecidableEq ι] in
theorem applyAll_requests (qs : List (Env F × Request F)) (e : Engine F) :
    applyAll (qs.map effectOf) e = Engine.requests qs e := by
  induction qs generalizing e with
  | nil => rfl
  | cons p rest ih => exact ih (effectOf p e)

omit [DecidableEq ι] in
theorem usesNow_op {s : Objects ι F} {h : Nat} {stmt : Stmt ι F} {op : UniqueOwner.Op ι (Engine F)}
    (is : stmt.op = some op) : usesNow s h op = (requestsNow s h stmt).map effectOf := by
  cases stmt with
  | create x env cfg path =>
    simp only [Stmt.op] at is
    split at is
    · cases is
    · cases is
      rfl
  | request x env q =>
    cases is
    simp only [usesNow, requestsNow]
    split <;> rfl
  | moveConstruct | moveAssign | destruct =>
    cases is
    rfl

theorem usesOf_ops (h : Nat) (s : Objects ι F) (program : List (Stmt ι F)) :
    usesOf h s (ops program) = (requestsOf h s program).map effectOf := by
  induction program generalizing s with
  | nil => rfl
  | cons stmt rest ih =>
    simp only [ops, List.filterMap_cons, requestsOf]
    cases is : stmt.op with
    | none => exact ih s
    | some op =>
      simp only [usesOf, usesNow_op is, List.map_append]
      cases s.step op with
      | none => rfl
      | some s' => exact congrArg _ (ih s')

omit [DecidableEq ι] in
/-- Every member has an answer. -/
theorem member_answers {s : Objects ι F} (owned : s.Owned) {x : ι} (live : s.slot x ≠ none)
    (env : Env F) (q : Request F) : (s.member x env q).isSome := by
  unfold Objects.member
  split
  · contradiction
  · rfl
  · rename_i held
    rw [Option.isSome_map]
    exact owned.alive held

/-- **Objects own their engines.** For every program that minds the lifetimes of
its objects, whatever it moves and assigns, also to itself: no handle is used or
destroyed after it was destroyed. What an object has, no other object has, and it
is the engine created under the handle after the requests made through its owners,
moves left out. An engine without an owner was destroyed, and once, and so were
all of them where no object is left. -/
theorem objects_own_engines {program : List (Stmt ι F)}
    (lives : Runs.Along UniqueOwner.State.step UniqueOwner.State.Lives .empty (ops program)) :
    ∃ s : Objects ι F, UniqueOwner.State.empty.run (ops program) = some s ∧
      (∀ x, s.slot x ≠ none → ∀ env q, (s.member x env q).isSome) ∧
      (∀ x h, s.slot x = some (some h) → (∀ y, s.slot y = some (some h) → y = x) ∧
        ∃ e, (created (ops program))[h]? = some e ∧
          s.heap h = some (Engine.requests (requestsOf h .empty program) e)) ∧
      (∀ h < (created (ops program)).length,
        (∃ x, s.slot x = some (some h)) ∨ s.freed.count h = 1) ∧
      ((∀ x, s.slot x = none) → ∀ h < (created (ops program)).length, s.freed.count h = 1) := by
  obtain ⟨s, ran, owned⟩ := UniqueOwner.run_owned UniqueOwner.empty_owned lives
  have next : s.next = (created (ops program)).length := by
    rw [UniqueOwner.run_next ran]
    exact Nat.zero_add _
  rw [← next]
  refine ⟨s, ran, fun x live => member_answers owned live, ?_, ?_, ?_⟩
  · intro x h held
    refine ⟨fun y held' => owned.unique held' held, ?_⟩
    obtain ⟨e', there⟩ := Option.isSome_iff_exists.mp (owned.alive held)
    obtain ⟨e, before | ⟨-, made⟩, same⟩ :=
      UniqueOwner.thing_of_handle UniqueOwner.empty_owned lives ran there
    · cases before
    · exact ⟨e, made, by rw [there, same, usesOf_ops, applyAll_requests]⟩
  · intro h known
    obtain there | freed := owned.born.mp known
    · exact .inl (owned.covered there)
    · exact .inr (List.count_eq_one_of_mem owned.once freed)
  · exact fun ended h known => (UniqueOwner.all_given_back owned ended h known).2

/-- An engine that is moved to another object, assigned to itself, and outlived by
the object it was taken from. -/
def movedAround : List (Stmt Bool ℚ) :=
  [.create false (.calm ℚ 0) smallConfig (some .empty),
    .request false (.calm ℚ 0) (.call (.append (some sensorA.bytes) 1 (some fun _ => 1) 1 none)),
    .moveConstruct true false, .moveAssign true true,
    .request false (.calm ℚ 0) (.call .flush), .request true (.calm ℚ 0) (.call .flush),
    .destruct true, .destruct false]

theorem movedAround_lives :
    Runs.Along UniqueOwner.State.step UniqueOwner.State.Lives .empty (ops movedAround) := by
  refine Runs.along_of_check (p := fun s op => decide (s.Lives op)) (I := fun _ => True)
    (fun _ _ _ _ _ _ => trivial) (fun _ _ _ => of_decide_eq_true) trivial ?_
  decide +kernel

theorem movedAround_owns :
    ∃ s : Objects Bool ℚ, UniqueOwner.State.empty.run (ops movedAround) = some s ∧
      (∀ x, s.slot x ≠ none → ∀ env q, (s.member x env q).isSome) ∧
      (∀ x h, s.slot x = some (some h) → (∀ y, s.slot y = some (some h) → y = x) ∧
        ∃ e, (created (ops movedAround))[h]? = some e ∧
          s.heap h = some (Engine.requests (requestsOf h .empty movedAround) e)) ∧
      (∀ h < (created (ops movedAround)).length,
        (∃ x, s.slot x = some (some h)) ∨ s.freed.count h = 1) ∧
      ((∀ x, s.slot x = none) → ∀ h < (created (ops movedAround)).length, s.freed.count h = 1) :=
  objects_own_engines movedAround_lives

example : (requestsOf 0 .empty movedAround).length = 2 := by decide +kernel

end ChronosVector
