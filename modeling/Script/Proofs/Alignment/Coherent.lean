import Script.Proofs.Alignment.Evaluate
import Script.Proofs.Lexical.Introducing
import Script.Proofs.Lexical.Safety
import Script.Proofs.Session.Sources

namespace Script

/-!
# Coherent machines

A machine is coherent when nothing in it leads to a frame that has not been made.  A
coherent machine is alike itself, each frame standing for itself, whatever names are to
be changed: no scope of it is marked.  What source texts lead to is coherent.
-/

/-- The frames of the functions in a value are among the first ones. -/
def Value.LivesIn
    (size : Nat) :
    Value → Prop
  | .function closure =>
      closure.frame < size
  | .classValue members =>
      ∀ method ∈ members.methods, method.2.frame < size
  | .object target =>
      ∀ method ∈ target.members.methods, method.2.frame < size
  | _ =>
      True

/-- Nothing in a machine leads to a frame that has not been made. -/
structure Machine.Coherent (machine : Machine) : Prop where
  globals : Machine.globals < machine.frames.size
  current : machine.current < machine.frames.size
  parents :
    ∀ frame parent,
      machine.frames.parent? frame = some parent →
      parent < machine.frames.size
  bindings : machine.frames.Holds (Value.LivesIn machine.frames.size)
  fields :
    ∀ (index : Nat) (bindings : Bindings),
      machine.fields[index]? = some bindings →
      ∀ name value,
        bindings.lookup name = some value →
        value.LivesIn machine.frames.size

/-- Each of the first frames stands for itself. -/
def Links.itself (size : Nat) : Links :=
  fun frame partner outline => frame = partner ∧ frame < size ∧ outline = []

section Itself

variable {change : Change} {size : Nat}

theorem Closure.alike_itself
    {closure : Closure}
    (lives : closure.frame < size)
    {inner : Outline}
    (shared : ∀ side ∈ inner, side = .both false) :
    closure.Alike change (.itself size) inner closure where
  identity := rfl
  isInitializer := rfl
  function :=
    ⟨[], false, ⟨rfl, lives, rfl⟩, Outline.common_nil,
      .refl change (by simpa using shared) _⟩

theorem ClassValue.alike_itself
    {members : ClassValue}
    (lives : ∀ method ∈ members.methods, method.2.frame < size) :
    members.Alike change (.itself size) members where
  identity := rfl
  name := rfl
  methods :=
    List.forall₂_same.mpr fun method member =>
      { name := rfl
        closure := Closure.alike_itself (lives method member) (by simp) }

/-- A value whose frames have been made is like itself. -/
theorem Value.LivesIn.alike
    {value : Value}
    (lives : value.LivesIn size) :
    value.Alike change (.itself size) value := by
  cases value with
  | function closure =>
      exact .function (Closure.alike_itself lives (by simp))
  | classValue members =>
      exact .classValue (ClassValue.alike_itself lives)
  | object object =>
      exact .object
        { identity := rfl, members := ClassValue.alike_itself lives }
  | nil =>
      exact .nil
  | bool value =>
      exact .bool value
  | number value =>
      exact .number value
  | text value =>
      exact .text value
  | native host =>
      exact .native host

theorem Value.LivesIn.alike_option
    {value? : Option Value}
    (lives : ∀ value, value? = some value → value.LivesIn size) :
    Option.Rel (Value.Alike change (.itself size)) value? value? := by
  cases value? with
  | none =>
      exact .none
  | some value =>
      exact .some (lives value rfl).alike

/-- Only a frame itself stands for it, and it is not marked. -/
theorem Links.Pairs.itself
    {frame partner : Nat}
    {marked : Bool}
    (pairs : (Links.itself size).Pairs frame partner marked) :
    frame = partner ∧ marked = false := by
  obtain ⟨_, ⟨same, -, rfl⟩, common⟩ := pairs
  exact ⟨same, common.marked_eq Outline.common_nil⟩

end Itself

namespace Machine.Coherent

variable {change : Change} {machine : Machine}

theorem frames_alike
    (coherent : machine.Coherent) :
    machine.frames.Alike change (.itself machine.frames.size) machine.frames where
  made := by
    rintro frame _ _ ⟨rfl, inside, -⟩
    exact ⟨inside, inside⟩
  globals := ⟨rfl, coherent.globals, rfl⟩
  total frame inside := ⟨frame, [], rfl, inside, rfl⟩
  outwards := by
    rintro frame _ _ ⟨rfl, inside, rfl⟩
    cases around : machine.frames.parent? frame with
    | none =>
        exact .outermost around around
    | some parent =>
        exact .rest around around
          ⟨rfl, coherent.parents frame parent around, rfl⟩
  partner := by
    intro frame first second _ _ isPair isOther
    obtain ⟨rfl, rfl⟩ := isPair.itself
    obtain ⟨rfl, rfl⟩ := isOther.itself
    exact ⟨rfl, rfl⟩
  counterpart := by
    intro first second partner _ _ isPair isOther
    obtain ⟨rfl, -⟩ := isPair.itself
    obtain ⟨rfl, -⟩ := isOther.itself
    rfl
  leftAlone := by
    rintro _ _ _ _ _ _ ⟨-, -, none⟩
    cases none
  rightAlone := by
    rintro _ _ _ _ _ _ ⟨-, -, none⟩
    cases none
  bindings := by
    intro frame partner marked pairs name _
    obtain ⟨rfl, rfl⟩ := pairs.itself
    rw [change.name_false]
    exact Value.LivesIn.alike_option (coherent.bindings frame name)

/-- A coherent machine is like itself. -/
theorem alike
    (coherent : machine.Coherent) :
    machine.Alike change (.itself machine.frames.size) [] machine where
  frames := coherent.frames_alike
  fieldsSize := rfl
  fields index := by
    cases stored : machine.fields[index]? with
    | none =>
        exact .none
    | some bindings =>
        refine .some fun name _ => ?_
        rw [change.name_false]
        exact Value.LivesIn.alike_option
          (coherent.fields index bindings stored name)
  identities := rfl
  depth := rfl
  callLimit := rfl
  printed := rfl
  clock := rfl
  readings := rfl
  here := ⟨rfl, coherent.current, rfl⟩

end Machine.Coherent

/-- A value with all its parts is from frames that have been made. -/
theorem Lexical.WholeIn.lives
    {machine : Machine}
    {value : Value}
    (whole : WholeIn machine value) :
    value.LivesIn machine.frames.size := by
  cases value with
  | function | classValue =>
      exact whole
  | object object =>
      exact whole.2
  | nil | bool | number | text | native =>
      trivial

namespace Machine

variable {machine : Machine}

/-- What source texts lead to is coherent. -/
theorem Reachable.coherent
    (reachable : Reachable machine) :
    machine.Coherent := by
  obtain ⟨steps, log, steady⟩ := reachable.steady
  have ordered := steady.sound.ordered
  have whole := steady.sound.whole
  refine
    { globals := ordered.positive
      current := steady.current ▸ ordered.positive
      parents := fun frame parent around => ?_
      bindings := fun frame name value found =>
        (whole.frames frame name value found).lives
      fields := fun index bindings stored name value found =>
        (whole.fields index bindings stored name value found).lives }
  have inside := Frames.lt_size_of_parent? around
  by_cases outermost : frame = globals
  · rw [outermost, ordered.outermost] at around
    cases around
  · obtain ⟨outer, isOuter, older⟩ := ordered.inner frame inside outermost
    cases isOuter.symm.trans around
    exact older.trans inside

end Machine

end Script
