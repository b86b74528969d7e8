import Script.Machine
import Mathlib.Data.List.Infix

namespace Script

/-!
# Frames that grow

What making a frame and binding a name do to all others: parents never change,
names that are bound stay bound, and only the frame that is meant gets a new
value.
-/

namespace Bindings

/-- After a name is set it has the value, and all other names are as before. -/
@[simp]
theorem lookup_set
    (bindings : Bindings)
    (name other : Text)
    (value : Value) :
    List.lookup other (bindings.set name value) =
      if other = name then some value else List.lookup other bindings := by
  induction bindings with
  | nil =>
      by_cases same : other = name
      · simp [set, same]
      · have differs : (other == name) = false := by
          simpa using same
        simp [set, List.lookup_cons, same, differs]
  | cons binding rest inductionHypothesis =>
      obtain ⟨bound, old⟩ := binding
      unfold set
      by_cases replaced : bound = name
      · subst replaced
        by_cases same : other = bound
        · simp [same]
        · have differs : (other == bound) = false := by
            simpa using same
          simp [List.lookup_cons, same, differs]
      · rw [if_neg replaced, List.lookup_cons, inductionHypothesis,
          List.lookup_cons]
        cases same : other == bound with
        | false =>
            rfl
        | true =>
            have equal : other = bound := by
              simpa using same
            have different : other ≠ name := equal ▸ replaced
            simp [different]

end Bindings

namespace Frames

variable (heap : Frames) (frame other : Nat) (name : Text) (value : Value)

@[simp]
theorem size_define : (heap.define frame name value).size = heap.size := by
  simp [define, size]

@[simp]
theorem parent?_define :
    (heap.define frame name value).parent? other = heap.parent? other := by
  unfold parent? define
  simp only [Array.getElem?_modify]
  split
  · cases heap.frames[other]? <;> rfl
  · rfl

/-- A name that is bound has its new value in its frame; all other names have the
values they had. -/
theorem local?_define
    (otherName : Text) :
    (heap.define frame name value).local? other otherName =
      if other = frame ∧ otherName = name ∧ frame < heap.size then
        some value
      else
        heap.local? other otherName := by
  unfold local? define size
  simp only [Array.getElem?_modify]
  by_cases same : frame = other
  · subst same
    by_cases inside : frame < heap.frames.size
    · rw [Array.getElem?_eq_getElem inside]
      simp [inside]
    · rw [Array.getElem?_eq_none (by omega)]
      simp [inside]
  · simp [same, Ne.symm same]

variable (parent : Option Nat) (bindings : Bindings)

@[simp]
theorem size_push : (heap.push parent bindings).size = heap.size + 1 := by
  simp [push, size]

/-- The frame just made has the given parent; all other frames have theirs. -/
theorem parent?_push :
    (heap.push parent bindings).parent? other =
      if other = heap.size then parent else heap.parent? other := by
  unfold parent? push size
  by_cases same : other = heap.frames.size
  · simp [same]
  · simp [same, Array.getElem?_push]

/-- The frame just made has the given names; all other frames have theirs. -/
theorem local?_push :
    (heap.push parent bindings).local? other name =
      if other = heap.size then
        bindings.lookup name
      else
        heap.local? other name := by
  unfold local? push size
  by_cases same : other = heap.frames.size
  · simp [same]
  · simp [same, Array.getElem?_push]

variable {heap frame other name}

/-- A frame with a parent is one that was made. -/
theorem lt_size_of_parent?
    {parent : Nat}
    (found : heap.parent? frame = some parent) :
    frame < heap.size := by
  unfold parent? at found
  unfold size
  by_contra outside
  rw [Array.getElem?_eq_none (by omega)] at found
  cases found

/-- A frame with names is one that was made. -/
theorem lt_size_of_local?
    {value : Value}
    (found : heap.local? frame name = some value) :
    frame < heap.size := by
  unfold local? at found
  unfold size
  by_contra outside
  rw [Array.getElem?_eq_none (by omega)] at found
  cases found

/-- A name searched for among the globals is found in the outermost frame or not at
all. -/
theorem holder?_outermost
    (heap : Frames)
    (name : Text) :
    heap.holder? Machine.globals name =
      if (heap.local? Machine.globals name).isSome then
        some Machine.globals
      else
        none := by
  have alone : heap.chain Machine.globals = [Machine.globals] := by
    unfold chain Machine.globals
    rw [chainUpTo]
    split <;> rfl
  unfold holder?
  rw [alone, List.find?_singleton]

theorem get?_outermost
    (heap : Frames)
    (name : Text) :
    heap.get? Machine.globals name = heap.local? Machine.globals name := by
  unfold get?
  rw [holder?_outermost]
  cases found : heap.local? Machine.globals name with
  | none =>
      rfl
  | some value =>
      exact found

theorem eq_globals_of_holder?
    {holder : Nat}
    (found : heap.holder? Machine.globals name = some holder) :
    holder = Machine.globals := by
  rw [holder?_outermost] at found
  split at found
  · exact (Option.some.inj found).symm
  · cases found

/-- Frame zero is the outermost one, and every other frame has a parent that was
made before it. -/
structure Ordered (heap : Frames) : Prop where
  positive : 0 < heap.size
  outermost : heap.parent? Machine.globals = none
  inner :
    ∀ frame,
      frame < heap.size →
      frame ≠ Machine.globals →
      ∃ parent, heap.parent? frame = some parent ∧ parent < frame

namespace Ordered

theorem define
    (ordered : heap.Ordered)
    (frame : Nat)
    (name : Text)
    (value : Value) :
    (heap.define frame name value).Ordered where
  positive := by
    simpa using ordered.positive
  outermost := by
    simpa using ordered.outermost
  inner := by
    simpa using ordered.inner

theorem push
    {parent : Nat}
    (ordered : heap.Ordered)
    (made : parent < heap.size)
    (bindings : Bindings) :
    (heap.push (some parent) bindings).Ordered where
  positive := by
    simp
  outermost := by
    have positive := ordered.positive
    rw [parent?_push, if_neg (by unfold Machine.globals; omega)]
    exact ordered.outermost
  inner := by
    intro frame inside notOutermost
    rw [parent?_push]
    by_cases new : frame = heap.size
    · rw [if_pos new]
      exact ⟨parent, rfl, by omega⟩
    · rw [if_neg new]
      rw [size_push] at inside
      exact ordered.inner frame (by omega) notOutermost

/-- A walk outwards from a frame that was made comes to frames that were made. -/
theorem ancestor?_lt_size
    (ordered : heap.Ordered)
    {distance found : Nat}
    (made : frame < heap.size)
    (walked : heap.ancestor? (some frame) distance = some (some found)) :
    found < heap.size := by
  induction distance generalizing frame with
  | zero =>
      cases walked
      exact made
  | succ distance inductionHypothesis =>
      rw [ancestor?] at walked
      cases around : heap.parent? frame with
      | none =>
          rw [around] at walked
          cases distance <;> cases walked
      | some parent =>
          rw [around] at walked
          have notOutermost : frame ≠ Machine.globals := by
            rintro rfl
            rw [ordered.outermost] at around
            cases around
          obtain ⟨outer, isOuter, smaller⟩ :=
            ordered.inner frame made notOutermost
          cases isOuter.symm.trans around
          exact inductionHypothesis (smaller.trans made) walked

/-- A walk outwards that ends at a frame is along the chain. -/
theorem getElem?_chainUpTo
    (ordered : heap.Ordered)
    {steps distance found : Nat}
    (walked : heap.ancestor? (some frame) distance = some (some found))
    (enough : frame < steps) :
    (heap.chainUpTo steps frame)[distance]? = some found := by
  induction distance generalizing frame steps with
  | zero =>
      obtain rfl : frame = found := by
        simpa [ancestor?] using walked
      cases steps with
      | zero =>
          omega
      | succ steps =>
          rw [chainUpTo]
          split <;> rfl
  | succ distance inductionHypothesis =>
      rw [ancestor?] at walked
      cases steps with
      | zero =>
          omega
      | succ steps =>
          rw [chainUpTo]
          cases around : heap.parent? frame with
          | none =>
              rw [around] at walked
              cases distance <;> simp [ancestor?] at walked
          | some parent =>
              rw [around] at walked
              have notOutermost : frame ≠ Machine.globals := by
                rintro rfl
                rw [ordered.outermost] at around
                cases around
              obtain ⟨sameParent, found, smaller⟩ :=
                ordered.inner frame (lt_size_of_parent? around) notOutermost
              rw [around] at found
              cases found
              exact inductionHypothesis walked (by omega)

theorem getElem?_chain
    (ordered : heap.Ordered)
    {distance found : Nat}
    (walked : heap.ancestor? (some frame) distance = some (some found)) :
    (heap.chain frame)[distance]? = some found :=
  ordered.getElem?_chainUpTo walked (Nat.lt_succ_self frame)

end Ordered

/-- A later state of the same frames: parents stay, and bound names stay
bound. -/
structure Grows (before after : Frames) : Prop where
  size : before.size ≤ after.size
  parent :
    ∀ frame, frame < before.size → after.parent? frame = before.parent? frame
  bound :
    ∀ frame name,
      (before.local? frame name).isSome → (after.local? frame name).isSome

namespace Grows

theorem refl (heap : Frames) : heap.Grows heap where
  size := le_rfl
  parent _ _ := rfl
  bound _ _ isBound := isBound

theorem trans
    {first second third : Frames}
    (earlier : first.Grows second)
    (later : second.Grows third) :
    first.Grows third where
  size := earlier.size.trans later.size
  parent := by
    intro frame inside
    rw [later.parent frame (inside.trans_le earlier.size),
      earlier.parent frame inside]
  bound := by
    intro frame name isBound
    exact later.bound frame name (earlier.bound frame name isBound)

theorem define
    (heap : Frames)
    (frame : Nat)
    (name : Text)
    (value : Value) :
    heap.Grows (heap.define frame name value) where
  size := by
    simp
  parent := by
    simp
  bound := by
    intro other otherName isBound
    rw [local?_define]
    split
    · rfl
    · exact isBound

theorem push
    (heap : Frames)
    (parent : Option Nat)
    (bindings : Bindings) :
    heap.Grows (heap.push parent bindings) where
  size := by
    simp
  parent := by
    intro frame inside
    rw [parent?_push, if_neg (by omega)]
  bound := by
    intro frame name isBound
    obtain ⟨value, found⟩ := Option.isSome_iff_exists.mp isBound
    have inside := lt_size_of_local? found
    rw [local?_push, if_neg (by omega)]
    exact isBound

end Grows

/-- A later state of a heap in which a name has a value in one frame, and all else is
as it was. -/
structure Binds
    (before after : Frames)
    (frame : Nat)
    (name : Text)
    (value : Value) :
    Prop where
  size : after.size = before.size
  parent : ∀ other, after.parent? other = before.parent? other
  here : after.local? frame name = some value
  elsewhere :
    ∀ other otherName,
      ¬ (other = frame ∧ otherName = name) →
      after.local? other otherName = before.local? other otherName

theorem binds_define
    (made : frame < heap.size)
    (name : Text)
    (value : Value) :
    heap.Binds (heap.define frame name value) frame name value where
  size := size_define heap frame name value
  parent other := parent?_define heap frame other name value
  here := by
    rw [local?_define, if_pos ⟨rfl, rfl, made⟩]
  elsewhere other otherName apart := by
    rw [local?_define, if_neg fun same => apart ⟨same.1, same.2.1⟩]

/-- Every value that a frame has for a name satisfies a predicate. -/
def Holds
    (heap : Frames)
    (good : Value → Prop) :
    Prop :=
  ∀ frame name value, heap.local? frame name = some value → good value

namespace Holds

variable {good : Value → Prop}

theorem define
    (holds : heap.Holds good)
    (frame : Nat)
    (name : Text)
    {value : Value}
    (isGood : good value) :
    (heap.define frame name value).Holds good := by
  intro other otherName found shape
  rw [local?_define] at shape
  split at shape
  · cases shape
    exact isGood
  · exact holds other otherName found shape

theorem push
    (holds : heap.Holds good)
    (parent : Option Nat)
    {bindings : Bindings}
    (allGood :
      ∀ name value, bindings.lookup name = some value → good value) :
    (heap.push parent bindings).Holds good := by
  intro other otherName found shape
  rw [local?_push] at shape
  split at shape
  · exact allGood otherName found shape
  · exact holds other otherName found shape

end Holds

end Frames

end Script
