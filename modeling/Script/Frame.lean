import Script.Value

namespace Script

/-!
# Frames

Names are bound in frames.  A frame encloses those made inside it, and a frame
stays as long as a function may still use it, so frames are kept in one heap and
told apart by their number.  The frame around another one is made first and has
the smaller number.
-/

/-- Names with their values. -/
abbrev Bindings :=
  List (Text × Value)

namespace Bindings

/-- Give a name a value, its old one or none before. -/
def set
    (name : Text)
    (value : Value) :
    Bindings → Bindings
  | [] =>
      [(name, value)]
  | (bound, old) :: rest =>
      if bound = name then
        (name, value) :: rest
      else
        (bound, old) :: set name value rest

end Bindings

/-- The bindings of one frame and the number of the frame around it. -/
structure Frame where
  parent : Option Nat
  bindings : Bindings

/-- All frames made so far. -/
structure Frames where
  frames : Array Frame

namespace Frames

/-- No frame at all. -/
def empty : Frames where
  frames := #[]

/-- The number that the next frame will have. -/
def size (heap : Frames) : Nat :=
  heap.frames.size

/-- Make a frame; its number is the size of the heap before. -/
def push
    (heap : Frames)
    (parent : Option Nat)
    (bindings : Bindings) :
    Frames where
  frames :=
    heap.frames.push { parent, bindings }

/-- The frame around a frame. -/
def parent?
    (heap : Frames)
    (frame : Nat) :
    Option Nat :=
  heap.frames[frame]?.bind Frame.parent

/-- The value of a name in one frame. -/
def local?
    (heap : Frames)
    (frame : Nat)
    (name : Text) :
    Option Value :=
  heap.frames[frame]?.bind (·.bindings.lookup name)

/-- Bind a name in one frame, whether it was bound there or not. -/
def define
    (heap : Frames)
    (frame : Nat)
    (name : Text)
    (value : Value) :
    Frames where
  frames :=
    heap.frames.modify frame fun { parent, bindings } =>
      { parent, bindings := bindings.set name value }

/-- The frames from a given one outwards, at most `steps` of them. -/
def chainUpTo
    (heap : Frames) :
    (steps : Nat) →
    (frame : Nat) →
    List Nat
  | 0, _ =>
      []
  | steps + 1, frame =>
      match heap.parent? frame with
      | some parent =>
          frame :: heap.chainUpTo steps parent
      | none =>
          [frame]

/-- The frames from a given one outwards.  Numbers go down along the way, so
there are no more than the number of the first one and one. -/
def chain
    (heap : Frames)
    (frame : Nat) :
    List Nat :=
  heap.chainUpTo (frame + 1) frame

/-- The nearest frame outwards that binds a name. -/
def holder?
    (heap : Frames)
    (frame : Nat)
    (name : Text) :
    Option Nat :=
  (heap.chain frame).find? fun candidate =>
    (heap.local? candidate name).isSome

/-- The value of a name, searched for from a frame outwards. -/
def get?
    (heap : Frames)
    (frame : Nat)
    (name : Text) :
    Option Value :=
  (heap.holder? frame name).bind fun holder => heap.local? holder name

/-- Change the value of a name where it is bound, from a frame outwards. -/
def assign?
    (heap : Frames)
    (frame : Nat)
    (name : Text)
    (value : Value) :
    Option Frames :=
  (heap.holder? frame name).map fun holder => heap.define holder name value

/-- Go a number of frames outwards.  One step past the outermost frame there is
no frame, which is `some none`; from there no step is possible. -/
def ancestor?
    (heap : Frames)
    (frame : Option Nat) :
    (distance : Nat) →
    Option (Option Nat)
  | 0 =>
      some frame
  | distance + 1 =>
      match frame with
      | some frame =>
          heap.ancestor? (heap.parent? frame) distance
      | none =>
          none

/-- The value of a name in the frame a number of frames outwards; a name that is
not bound there is `nil`. -/
def getAt?
    (heap : Frames)
    (frame : Nat)
    (distance : Nat)
    (name : Text) :
    Option Value :=
  match heap.ancestor? (some frame) distance with
  | some (some found) =>
      some ((heap.local? found name).getD .nil)
  | _ =>
      none

/-- Bind a name in the frame a number of frames outwards. -/
def assignAt?
    (heap : Frames)
    (frame : Nat)
    (distance : Nat)
    (name : Text)
    (value : Value) :
    Option Frames :=
  match heap.ancestor? (some frame) distance with
  | some (some found) =>
      some (heap.define found name value)
  | _ =>
      none

end Frames

end Script
