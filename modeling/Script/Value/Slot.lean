import Script.Value

namespace Script

/-!
# Slots

A host program handles values through slots.  A slot holds a value, or only the
number of a type without any content.  An empty slot of a type the language
knows is shown like the least value of that type, yet it is equal to no value of
it, only to an empty slot of the same type.
-/

/-- A place for a value, as a host program sees it. -/
inductive Slot where
  | filled (value : Value)
  | empty (type : Int)

namespace Slot

/-- The value that an empty slot of a type is shown as. -/
def shownAs? (type : Int) : Option Value :=
  if type = 0 then
    some .nil
  else if type = 1 then
    some (.bool false)
  else if type = 2 then
    some (.number 0)
  else if type = 3 then
    some (.text [])
  else
    none

/-- The value that a slot is shown as; `none` when its type is unknown. -/
def shown? : Slot → Option Value
  | .filled value =>
      some value
  | .empty type =>
      shownAs? type

/-- The name of the type of a slot. -/
def typeName (slot : Slot) : String :=
  (slot.shown?.map Value.typeName).getD "unknown"

/-- The text that a slot is shown as. -/
def display (slot : Slot) : Text :=
  (slot.shown?.map Value.display).getD (Text.utf8 "<unknown>")

/-- Whether a slot counts as true. -/
def isTruthy (slot : Slot) : Bool :=
  (slot.shown?.map Value.isTruthy).getD true

/-- Whether two slots are equal; an empty slot of type `nil` is `nil`. -/
def equals : Slot → Slot → Bool
  | .filled left, .filled right =>
      left.equals right
  | .empty left, .empty right =>
      left == right
  | .filled .nil, .empty type =>
      type == 0
  | .empty type, .filled .nil =>
      type == 0
  | _, _ =>
      false

/-- The truth value in a slot; `false` when there is none. -/
def bool : Slot → Bool
  | .filled (.bool value) =>
      value
  | _ =>
      false

/-- The number in a slot; zero when there is none. -/
def number : Slot → Float
  | .filled (.number value) =>
      value
  | _ =>
      0

/-- The text in a slot; empty when there is none. -/
def text : Slot → Text
  | .filled (.text value) =>
      value
  | _ =>
      []

/-- The number of arguments that the value in a slot takes, if it is callable. -/
def arity? : Slot → Option Int
  | .filled value =>
      value.callable?.map Callable.arity
  | .empty _ =>
      none

end Slot

end Script
