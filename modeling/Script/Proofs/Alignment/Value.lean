import Script.Machine.Evaluate
import Script.Proofs.Alignment.Tree
import Mathlib.Data.List.Forall2
import Mathlib.Data.Option.Defs

namespace Script

/-!
# Values of two programs with aligned trees

Two programs of which one makes frames that the other does not make number their
frames differently.  Links tell which frames stand for one another, with the outline
of the scopes from them outwards; they grow with the frames.  The values of the two
programs are the same but for the frames and the trees in functions.
-/

/-- Which frames of two programs are linked, and the outline of the scopes from them
outwards. -/
abbrev Links :=
  Nat → Nat → Outline → Prop

namespace Links

/-- Links that have grown. -/
def Within (links longer : Links) : Prop :=
  ∀ frame other outline, links frame other outline → longer frame other outline

theorem Within.refl (links : Links) : links.Within links :=
  fun _ _ _ linked => linked

theorem Within.trans
    {first second third : Links}
    (earlier : first.Within second)
    (later : second.Within third) :
    first.Within third :=
  fun frame other outline linked =>
    later frame other outline (earlier frame other outline linked)

end Links

section Values

variable (change : Change) (links : Links)

/-- Functions that are alike: they were declared in linked frames, and `inner` are the
sides of the scopes between the frames and the functions. -/
structure Closure.Alike
    (inner : Outline)
    (closure other : Closure) :
    Prop where
  identity : other.identity = closure.identity
  isInitializer : other.isInitializer = closure.isInitializer
  function :
    ∃ outline marked,
      links closure.frame other.frame outline ∧
        outline.Common marked ∧
        closure.function.Aligned change (inner ++ outline) other.function

/-- Methods with one name that are alike.  The scope of the receiver is between a
method and the frame that its class was declared in. -/
structure Closure.MethodAlike
    (method other : Text × Closure) :
    Prop where
  name : other.1 = method.1
  closure : method.2.Alike change links [.both false] other.2

/-- Classes that are alike. -/
structure ClassValue.Alike (members other : ClassValue) : Prop where
  identity : other.identity = members.identity
  name : other.name = members.name
  methods :
    List.Forall₂ (Closure.MethodAlike change links) members.methods other.methods

/-- Objects that are alike. -/
structure Object.Alike (object other : Object) : Prop where
  identity : other.identity = object.identity
  members : object.members.Alike change links other.members

/-- Values that are alike: they are the same, or have functions in them that are
alike. -/
inductive Value.Alike : Value → Value → Prop where
  | nil :
      Value.Alike .nil .nil
  | bool
      (value : Bool) :
      Value.Alike (.bool value) (.bool value)
  | number
      (value : Float) :
      Value.Alike (.number value) (.number value)
  | text
      (value : Text) :
      Value.Alike (.text value) (.text value)
  | native
      (host : Native) :
      Value.Alike (.native host) (.native host)
  | function
      {closure other : Closure} :
      closure.Alike change links [] other →
      Value.Alike (.function closure) (.function other)
  | classValue
      {members other : ClassValue} :
      members.Alike change links other →
      Value.Alike (.classValue members) (.classValue other)
  | object
      {object other : Object} :
      object.Alike change links other →
      Value.Alike (.object object) (.object other)

/-- Callables that are alike. -/
inductive Callable.Alike : Callable → Callable → Prop where
  | native
      (host : Native) :
      Callable.Alike (.native host) (.native host)
  | function
      {closure other : Closure} :
      closure.Alike change links [] other →
      Callable.Alike (.function closure) (.function other)
  | classValue
      {members other : ClassValue} :
      members.Alike change links other →
      Callable.Alike (.classValue members) (.classValue other)

/-- Ways to end that are alike. -/
inductive Flow.Alike : Flow → Flow → Prop where
  | normal :
      Flow.Alike .normal .normal
  | returning
      {value other : Value} :
      value.Alike change links other →
      Flow.Alike (.returning value) (.returning other)

/-- Bindings that are alike: what one has under a name, the other has under the name
that it is given in the scope, which is marked or not. -/
def Bindings.Alike
    (marked : Bool)
    (bindings other : Bindings) :
    Prop :=
  ∀ name : Text,
    change.Fresh marked name →
    Option.Rel (Value.Alike change links) (bindings.lookup name)
      (other.lookup (change.name marked name))

/-- Frames without names are alike. -/
theorem Bindings.Alike.nil
    (marked : Bool) :
    Bindings.Alike change links marked [] [] :=
  fun _ _ => .none

end Values

section Extension

variable {change : Change} {links longer : Links}

theorem Closure.Alike.extend
    {inner : Outline}
    {closure other : Closure}
    (alike : closure.Alike change links inner other)
    (within : links.Within longer) :
    closure.Alike change longer inner other := by
  obtain ⟨outline, marked, linked, common, function⟩ := alike.function
  exact { alike with
    function := ⟨outline, marked, within _ _ _ linked, common, function⟩ }

theorem ClassValue.Alike.extend
    {members other : ClassValue}
    (alike : members.Alike change links other)
    (within : links.Within longer) :
    members.Alike change longer other where
  identity := alike.identity
  name := alike.name
  methods :=
    alike.methods.imp fun _ _ method =>
      { name := method.name, closure := method.closure.extend within }

theorem Object.Alike.extend
    {object other : Object}
    (alike : object.Alike change links other)
    (within : links.Within longer) :
    object.Alike change longer other where
  identity := alike.identity
  members := alike.members.extend within

/-- Values stay alike when there are more links. -/
theorem Value.Alike.extend
    {value other : Value}
    (alike : value.Alike change links other)
    (within : links.Within longer) :
    value.Alike change longer other := by
  cases alike with
  | nil =>
      exact .nil
  | bool value =>
      exact .bool value
  | number value =>
      exact .number value
  | text value =>
      exact .text value
  | native host =>
      exact .native host
  | function closure =>
      exact .function (closure.extend within)
  | classValue members =>
      exact .classValue (members.extend within)
  | object object =>
      exact .object (object.extend within)

theorem Value.Alike.extend_option
    {value? other? : Option Value}
    (alike : Option.Rel (Value.Alike change links) value? other?)
    (within : links.Within longer) :
    Option.Rel (Value.Alike change longer) value? other? := by
  cases alike with
  | none =>
      exact .none
  | some alike =>
      exact .some (alike.extend within)

theorem Value.Alike.extend_list
    {values others : List Value}
    (alike : List.Forall₂ (Value.Alike change links) values others)
    (within : links.Within longer) :
    List.Forall₂ (Value.Alike change longer) values others :=
  alike.imp fun _ _ alike => alike.extend within

theorem Bindings.Alike.extend
    {marked : Bool}
    {bindings other : Bindings}
    (alike : bindings.Alike change links marked other)
    (within : links.Within longer) :
    bindings.Alike change longer marked other :=
  fun name fresh => Value.Alike.extend_option (alike name fresh) within

end Extension

section Operators

variable {change : Change} {links : Links}

theorem Closure.Alike.arity_eq
    {inner : Outline}
    {closure other : Closure}
    (alike : closure.Alike change links inner other) :
    other.arity = closure.arity := by
  obtain ⟨_, _, -, -, function⟩ := alike.function
  exact function.arity_eq

theorem Closure.Alike.name_eq
    {inner : Outline}
    {closure other : Closure}
    (alike : closure.Alike change links inner other) :
    other.name = closure.name := by
  obtain ⟨_, _, -, -, function⟩ := alike.function
  exact congrArg Token.lexeme function.name_eq

/-- Methods are looked up under the same names. -/
theorem Closure.MethodAlike.lookup
    {methods others : List (Text × Closure)}
    (alike : List.Forall₂ (Closure.MethodAlike change links) methods others)
    (name : Text) :
    Option.Rel (Closure.Alike change links [.both false]) (methods.lookup name)
      (others.lookup name) := by
  induction alike with
  | nil =>
      exact .none
  | @cons method other _ _ first _ inductionHypothesis =>
      obtain ⟨bound, closure⟩ := method
      obtain ⟨otherBound, otherClosure⟩ := other
      obtain rfl : otherBound = bound := first.name
      rw [List.lookup_cons, List.lookup_cons]
      cases name == otherBound with
      | true =>
          exact .some first.closure
      | false =>
          exact inductionHypothesis

theorem ClassValue.Alike.method?
    {members other : ClassValue}
    (alike : members.Alike change links other)
    (name : Text) :
    Option.Rel (Closure.Alike change links [.both false]) (members.method? name)
      (other.method? name) :=
  Closure.MethodAlike.lookup (List.forall₂_reverse_iff.mpr alike.methods) name

theorem ClassValue.Alike.arity_eq
    {members other : ClassValue}
    (alike : members.Alike change links other) :
    other.arity = members.arity := by
  have initializer := alike.method? (Text.utf8 "init")
  unfold ClassValue.arity ClassValue.initializer?
  generalize members.method? (Text.utf8 "init") = before,
    other.method? (Text.utf8 "init") = after at initializer ⊢
  cases initializer with
  | none =>
      rfl
  | some alike =>
      exact alike.arity_eq

theorem Callable.Alike.arity_eq
    {callable other : Callable}
    (alike : callable.Alike change links other) :
    other.arity = callable.arity := by
  cases alike with
  | native host =>
      rfl
  | function closure =>
      exact congrArg Int.ofNat closure.arity_eq
  | classValue members =>
      exact congrArg Int.ofNat members.arity_eq

namespace Value

/-- The values that no function is in. -/
def IsPlain : Value → Prop
  | .function _ | .classValue _ | .object _ =>
      False
  | _ =>
      True

/-- A value that no function is in is like itself. -/
theorem IsPlain.alike
    {value : Value}
    (plain : value.IsPlain) :
    value.Alike change links value := by
  cases value with
  | nil =>
      exact .nil
  | bool value =>
      exact .bool value
  | number value =>
      exact .number value
  | text value =>
      exact .text value
  | native host =>
      exact .native host
  | function | classValue | object =>
      exact plain.elim

theorem isPlain_ofLiteral (literal : Literal) : (ofLiteral literal).IsPlain := by
  cases literal <;> trivial

theorem isPlain_of_unary
    {operator : TokenKind}
    {operand result : Value}
    (computed : operand.unary operator = .ok result) :
    result.IsPlain := by
  unfold unary at computed
  split at computed <;> cases computed <;> trivial

theorem isPlain_of_binary
    {operator : TokenKind}
    {left right result : Value}
    (computed : left.binary operator right = .ok result) :
    result.IsPlain := by
  unfold binary add arithmetic at computed
  repeat' split at computed
  all_goals cases computed
  all_goals trivial

end Value

namespace Value.Alike

variable {left otherLeft right otherRight : Value}

theorem isTruthy_eq
    (alike : left.Alike change links otherLeft) :
    otherLeft.isTruthy = left.isTruthy := by
  cases alike <;> rfl

theorem decides_eq
    (operator : TokenKind)
    (alike : left.Alike change links otherLeft) :
    otherLeft.decides operator = left.decides operator := by
  unfold decides
  rw [alike.isTruthy_eq]

theorem equals_eq
    (leftAlike : left.Alike change links otherLeft)
    (rightAlike : right.Alike change links otherRight) :
    otherLeft.equals otherRight = left.equals right := by
  cases leftAlike <;> cases rightAlike <;> try rfl
  · rename_i first _ _ second
    simp only [equals, first.identity, second.identity]
  · rename_i first _ _ second
    simp only [equals, first.identity, second.identity]
  · rename_i first _ _ second
    simp only [equals, first.identity, second.identity]

/-- Values that are alike show the same text. -/
theorem display_eq
    (alike : left.Alike change links otherLeft) :
    otherLeft.display = left.display := by
  cases alike with
  | function closure =>
      simp only [display, closure.name_eq]
  | classValue members =>
      exact members.name
  | object object =>
      simp only [display, object.members.name]
  | nil | bool | number | text | native =>
      rfl

theorem unary_eq
    (operator : TokenKind)
    (alike : left.Alike change links otherLeft) :
    otherLeft.unary operator = left.unary operator := by
  cases alike <;> cases operator <;> rfl

theorem binary_eq
    (operator : TokenKind)
    (leftAlike : left.Alike change links otherLeft)
    (rightAlike : right.Alike change links otherRight) :
    otherLeft.binary operator otherRight = left.binary operator right := by
  unfold binary
  rw [leftAlike.equals_eq rightAlike]
  cases leftAlike <;> cases rightAlike <;> rfl

theorem callable?
    (alike : left.Alike change links otherLeft) :
    Option.Rel (Callable.Alike change links) left.callable? otherLeft.callable? := by
  cases alike with
  | native host =>
      exact .some (.native host)
  | function closure =>
      exact .some (.function closure)
  | classValue members =>
      exact .some (.classValue members)
  | nil | bool | number | text | object =>
      exact .none

end Value.Alike

theorem Flow.Alike.result
    {flow other : Flow}
    (alike : flow.Alike change links other) :
    flow.result.Alike change links other.result := by
  cases alike with
  | normal =>
      exact .nil
  | returning value =>
      exact value

end Operators

end Script
