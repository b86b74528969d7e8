import Script.Machine
import Script.Machine.Evaluate
import Script.Proofs.Relabel.Tree

namespace Script

/-!
# Machines on other lines

A machine holds trees, in the functions that were declared so far.  `relabel`
changes the tokens in all of them.  What a machine does by itself goes by names
and numbers, so it does the same with changed tokens.
-/

section Values

variable (change : Token → Token)

/-- A function value with changed tokens. -/
def Closure.relabel (closure : Closure) : Closure :=
  { closure with function := closure.function.relabel change }

/-- A class with changed tokens. -/
def ClassValue.relabel (members : ClassValue) : ClassValue :=
  { members with
    methods := members.methods.map (Prod.map id (Closure.relabel change)) }

/-- An object with changed tokens. -/
def Object.relabel (object : Object) : Object :=
  { object with members := object.members.relabel change }

/-- A value with changed tokens. -/
def Value.relabel : Value → Value
  | .function closure =>
      .function (closure.relabel change)
  | .classValue members =>
      .classValue (members.relabel change)
  | .object target =>
      .object (target.relabel change)
  | value =>
      value

/-- A callable with changed tokens. -/
def Callable.relabel : Callable → Callable
  | .native host =>
      .native host
  | .function closure =>
      .function (closure.relabel change)
  | .classValue members =>
      .classValue (members.relabel change)

/-- A way to end with changed tokens. -/
def Flow.relabel : Flow → Flow
  | .normal =>
      .normal
  | .returning value =>
      .returning (value.relabel change)

/-- Bindings with changed tokens. -/
def Bindings.relabel (bindings : Bindings) : Bindings :=
  bindings.map (Prod.map id (Value.relabel change))

/-- A frame with changed tokens. -/
def Frame.relabel (frame : Frame) : Frame :=
  { frame with bindings := frame.bindings.relabel change }

/-- Frames with changed tokens. -/
def Frames.relabel (heap : Frames) : Frames where
  frames := heap.frames.map (Frame.relabel change)

/-- A machine with changed tokens. -/
def Machine.relabel (machine : Machine) : Machine :=
  { machine with
    frames := machine.frames.relabel change
    fields := machine.fields.map (Bindings.relabel change) }

/-- A fault at a changed token. -/
def Fault.relabel (fault : Fault) : Fault :=
  { fault with token := change fault.token }

/-- An outcome with changed tokens, its value changed in its own way. -/
def Outcome.relabel
    (onValue : α → α) :
    Outcome α → Outcome α
  | .done value machine =>
      .done (onValue value) (machine.relabel change)
  | .stopped fault machine =>
      .stopped (fault.relabel change) (machine.relabel change)
  | .broken breakage machine =>
      .broken breakage (machine.relabel change)
  | .exhausted =>
      .exhausted

end Values

variable {change : Token → Token}

/-- Looking a name up in a list whose values are changed. -/
theorem lookup_map_second
    {α β : Type}
    (modify : α → β)
    (name : Text)
    (entries : List (Text × α)) :
    (entries.map (Prod.map id modify)).lookup name =
      (entries.lookup name).map modify := by
  induction entries with
  | nil =>
      rfl
  | cons entry rest inductionHypothesis =>
      rcases entry with ⟨bound, value⟩
      simp only [List.map_cons, Prod.map_apply, id_eq, List.lookup_cons]
      split
      · rfl
      · exact inductionHypothesis

namespace ClassValue

@[simp]
theorem method?_relabel
    (members : ClassValue)
    (name : Text) :
    (members.relabel change).method? name =
      (members.method? name).map (Closure.relabel change) := by
  unfold method? relabel
  rw [← List.map_reverse, lookup_map_second]

@[simp]
theorem initializer?_relabel (members : ClassValue) :
    (members.relabel change).initializer? =
      members.initializer?.map (Closure.relabel change) :=
  method?_relabel members _

@[simp]
theorem arity_relabel (members : ClassValue) :
    (members.relabel change).arity = members.arity := by
  unfold arity
  rw [initializer?_relabel, Option.map_map]
  congr 2
  funext closure
  exact closure.function.arity_relabel

end ClassValue

namespace Callable

@[simp]
theorem arity_relabel (callable : Callable) :
    (callable.relabel change).arity = callable.arity := by
  cases callable with
  | native host =>
      rfl
  | function closure =>
      simp [relabel, arity, Closure.arity, Closure.relabel,
        FunctionDecl.arity_relabel]
  | classValue members =>
      simp [relabel, arity]

end Callable

namespace Value

@[simp]
theorem relabel_ofLiteral (literal : Literal) :
    (ofLiteral literal).relabel change = ofLiteral literal := by
  cases literal <;> rfl

@[simp]
theorem callable?_relabel (value : Value) :
    (value.relabel change).callable? =
      value.callable?.map (Callable.relabel change) := by
  cases value <;> rfl

@[simp]
theorem isTruthy_relabel (value : Value) :
    (value.relabel change).isTruthy = value.isTruthy := by
  cases value <;> rfl

@[simp]
theorem equals_relabel
    (left right : Value) :
    (left.relabel change).equals (right.relabel change) =
      left.equals right := by
  cases left <;> cases right <;> rfl

theorem display_relabel
    (relabels : Relabels change)
    (value : Value) :
    (value.relabel change).display = value.display := by
  cases value with
  | function closure =>
      simp [relabel, display, Closure.name, Closure.relabel,
        FunctionDecl.lexeme_relabel relabels]
  | _ =>
      rfl

@[simp]
theorem decides_relabel
    (operator : TokenKind)
    (value : Value) :
    (value.relabel change).decides operator = value.decides operator := by
  simp [decides]

theorem unary_relabel
    (operator : TokenKind)
    (value : Value) :
    (value.relabel change).unary operator =
      (value.unary operator).map (relabel change) := by
  cases operator <;> cases value <;> rfl

theorem add_relabel
    (left right : Value) :
    (left.relabel change).add (right.relabel change) =
      (left.add right).map (relabel change) := by
  cases left <;> cases right <;> rfl

theorem arithmetic_relabel
    (operator : TokenKind)
    (left right : Float) :
    arithmetic operator left right =
      (arithmetic operator left right).map (relabel change) := by
  cases operator with
  | slash =>
      simp only [arithmetic]
      split <;> rfl
  | _ =>
      rfl

theorem binary_relabel
    (operator : TokenKind)
    (left right : Value) :
    (left.relabel change).binary operator (right.relabel change) =
      (left.binary operator right).map (relabel change) := by
  unfold binary
  split
  · rw [equals_relabel]
    rfl
  · rw [equals_relabel]
    rfl
  · exact add_relabel left right
  · cases left <;> cases right <;>
      first
      | exact arithmetic_relabel operator _ _
      | rfl

end Value

namespace Bindings

@[simp]
theorem lookup_relabel
    (bindings : Bindings)
    (name : Text) :
    List.lookup name (bindings.relabel change) =
      (bindings.lookup name).map (Value.relabel change) :=
  lookup_map_second _ name bindings

@[simp]
theorem relabel_set
    (bindings : Bindings)
    (name : Text)
    (value : Value) :
    (bindings.set name value).relabel change =
      (bindings.relabel change).set name (value.relabel change) := by
  induction bindings with
  | nil =>
      rfl
  | cons binding rest inductionHypothesis =>
      rcases binding with ⟨bound, old⟩
      simp only [set, relabel, List.map_cons, Prod.map_apply, id_eq]
      split
      · rfl
      · exact congrArg _ inductionHypothesis

end Bindings

/-- Changing all of an array after one place of it, or before. -/
theorem map_modify
    {α : Type}
    {all before after : α → α}
    (values : Array α)
    (place : Nat)
    (same : ∀ value, all (before value) = after (all value)) :
    (values.modify place before).map all =
      (values.map all).modify place after := by
  apply Array.ext_getElem?
  intro index
  simp only [Array.getElem?_map, Array.getElem?_modify]
  split
  · cases values[index]? with
    | none =>
        rfl
    | some value =>
        exact congrArg some (same value)
  · rfl

namespace Frames

@[simp]
theorem size_relabel (heap : Frames) :
    (heap.relabel change).size = heap.size := by
  simp [size, relabel]

@[simp]
theorem relabel_push
    (heap : Frames)
    (parent : Option Nat)
    (bindings : Bindings) :
    (heap.push parent bindings).relabel change =
      (heap.relabel change).push parent (bindings.relabel change) := by
  simp [push, relabel, Frame.relabel]

@[simp]
theorem parent?_relabel
    (heap : Frames)
    (frame : Nat) :
    (heap.relabel change).parent? frame = heap.parent? frame := by
  simp only [parent?, relabel, Array.getElem?_map]
  cases heap.frames[frame]? <;> rfl

@[simp]
theorem local?_relabel
    (heap : Frames)
    (frame : Nat)
    (name : Text) :
    (heap.relabel change).local? frame name =
      (heap.local? frame name).map (Value.relabel change) := by
  simp only [local?, relabel, Array.getElem?_map]
  cases heap.frames[frame]? with
  | none =>
      rfl
  | some found =>
      exact found.bindings.lookup_relabel name

@[simp]
theorem relabel_define
    (heap : Frames)
    (frame : Nat)
    (name : Text)
    (value : Value) :
    (heap.define frame name value).relabel change =
      (heap.relabel change).define frame name (value.relabel change) := by
  simp only [define, relabel, mk.injEq]
  apply map_modify
  intro found
  simp [Frame.relabel]

@[simp]
theorem chainUpTo_relabel
    (heap : Frames)
    (steps frame : Nat) :
    (heap.relabel change).chainUpTo steps frame =
      heap.chainUpTo steps frame := by
  induction steps generalizing frame with
  | zero =>
      rfl
  | succ steps inductionHypothesis =>
      simp [chainUpTo, inductionHypothesis]

@[simp]
theorem holder?_relabel
    (heap : Frames)
    (frame : Nat)
    (name : Text) :
    (heap.relabel change).holder? frame name = heap.holder? frame name := by
  simp [holder?, chain]

@[simp]
theorem get?_relabel
    (heap : Frames)
    (frame : Nat)
    (name : Text) :
    (heap.relabel change).get? frame name =
      (heap.get? frame name).map (Value.relabel change) := by
  unfold get?
  rw [holder?_relabel]
  cases heap.holder? frame name with
  | none =>
      rfl
  | some holder =>
      exact local?_relabel heap holder name

@[simp]
theorem ancestor?_relabel
    (heap : Frames)
    (frame : Option Nat)
    (distance : Nat) :
    (heap.relabel change).ancestor? frame distance =
      heap.ancestor? frame distance := by
  induction distance generalizing frame with
  | zero =>
      rfl
  | succ distance inductionHypothesis =>
      cases frame with
      | none =>
          rfl
      | some frame =>
          simp [ancestor?, inductionHypothesis]

@[simp]
theorem getAt?_relabel
    (heap : Frames)
    (frame distance : Nat)
    (name : Text) :
    (heap.relabel change).getAt? frame distance name =
      (heap.getAt? frame distance name).map (Value.relabel change) := by
  unfold getAt?
  rw [ancestor?_relabel]
  split
  · rename_i found _
    rw [local?_relabel]
    cases heap.local? found name <;> rfl
  · rfl

end Frames

namespace Outcome

/-- What goes on in the same way goes on in the same way after a value. -/
theorem relabel_bind
    {α β : Type}
    {onFirst : α → α}
    {onSecond : β → β}
    {outcome : Outcome α}
    {next nextChanged : α → Machine → Outcome β}
    (same : ∀ value machine,
      nextChanged (onFirst value) (machine.relabel change) =
        (next value machine).relabel change onSecond) :
    (outcome.relabel change onFirst).bind nextChanged =
      (outcome.bind next).relabel change onSecond := by
  cases outcome with
  | done value machine =>
      exact same value machine
  | stopped fault machine =>
      rfl
  | broken breakage machine =>
      rfl
  | exhausted =>
      rfl

theorem relabel_mapMachine
    {α : Type}
    {onValue : α → α}
    {modify : Machine → Machine}
    (outcome : Outcome α)
    (same : ∀ machine,
      modify (machine.relabel change) = (modify machine).relabel change) :
    (outcome.relabel change onValue).mapMachine modify =
      (outcome.mapMachine modify).relabel change onValue := by
  cases outcome with
  | exhausted =>
      rfl
  | _ =>
      simp only [relabel, mapMachine, same]

end Outcome

namespace Machine

@[simp]
theorem frames_relabel (machine : Machine) :
    (machine.relabel change).frames = machine.frames.relabel change :=
  rfl

@[simp]
theorem current_relabel (machine : Machine) :
    (machine.relabel change).current = machine.current :=
  rfl

/-- What was written does not depend on lines. -/
@[simp]
theorem output_relabel (machine : Machine) :
    (machine.relabel change).output = machine.output :=
  rfl

@[simp]
theorem define_relabel
    (machine : Machine)
    (name : Text)
    (value : Value) :
    (machine.relabel change).define name (value.relabel change) =
      (machine.define name value).relabel change := by
  simp [define, relabel]

theorem readGlobal_relabel
    (relabels : Relabels change)
    (machine : Machine)
    (name : Token) :
    (machine.relabel change).readGlobal (change name) =
      (machine.readGlobal name).relabel change (Value.relabel change) := by
  unfold readGlobal
  rw [relabels.lexeme, frames_relabel, Frames.get?_relabel]
  cases machine.frames.get? globals name.lexeme <;> rfl

theorem writeGlobal_relabel
    (relabels : Relabels change)
    (machine : Machine)
    (name : Token)
    (value : Value) :
    (machine.relabel change).writeGlobal (change name) (value.relabel change) =
      (machine.writeGlobal name value).relabel change
        (Value.relabel change) := by
  unfold writeGlobal
  rw [relabels.lexeme, frames_relabel, Frames.holder?_relabel]
  split
  · simp [Outcome.relabel, relabel]
  · rfl

theorem read_relabel
    (relabels : Relabels change)
    (machine : Machine)
    (name : Token)
    (distance : Option Nat) :
    (machine.relabel change).read (change name) distance =
      (machine.read name distance).relabel change (Value.relabel change) := by
  cases distance with
  | none =>
      exact readGlobal_relabel relabels machine name
  | some distance =>
      simp only [read, relabels.lexeme, frames_relabel, current_relabel,
        Frames.getAt?_relabel]
      cases machine.frames.getAt? machine.current distance name.lexeme <;> rfl

theorem assign_relabel
    (relabels : Relabels change)
    (machine : Machine)
    (name : Token)
    (distance : Option Nat)
    (value : Value) :
    (machine.relabel change).assign (change name) distance
        (value.relabel change) =
      (machine.assign name distance value).relabel change
        (Value.relabel change) := by
  cases distance with
  | none =>
      exact writeGlobal_relabel relabels machine name value
  | some distance =>
      simp only [assign, relabels.lexeme, frames_relabel, current_relabel,
        Frames.ancestor?_relabel]
      split
      · simp [Outcome.relabel, relabel]
      · rfl

theorem inNewFrame_relabel
    {α : Type}
    {onValue : α → α}
    (machine : Machine)
    (parent : Nat)
    (bindings : Bindings)
    {body bodyChanged : Machine → Outcome α}
    (same : ∀ machine,
      bodyChanged (machine.relabel change) =
        (body machine).relabel change onValue) :
    (machine.relabel change).inNewFrame parent (bindings.relabel change)
        bodyChanged =
      (machine.inNewFrame parent bindings body).relabel change onValue := by
  unfold inNewFrame
  dsimp only
  rw [← Outcome.relabel_mapMachine, ← same]
  · simp [relabel]
  · intro after
    rfl

theorem duringCall_relabel
    {α : Type}
    {onValue : α → α}
    (machine : Machine)
    {call callChanged : Machine → Outcome α}
    (same : ∀ machine,
      callChanged (machine.relabel change) =
        (call machine).relabel change onValue) :
    (machine.relabel change).duringCall callChanged =
      (machine.duringCall call).relabel change onValue := by
  unfold duringCall
  rw [← Outcome.relabel_mapMachine, ← same]
  · rfl
  · intro after
    rfl

theorem declareFunction_relabel
    (relabels : Relabels change)
    (machine : Machine)
    (function : FunctionDecl) :
    (machine.relabel change).declareFunction (function.relabel change) =
      (machine.declareFunction function).relabel change := by
  unfold declareFunction
  rw [function.lexeme_relabel relabels]
  exact define_relabel (machine.makeClosure function false).2
    function.name.lexeme (.function (machine.makeClosure function false).1)

/-- The methods of a class, made on other lines. -/
theorem makeMethods_relabel
    (relabels : Relabels change)
    (machine : Machine)
    (functions : List FunctionDecl) :
    (machine.relabel change).makeMethods
        (FunctionDecl.relabelAll change functions) =
      ((machine.makeMethods functions).1.map
          (Prod.map id (Closure.relabel change)),
        (machine.makeMethods functions).2.relabel change) := by
  induction functions generalizing machine with
  | nil =>
      rfl
  | cons function rest inductionHypothesis =>
      have made :
          (machine.relabel change).makeClosure (function.relabel change)
              (function.name.lexeme == Text.utf8 "init") =
            (((machine.makeClosure function
                (function.name.lexeme == Text.utf8 "init")).1).relabel change,
              ((machine.makeClosure function
                (function.name.lexeme == Text.utf8 "init")).2).relabel
                  change) :=
        rfl
      simp only [FunctionDecl.relabelAll, makeMethods,
        function.lexeme_relabel relabels, made, inductionHypothesis]
      rfl

theorem declareClass_relabel
    (relabels : Relabels change)
    (machine : Machine)
    (name : Token)
    (methods : List FunctionDecl) :
    (machine.relabel change).declareClass (change name)
        (FunctionDecl.relabelAll change methods) =
      (machine.declareClass name methods).relabel change := by
  unfold declareClass
  simp only [makeMethods_relabel relabels, relabels.lexeme]
  generalize machine.makeMethods methods = made
  rcases made with ⟨made, after⟩
  exact define_relabel { after with identities := after.identities + 1 }
    name.lexeme
    (.classValue
      { identity := after.identities, name := name.lexeme, methods := made })

theorem makeObject_relabel
    (machine : Machine)
    (members : ClassValue) :
    (machine.relabel change).makeObject (members.relabel change) =
      ((machine.makeObject members).1.relabel change,
        (machine.makeObject members).2.relabel change) := by
  simp [makeObject, relabel, Object.relabel, Bindings.relabel]

theorem bindMethod_relabel
    (machine : Machine)
    (method : Closure)
    (receiver : Object) :
    (machine.relabel change).bindMethod (method.relabel change)
        (receiver.relabel change) =
      ((machine.bindMethod method receiver).1.relabel change,
        (machine.bindMethod method receiver).2.relabel change) := by
  simp [bindMethod, relabel, Closure.relabel, Bindings.relabel, Value.relabel]

theorem receiverOf_relabel
    (machine : Machine)
    (method : Closure) :
    (machine.relabel change).receiverOf (method.relabel change) =
      (machine.receiverOf method).relabel change := by
  unfold receiverOf
  rw [frames_relabel, Frames.local?_relabel]
  change ((machine.frames.local? method.frame _).map _).getD _ = _
  cases machine.frames.local? method.frame (Text.utf8 "this") <;> rfl

theorem getProperty_relabel
    (relabels : Relabels change)
    (machine : Machine)
    (object : Object)
    (name : Token) :
    (machine.relabel change).getProperty (object.relabel change)
        (change name) =
      (machine.getProperty object name).relabel change
        (Value.relabel change) := by
  have field :
      (machine.relabel change).fields[object.identity]?.bind
          (·.lookup name.lexeme) =
        (machine.fields[object.identity]?.bind
          (·.lookup name.lexeme)).map (Value.relabel change) := by
    simp only [relabel, Array.getElem?_map]
    cases machine.fields[object.identity]? with
    | none =>
        rfl
    | some bindings =>
        exact bindings.lookup_relabel name.lexeme
  have method :
      (object.relabel change).members.method? name.lexeme =
        (object.members.method? name.lexeme).map (Closure.relabel change) :=
    object.members.method?_relabel name.lexeme
  have identity :
      (object.relabel change).identity = object.identity :=
    rfl
  unfold getProperty
  rw [relabels.lexeme, identity, method, field]
  cases machine.fields[object.identity]?.bind (·.lookup name.lexeme) with
  | some value =>
      rfl
  | none =>
      cases object.members.method? name.lexeme with
      | none =>
          rfl
      | some found =>
          simp only [Option.map, bindMethod_relabel]
          rfl

theorem setField_relabel
    (machine : Machine)
    (object : Object)
    (name : Text)
    (value : Value) :
    (machine.relabel change).setField (object.relabel change) name
        (value.relabel change) =
      (machine.setField object name value).relabel change := by
  have fields :
      (machine.fields.modify object.identity (·.set name value)).map
          (Bindings.relabel change) =
        (machine.fields.map (Bindings.relabel change)).modify object.identity
          (·.set name (value.relabel change)) :=
    map_modify _ _ fun bindings => bindings.relabel_set name value
  unfold setField
  simp only [relabel, fields]
  rfl

theorem settle_relabel
    (machine : Machine)
    (operator : Token)
    (result : Except FaultCause Value) :
    (machine.relabel change).settle (change operator)
        (result.map (Value.relabel change)) =
      (machine.settle operator result).relabel change
        (Value.relabel change) := by
  cases result <;> rfl

theorem callee_relabel
    (machine : Machine)
    (value : Value)
    (given : Nat) :
    (machine.relabel change).callee (value.relabel change) given =
      (machine.callee value given).map (Callable.relabel change) := by
  unfold callee
  rw [Value.callable?_relabel]
  cases value.callable? with
  | none =>
      rfl
  | some callable =>
      simp only [Option.map, Callable.arity_relabel]
      split
      · rfl
      · change (if machine.isFull = true then _ else _) = _
        split <;> rfl

theorem callNative_relabel
    (relabels : Relabels change)
    (machine : Machine)
    (native : Native)
    (arguments : List Value) :
    (machine.relabel change).callNative native
        (arguments.map (Value.relabel change)) =
      (machine.callNative native arguments).relabel change
        (Value.relabel change) := by
  cases native with
  | str =>
      cases arguments with
      | nil =>
          rfl
      | cons first rest =>
          simp only [callNative, List.map_cons, List.headD_cons,
            Value.display_relabel relabels]
          rfl
  | _ =>
      rfl

/-- Binding names to values one after the other. -/
theorem foldl_set_relabel
    (relabels : Relabels change)
    (pairs : List (Token × Value))
    (bindings : Bindings) :
    (pairs.map (Prod.map change (Value.relabel change))).foldl
        (fun bindings (parameter, argument) =>
          bindings.set parameter.lexeme argument)
        (bindings.relabel change) =
      Bindings.relabel change
        (pairs.foldl
          (fun bindings (parameter, argument) =>
            bindings.set parameter.lexeme argument)
          bindings) := by
  induction pairs generalizing bindings with
  | nil =>
      rfl
  | cons pair rest inductionHypothesis =>
      rcases pair with ⟨parameter, argument⟩
      simp only [List.map_cons, Prod.map_apply, List.foldl_cons,
        relabels.lexeme, ← Bindings.relabel_set]
      exact inductionHypothesis _

theorem parameterBindings_relabel
    (relabels : Relabels change)
    (function : FunctionDecl)
    (arguments : List Value) :
    parameterBindings (function.relabel change)
        (arguments.map (Value.relabel change)) =
      (parameterBindings function arguments).relabel change := by
  rcases function with ⟨name, parameters, body⟩
  simp only [parameterBindings, FunctionDecl.relabel, List.zip_map]
  exact foldl_set_relabel relabels _ []

end Machine

end Script
