import Script.Proofs.Alignment.Machine
import Script.Proofs.Running.Unwinding

namespace Script

/-!
# Steps of machines with aligned programs

What a machine does in one step, a machine that is alike does alike: it makes functions,
classes and objects that are alike, prints the same lines, and stops with the same
fault.  A frame without names may be made and left by one of the machines alone.
-/

/-- Going back to the frame before changes nothing when the outcome is there. -/
theorem Outcome.Unwinds.mapMachine_current
    {α : Type}
    {before : Machine}
    {outcome : Outcome α}
    (unwinds : outcome.Unwinds before) :
    (outcome.mapMachine fun after =>
      { after with current := before.current }) = outcome := by
  cases outcome with
  | done | stopped | broken =>
      have there := unwinds.current
      simp only [Outcome.mapMachine, ← there]
  | exhausted =>
      rfl

namespace Machine.Alike

variable {change : Change} {links : Links} {outline : Outline}
variable {machine other : Machine}

theorem print
    (alike : machine.Alike change links outline other)
    (line : Text) :
    (machine.print line).Alike change links outline (other.print line) :=
  { alike with
    printed := congrArg ((line ++ [Text.newline]) :: ·) alike.printed }

/-- Both go on in a new frame, made for a scope that is marked or not. -/
theorem enter
    (alike : machine.Alike change links outline other)
    {parent partner : Nat}
    {around : Outline}
    (linked : links parent partner around)
    {marked : Bool}
    {bindings otherBindings : Bindings}
    (bindingsAlike : bindings.Alike change links marked otherBindings) :
    Machine.Alike change
      (links.add machine.frames.size other.frames.size (.both marked :: around))
      (.both marked :: around)
      { machine with
        frames := machine.frames.push (some parent) bindings
        current := machine.frames.size }
      { other with
        frames := other.frames.push (some partner) otherBindings
        current := other.frames.size } :=
  (alike.extend (links.within_add _ _ _)
    (alike.frames.push linked bindingsAlike)).goTo (links.added _ _ _)

section Scopes

variable {α : Type} {related : Links → α → α → Prop}
variable {body otherBody : Machine → Outcome α}

/-- A piece of program in a new frame that both make. -/
theorem inNewFrame
    (alike : machine.Alike change links outline other)
    {parent partner : Nat}
    {around : Outline}
    (linked : links parent partner around)
    {marked : Bool}
    {bindings otherBindings : Bindings}
    (bindingsAlike : bindings.Alike change links marked otherBindings)
    (bodyAlike :
      ∀ longer machine other,
        machine.Alike change longer (.both marked :: around) other →
        (body machine).Alike change longer (.both marked :: around) related
          (otherBody other)) :
    (machine.inNewFrame parent bindings body).Alike change links outline related
      (other.inNewFrame partner otherBindings otherBody) := by
  have within :=
    links.within_add machine.frames.size other.frames.size
      (.both marked :: around)
  have entered := alike.enter linked bindingsAlike
  refine .widen within ((bodyAlike _ _ _ entered).mapMachine ?_)
  intro longer after otherAfter further machines
  exact machines.goTo (further _ _ _ (within _ _ _ alike.here))

/-- A piece of program in a new frame that only the left machine makes. -/
theorem inLeftFrame
    (alike : machine.Alike change links outline other)
    (bodyAlike :
      ∀ longer machine other,
        machine.Alike change longer (.left :: outline) other →
        (body machine).Alike change longer (.left :: outline) related
          (otherBody other))
    (unwinds : (otherBody other).Unwinds other) :
    (machine.inNewFrame machine.current [] body).Alike change links outline related
      (otherBody other) := by
  have within :=
    links.within_add machine.frames.size other.current (.left :: outline)
  have entered :=
    (alike.extend within (alike.frames.pushLeft alike.here)).goTo
      (links.added _ _ _)
  rw [← unwinds.mapMachine_current]
  refine .widen within ((bodyAlike _ _ _ entered).mapMachine ?_)
  intro longer after otherAfter further machines
  exact machines.goTo (further _ _ _ (within _ _ _ alike.here))

/-- A piece of program in a new frame that only the right machine makes. -/
theorem inRightFrame
    (alike : machine.Alike change links outline other)
    (bodyAlike :
      ∀ longer machine other,
        machine.Alike change longer (.right :: outline) other →
        (body machine).Alike change longer (.right :: outline) related
          (otherBody other))
    (unwinds : (body machine).Unwinds machine) :
    (body machine).Alike change links outline related
      (other.inNewFrame other.current [] otherBody) := by
  have within :=
    links.within_add machine.current other.frames.size (.right :: outline)
  have entered :=
    (alike.extend within (alike.frames.pushRight alike.here)).goTo
      (links.added _ _ _)
  rw [← unwinds.mapMachine_current]
  refine .widen within ((bodyAlike _ _ _ entered).mapMachine ?_)
  intro longer after otherAfter further machines
  exact machines.goTo (further _ _ _ (within _ _ _ alike.here))

end Scopes

/-- A call counts among those under way. -/
theorem duringCall
    {α : Type}
    {related : Links → α → α → Prop}
    {call otherCall : Machine → Outcome α}
    (alike : machine.Alike change links outline other)
    (callAlike :
      ∀ machine other,
        machine.Alike change links outline other →
        (call machine).Alike change links outline related (otherCall other)) :
    (machine.duringCall call).Alike change links outline related
      (other.duringCall otherCall) := by
  have entered :
      Machine.Alike change links outline { machine with depth := machine.depth + 1 }
        { other with depth := other.depth + 1 } :=
    { alike with depth := congrArg (· + 1) alike.depth }
  refine (callAlike _ _ entered).mapMachine ?_
  intro longer after otherAfter _ machines
  exact { machines with depth := congrArg (· - 1) machines.depth }

theorem settle
    (alike : machine.Alike change links outline other)
    (operator : Token)
    {result : Except FaultCause Value}
    (plain : ∀ value, result = .ok value → value.IsPlain) :
    (machine.settle operator result).Alike change links outline
      (Value.Alike change)
      (other.settle operator result) := by
  cases result with
  | error cause =>
      exact alike.stopped _
  | ok value =>
      exact alike.done (plain value rfl).alike

theorem isFull
    (alike : machine.Alike change links outline other) :
    other.isFull = machine.isFull := by
  unfold Machine.isFull
  rw [alike.callLimit, alike.depth]

/-- Both call the same, or neither may call. -/
theorem callee
    (alike : machine.Alike change links outline other)
    {value otherValue : Value}
    (values : value.Alike change links otherValue)
    (given : Nat) :
    (∃ cause,
      machine.callee value given = .error cause ∧
        other.callee otherValue given = .error cause) ∨
      ∃ callable otherCallable,
        machine.callee value given = .ok callable ∧
          other.callee otherValue given = .ok otherCallable ∧
          callable.Alike change links otherCallable := by
  have callables := values.callable?
  unfold Machine.callee
  rw [alike.isFull]
  generalize value.callable? = before, otherValue.callable? = after
    at callables ⊢
  cases callables with
  | none =>
      exact .inl ⟨_, rfl, rfl⟩
  | some callable =>
      simp only [callable.arity_eq]
      split
      · exact .inl ⟨_, rfl, rfl⟩
      · split
        · exact .inl ⟨_, rfl, rfl⟩
        · exact .inr ⟨_, _, rfl, rfl, callable⟩

/-- The host tells both the same time. -/
theorem tick (alike : machine.Alike change links outline other) :
    machine.tick.Alike change links outline other.tick :=
  { alike with readings := congrArg (· + 1) alike.readings }

/-- A host function gives the same. -/
theorem callNative
    (alike : machine.Alike change links outline other)
    (native : Native)
    {arguments otherArguments : List Value}
    (values : List.Forall₂ (Value.Alike change links) arguments otherArguments) :
    (machine.callNative native arguments).Alike change links outline
      (Value.Alike change)
      (other.callNative native otherArguments) := by
  cases native with
  | clock =>
      simp only [Machine.callNative, alike.clock, alike.readings]
      exact alike.tick.done (.number _)
  | str =>
      cases values with
      | nil =>
          exact alike.done (.text _)
      | cons first _ =>
          simp only [Machine.callNative, List.headD_cons, first.display_eq]
          exact alike.done (.text _)
  | custom =>
      exact alike.done .nil

/-- Both make a function in the current frame. -/
theorem makeClosure
    (alike : machine.Alike change links outline other)
    {marked : Bool}
    (common : outline.Common marked)
    (inner : Outline)
    {function otherFunction : FunctionDecl}
    (functions : function.Aligned change (inner ++ outline) otherFunction)
    (isInitializer : Bool) :
    (machine.makeClosure function isInitializer).1.Alike change links inner
        (other.makeClosure otherFunction isInitializer).1 ∧
      (machine.makeClosure function isInitializer).2.Alike change links outline
        (other.makeClosure otherFunction isInitializer).2 :=
  ⟨{ identity := alike.identities
     isInitializer := rfl
     function := ⟨outline, marked, alike.here, common, functions⟩ },
   { alike with identities := congrArg (· + 1) alike.identities }⟩

theorem declareFunction
    (alike : machine.Alike change links outline other)
    {marked : Bool}
    (common : outline.Common marked)
    {function otherFunction : FunctionDecl}
    (keeps : change.Keeps outline marked function.name.lexeme)
    (functions : function.Aligned change outline otherFunction) :
    (machine.declareFunction function).Alike change links outline
      (other.declareFunction otherFunction) := by
  obtain ⟨closures, machines⟩ := alike.makeClosure common [] functions false
  have defined := machines.define common keeps.avoids (.function closures)
  rw [keeps.same] at defined
  unfold Machine.declareFunction
  rw [functions.name_eq]
  exact defined

/-- Both make the methods of a class. -/
theorem makeMethods
    {methods otherMethods : List FunctionDecl}
    (alike : machine.Alike change links outline other)
    {marked : Bool}
    (common : outline.Common marked)
    (functions :
      FunctionDecl.AllAligned change (.both false :: outline) methods otherMethods) :
    List.Forall₂ (Closure.MethodAlike change links) (machine.makeMethods methods).1
        (other.makeMethods otherMethods).1 ∧
      (machine.makeMethods methods).2.Alike change links outline
        (other.makeMethods otherMethods).2 := by
  induction methods generalizing machine other otherMethods with
  | nil =>
      cases functions
      exact ⟨.nil, alike⟩
  | cons first rest inductionHypothesis =>
      cases functions with
      | cons firstAligned restAligned =>
          obtain ⟨closures, machines⟩ :=
            alike.makeClosure common [.both false] firstAligned
              (first.name.lexeme == Text.utf8 "init")
          obtain ⟨methods, later⟩ := inductionHypothesis machines restAligned
          unfold Machine.makeMethods
          dsimp only
          rw [firstAligned.name_eq]
          exact ⟨.cons { name := rfl, closure := closures } methods, later⟩

theorem declareClass
    {name : Token}
    {methods otherMethods : List FunctionDecl}
    (alike : machine.Alike change links outline other)
    {marked : Bool}
    (common : outline.Common marked)
    (keeps : change.Keeps outline marked name.lexeme)
    (functions :
      FunctionDecl.AllAligned change (.both false :: outline) methods
        otherMethods) :
    (machine.declareClass name methods).Alike change links outline
      (other.declareClass name otherMethods) := by
  obtain ⟨closures, machines⟩ := alike.makeMethods common functions
  unfold Machine.declareClass
  generalize machine.makeMethods methods = before,
    other.makeMethods otherMethods = after at closures machines ⊢
  have classes :
      ClassValue.Alike change links
        { identity := before.2.identities
          name := name.lexeme
          methods := before.1 }
        { identity := after.2.identities
          name := name.lexeme
          methods := after.1 } :=
    { identity := machines.identities, name := rfl, methods := closures }
  have counted :
      Machine.Alike change links outline
        { before.2 with identities := before.2.identities + 1 }
        { after.2 with identities := after.2.identities + 1 } :=
    { machines with identities := congrArg (· + 1) machines.identities }
  have defined := counted.define common keeps.avoids (.classValue classes)
  rw [keeps.same] at defined
  exact defined

/-- Both make an object without fields. -/
theorem makeObject
    {members otherMembers : ClassValue}
    (alike : machine.Alike change links outline other)
    (classes : members.Alike change links otherMembers) :
    (machine.makeObject members).1.Alike change links
        (other.makeObject otherMembers).1 ∧
      (machine.makeObject members).2.Alike change links outline
        (other.makeObject otherMembers).2 := by
  refine ⟨{ identity := alike.fieldsSize, members := classes },
    { alike with
      fieldsSize := ?_
      fields := fun index => ?_ }⟩
  · simp only [Machine.makeObject, Array.size_push, alike.fieldsSize]
  · simp only [Machine.makeObject, Array.getElem?_push, alike.fieldsSize]
    split
    · exact .some fun _ _ => .none
    · exact alike.fields index

/-- Both bind a method to an object, each in a new frame. -/
theorem bindMethod
    {method otherMethod : Closure}
    {object otherObject : Object}
    (alike : machine.Alike change links outline other)
    (methods : method.Alike change links [.both false] otherMethod)
    (objects : object.Alike change links otherObject) :
    ∃ longer,
      links.Within longer ∧
        (machine.bindMethod method object).1.Alike change longer []
          (other.bindMethod otherMethod otherObject).1 ∧
        (machine.bindMethod method object).2.Alike change longer outline
          (other.bindMethod otherMethod otherObject).2 := by
  obtain ⟨around, _, linked, -, function⟩ := methods.function
  have bindings :
      Bindings.Alike change links false [(Text.utf8 "this", .object object)]
        [(Text.utf8 "this", .object otherObject)] := by
    intro name _
    rw [change.name_false, List.lookup_cons, List.lookup_cons]
    split
    · exact .some (.object objects)
    · exact .none
  have within :=
    links.within_add machine.frames.size other.frames.size
      (.both false :: around)
  have pushed := alike.extend within (alike.frames.push linked bindings)
  refine ⟨_, within, ?_, ?_⟩
  · exact
      { identity := alike.identities
        isInitializer := methods.isInitializer
        function :=
          ⟨.both false :: around, false, links.added _ _ _,
            Outline.common_both false around, function⟩ }
  · exact { pushed with identities := congrArg (· + 1) alike.identities }

/-- Both give the receiver that a method was bound to, whose name is never changed. -/
theorem receiverOf
    (proper : change.IsProper)
    {method otherMethod : Closure}
    (alike : machine.Alike change links outline other)
    (methods : method.Alike change links [] otherMethod) :
    (machine.receiverOf method).Alike change links
      (other.receiverOf otherMethod) := by
  obtain ⟨around, marked, linked, common, -⟩ := methods.function
  have values :=
    alike.frames.bindings _ _ _ ⟨around, linked, common⟩ Site.receiverName
      (proper.fresh_receiver marked)
  rw [proper.name_receiver] at values
  unfold Machine.receiverOf
  rw [show Text.utf8 "this" = Site.receiverName from rfl]
  generalize machine.frames.local? method.frame Site.receiverName = before,
    other.frames.local? otherMethod.frame Site.receiverName = after
    at values ⊢
  cases values with
  | none =>
      exact .nil
  | some value =>
      exact value

/-- A field has values that are alike, or it is a field of neither. -/
theorem field?
    (alike : machine.Alike change links outline other)
    (index : Nat)
    (name : Text) :
    Option.Rel (Value.Alike change links)
      (machine.fields[index]?.bind (·.lookup name))
      (other.fields[index]?.bind (·.lookup name)) := by
  have fields := alike.fields index
  generalize machine.fields[index]? = before,
    other.fields[index]? = after at fields ⊢
  cases fields with
  | none =>
      exact .none
  | some bindings =>
      have values := bindings name (change.fresh_false name)
      rwa [change.name_false] at values

/-- Both find a property, or neither does. -/
theorem getProperty
    {object otherObject : Object}
    (alike : machine.Alike change links outline other)
    (objects : object.Alike change links otherObject)
    (name : Token) :
    (machine.getProperty object name).Alike change links outline
      (Value.Alike change)
      (other.getProperty otherObject name) := by
  have stored := alike.field? object.identity name.lexeme
  have methods := objects.members.method? name.lexeme
  unfold Machine.getProperty
  rw [objects.identity]
  generalize
    machine.fields[object.identity]?.bind (·.lookup name.lexeme) = field,
    other.fields[object.identity]?.bind (·.lookup name.lexeme) = otherField
    at stored ⊢
  cases stored with
  | some value =>
      exact alike.done value
  | none =>
      generalize object.members.method? name.lexeme = method,
        otherObject.members.method? name.lexeme = otherMethod at methods ⊢
      cases methods with
      | none =>
          exact alike.stopped _
      | some closures =>
          obtain ⟨longer, within, bound, machines⟩ :=
            alike.bindMethod closures objects
          exact .done within machines (.function bound)

/-- Both give a field a value. -/
theorem setField
    {object otherObject : Object}
    {value otherValue : Value}
    (alike : machine.Alike change links outline other)
    (objects : object.Alike change links otherObject)
    (name : Text)
    (values : value.Alike change links otherValue) :
    (machine.setField object name value).Alike change links outline
      (other.setField otherObject name otherValue) := by
  refine
    { alike with
      fieldsSize := ?_
      fields := fun index => ?_ }
  · simp only [Machine.setField, Array.size_modify, alike.fieldsSize]
  · have fields := alike.fields index
    simp only [Machine.setField, Array.getElem?_modify, objects.identity]
    split
    · generalize machine.fields[index]? = before,
        other.fields[index]? = after at fields ⊢
      cases fields with
      | none =>
          exact .none
      | some bindings =>
          refine .some fun otherName fresh => ?_
          have kept := bindings otherName fresh
          rw [change.name_false] at kept ⊢
          rw [Bindings.lookup_set, Bindings.lookup_set]
          split
          · exact .some values
          · exact kept
    · exact fields

end Machine.Alike

/-- Parameters have their arguments, each under the name that it has in the body of
the function. -/
theorem Bindings.Alike.foldl_set
    {change : Change}
    {links : Links}
    {marked : Bool}
    {parameters : List Token}
    {arguments otherArguments : List Value}
    (values : List.Forall₂ (Value.Alike change links) arguments otherArguments)
    (fresh : ∀ parameter ∈ parameters, change.Fresh marked parameter.lexeme)
    {bindings otherBindings : Bindings}
    (earlier : bindings.Alike change links marked otherBindings) :
    Bindings.Alike change links marked
      ((parameters.zip arguments).foldl
        (fun bindings (parameter, argument) =>
          bindings.set parameter.lexeme argument)
        bindings)
      (((parameters.map (change.token marked)).zip otherArguments).foldl
        (fun bindings (parameter, argument) =>
          bindings.set parameter.lexeme argument)
        otherBindings) := by
  induction parameters generalizing arguments otherArguments bindings
    otherBindings with
  | nil =>
      exact earlier
  | cons first rest inductionHypothesis =>
      obtain ⟨firstFresh, restFresh⟩ := List.forall_mem_cons.mp fresh
      cases values with
      | nil =>
          exact earlier
      | cons value others =>
          refine inductionHypothesis others restFresh fun name nameFresh => ?_
          dsimp only [Change.token_lexeme]
          rw [Bindings.lookup_set, Bindings.lookup_set]
          by_cases same : name = first.lexeme
          · rw [if_pos same, if_pos (congrArg _ same)]
            exact .some value
          · rw [if_neg same,
              if_neg (mt (Change.name_inj nameFresh firstFresh).mp same)]
            exact earlier name nameFresh

end Script
