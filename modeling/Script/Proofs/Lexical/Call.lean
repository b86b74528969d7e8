import Script.Proofs.Lexical.Access

namespace Script.Lexical

/-!
# Declarations and calls

What the steps of evaluation do that declare something or call something.  A
function that is declared is at home behind its declaration.  What is called is
good and takes the arguments it is given; entering a function makes a frame for
its parameters, and calling a class makes an object and binds the initializer to
it.
-/

section Parameters

variable {bindings : Bindings} {name : Text}

/-- Setting names one after the other binds them all. -/
theorem lookup_foldl_isSome
    (pairs : List (Token × Value))
    (bound :
      (bindings.lookup name).isSome ∨
        ∃ pair ∈ pairs, pair.1.lexeme = name) :
    ((pairs.foldl
      (fun (bindings : Bindings) (parameter, argument) =>
        bindings.set parameter.lexeme argument)
      bindings).lookup name).isSome := by
  induction pairs generalizing bindings with
  | nil =>
      simpa using bound
  | cons pair rest inductionHypothesis =>
      refine inductionHypothesis ?_
      rw [Bindings.lookup_set]
      by_cases same : name = pair.1.lexeme
      · left
        simp [same]
      · rcases bound with bound | ⟨found, member, lexeme⟩
        · left
          simpa [same] using bound
        · right
          rcases List.mem_cons.mp member with rfl | member
          · exact (same lexeme.symm).elim
          · exact ⟨found, member, lexeme⟩

/-- Setting names one after the other gives them no other values. -/
theorem lookup_foldl_eq_some
    (pairs : List (Token × Value))
    {value : Value}
    (found :
      (pairs.foldl
        (fun (bindings : Bindings) (parameter, argument) =>
          bindings.set parameter.lexeme argument)
        bindings).lookup name = some value) :
    bindings.lookup name = some value ∨ ∃ pair ∈ pairs, pair.2 = value := by
  induction pairs generalizing bindings with
  | nil =>
      exact .inl found
  | cons pair rest inductionHypothesis =>
      rcases inductionHypothesis found with before | ⟨later, member, same⟩
      · rw [Bindings.lookup_set] at before
        split at before
        · cases before
          exact .inr ⟨pair, List.mem_cons_self, rfl⟩
        · exact .inl before
      · exact .inr ⟨later, List.mem_cons_of_mem _ member, same⟩

/-- A function that gets as many arguments as it takes binds every parameter. -/
theorem parameterBindings_isSome
    {function : FunctionDecl}
    {arguments : List Value}
    (arity : function.arity = arguments.length)
    {parameter : Token}
    (member : parameter ∈ function.parameters) :
    ((Machine.parameterBindings function arguments).lookup
      parameter.lexeme).isSome := by
  refine lookup_foldl_isSome _ (.inr ?_)
  obtain ⟨index, inside, rfl⟩ := List.getElem_of_mem member
  have given : index < arguments.length := arity ▸ inside
  refine ⟨(function.parameters[index], arguments[index]), ?_, rfl⟩
  have zipped : index < (function.parameters.zip arguments).length := by
    rw [List.length_zip]
    omega
  rw [← List.getElem_zip (h := zipped)]
  exact List.getElem_mem zipped

/-- The parameters of a function have arguments as their values. -/
theorem mem_of_parameterBindings
    {function : FunctionDecl}
    {arguments : List Value}
    {value : Value}
    (found :
      (Machine.parameterBindings function arguments).lookup name =
        some value) :
    value ∈ arguments := by
  rcases lookup_foldl_eq_some _ found with impossible | ⟨pair, member, rfl⟩
  · cases impossible
  · exact (List.of_mem_zip member).2

end Parameters

section Declarations

variable {log : Log} {machine : Machine} {position : Position}

/-- A position is not left by a change of its path. -/
theorem Stands.of_levels
    (stands : Stands log machine position)
    (other : Position)
    (origin : other.origin = position.origin)
    (levels : other.levels = position.levels) :
    Stands log machine other where
  began := origin ▸ stands.began
  chain := levels ▸ stands.chain

theorem Stands.next
    (stands : Stands log machine position) :
    Stands log machine position.next :=
  stands.of_levels position.next (by simp) (by simp)

/-- The initializer of a name stands in the scopes of its declaration. -/
theorem Stands.initializing
    (stands : Stands log machine position)
    (name : Text) :
    Stands log machine (position.initializing name) := by
  unfold Position.initializing
  split
  · exact stands
  · rename_i level outer levels
    refine ⟨stands.began, ?_⟩
    have chain := stands.chain
    rw [levels] at chain
    exact chain

/-- Behind a declaration the innermost frame binds the name. -/
theorem Stands.define
    (sound : Sound log machine)
    (stands : Stands log machine position)
    (inBody : position.IsInBody)
    (name : Text)
    (value : Value) :
    Stands log (machine.define name value) (position.declare name) := by
  have made := stands.chain.lt_size sound.ordered
  have extended :=
    Extends.define machine (stands.not_holdsReceiver inBody) name value
  have after := stands.extend extended rfl
  unfold Position.declare
  split
  · exact after
  · rename_i level outer levels
    refine ⟨after.began, ?_⟩
    have chain := after.chain
    rw [levels] at chain
    obtain ⟨notGlobal, label, bound, rest⟩ := chain
    refine ⟨notGlobal, label, ?_, rest⟩
    intro other member
    rcases List.mem_cons.mp member with rfl | member
    · have isBound :
          ((machine.frames.define machine.current other value).local?
            machine.current other).isSome := by
        rw [Frames.local?_define, if_pos ⟨rfl, rfl, made⟩]
        rfl
      exact isBound
    · exact bound other member

/-- A function that is declared is at home behind its declaration. -/
theorem declareFunction_goes
    (sound : Sound log machine)
    (stands : Stands log machine position)
    {function : FunctionDecl}
    (occurs : Occurs position (.stmt (.functionDecl function))) :
    Goes machine log (machine.declareFunction function)
        (.declared machine.identities
          (position.declare function.name.lexeme) :: log) ∧
      Stands
        (.declared machine.identities
          (position.declare function.name.lexeme) :: log)
        (machine.declareFunction function)
        (position.declare function.name.lexeme) := by
  have declared :=
    Goes.declare sound (position.declare function.name.lexeme)
  have standsDeclared := stands.extend declared.extended rfl
  have inBody := occurs.nested.2
  have standsDefined :=
    standsDeclared.define declared.sound inBody function.name.lexeme
      (.function
        { identity := machine.identities
          function
          frame := machine.current
          isInitializer := false })
  refine ⟨declared.trans (.define declared.sound
    (standsDeclared.not_holdsReceiver inBody) _ _ ?_), standsDefined⟩
  refine ⟨position.declare function.name.lexeme, ?_, standsDefined.began,
    .functionDecl occurs, standsDefined.chain⟩
  rw [Log.homeOf_declared, if_pos rfl]

/-- The methods of a class get their numbers one after the other.  Each is known
at its position, and its frame is the current one. -/
theorem makeMethods_goes
    (sound : Sound log machine)
    {methods : List FunctionDecl}
    (occurs : Occurs position (.methods methods)) :
    Goes machine log (machine.makeMethods methods).2
        (Log.declareMethods machine.identities position log methods) ∧
      (machine.makeMethods methods).2.frames = machine.frames ∧
      (machine.makeMethods methods).2.current = machine.current ∧
      ∀ entry ∈ (machine.makeMethods methods).1,
        entry.2.frame = machine.current ∧
          entry.2.isInitializer = (entry.2.name == Text.utf8 "init") ∧
          ∃ home,
            (Log.declareMethods machine.identities position log
                methods).homeOf entry.2.identity = some home ∧
              home.origin = position.origin ∧
              home.levels = position.levels ∧
              Occurs home (.function entry.2.function) := by
  induction methods generalizing machine log position with
  | nil =>
      exact ⟨.refl sound, rfl, rfl, fun entry member => by cases member⟩
  | cons first rest inductionHypothesis =>
      have declared := Goes.declare sound position
      obtain ⟨goes, frames, current, homes⟩ :=
        inductionHypothesis declared.sound occurs.laterMethods
      refine ⟨declared.trans goes, frames, current, ?_⟩
      intro entry member
      rcases List.mem_cons.mp member with rfl | member
      · refine ⟨rfl, rfl, position, ?_, rfl, rfl, occurs.firstMethod⟩
        refine goes.extended.homes _ _ ?_
        rw [Log.homeOf_declared]
        exact if_pos rfl
      · obtain ⟨frame, marked, home, found, origin, levels, standing⟩ :=
          homes entry member
        exact ⟨frame, marked, home, found, by simpa using origin,
          by simpa using levels, standing⟩

/-- The methods of a class that is declared are at home behind its
declaration. -/
theorem declareClass_goes
    (sound : Sound log machine)
    (stands : Stands log machine position)
    {name : Token}
    {methods : List FunctionDecl}
    (occurs : Occurs position (.stmt (.classDecl name methods))) :
    Goes machine log (machine.declareClass name methods)
        (Log.declareMethods machine.identities
          (position.declare name.lexeme).inClass log methods) ∧
      Stands
        (Log.declareMethods machine.identities
          (position.declare name.lexeme).inClass log methods)
        (machine.declareClass name methods)
        (position.declare name.lexeme) := by
  obtain ⟨made, frames, current, homes⟩ :=
    makeMethods_goes sound occurs.classMethods
  have counted :
      Goes machine log
        { (machine.makeMethods methods).2 with
          identities := (machine.makeMethods methods).2.identities + 1 }
        (Log.declareMethods machine.identities
          (position.declare name.lexeme).inClass log methods) :=
    made.trans (.same made.sound rfl rfl (Nat.le_succ _))
  have standsCounted := stands.extend counted.extended current
  have inBody := occurs.nested.2
  have standsDefined :=
    standsCounted.define counted.sound inBody name.lexeme
      (.classValue
        { identity := (machine.makeMethods methods).2.identities
          name := name.lexeme
          methods := (machine.makeMethods methods).1 })
  refine ⟨counted.trans (.define counted.sound
    (standsCounted.not_holdsReceiver inBody) _ _ ?_), standsDefined⟩
  intro entry member
  obtain ⟨frame, marked, home, found, origin, levels, standing⟩ :=
    homes entry member
  refine ⟨marked, home, _, _, found, ?_, standing, levels, rfl, rfl, ?_⟩
  · rw [origin]
    exact standsDefined.began
  · rw [frame, ← current]
    exact standsDefined.chain

end Declarations

/-- The callable parts of a value are good when the value is. -/
def GoodCallable
    (log : Log)
    (machine : Machine) :
    Callable → Prop
  | .native _ =>
      True
  | .function closure =>
      Homed log machine closure
  | .classValue members =>
      MembersHomed log machine members

theorem GoodCallable.extend
    {before after : Machine}
    {log longer : Log}
    (extended : Extends before log after longer)
    {callable : Callable}
    (good : GoodCallable log before callable) :
    GoodCallable longer after callable := by
  cases callable with
  | native =>
      trivial
  | function closure =>
      exact Homed.extend extended good
  | classValue members =>
      exact MembersHomed.extend extended good

/-- The callable in a good value is good. -/
theorem Good.callable
    {log : Log}
    {machine : Machine}
    {value : Value}
    {callable : Callable}
    (good : Good log machine value)
    (found : value.callable? = some callable) :
    GoodCallable log machine callable := by
  cases value with
  | native | function | classValue =>
      cases found
      exact good
  | nil | bool | number | text | object =>
      cases found

/-- What is called is good and takes the number of arguments given. -/
theorem callee_good
    {log : Log}
    {machine : Machine}
    {value : Value}
    {given : Nat}
    {callable : Callable}
    (good : Good log machine value)
    (called : machine.callee value given = .ok callable) :
    GoodCallable log machine callable ∧ callable.arity = given := by
  unfold Machine.callee at called
  split at called
  · cases called
  · rename_i found known
    split at called
    · cases called
    · rename_i arity
      split at called
      · cases called
      · cases called
        exact ⟨good.callable known, Decidable.of_not_not arity⟩

/-- A call that cannot be made stops with a fault that may happen. -/
theorem callee_harmless
    {machine : Machine}
    {value : Value}
    {given : Nat}
    {cause : FaultCause}
    (refused : machine.callee value given = .error cause) :
    cause ≠ .unknownUnary ∧ cause ≠ .unknownBinary ∧
      cause ≠ .undefinedVariable := by
  unfold Machine.callee at refused
  split at refused
  · cases refused
    simp
  · split at refused
    · cases refused
      simp
    · split at refused
      · cases refused
        simp
      · cases refused

section Calls

variable {log : Log} {machine : Machine} {arguments : List Value}

/-- Entering a function makes a frame for its parameters, where the function was
declared. -/
theorem enterFunction_goes
    (sound : Sound log machine)
    {closure : Closure}
    (homed : Homed log machine closure)
    (arity : closure.arity = arguments.length)
    (goodArguments : ∀ argument ∈ arguments, Good log machine argument) :
    let home := log.home closure
    let entered := .entered closure arguments.length :: log
    Goes machine log machine entered ∧
      Opens entered machine closure.frame
        (Machine.parameterBindings closure.function arguments) home
        (closure.function.parameters.map Token.lexeme).reverse ∧
      Occurs (home.inFunction closure.function)
        (.stmts closure.function.body) := by
  intro home entered
  obtain ⟨position, found, began, occurs, chain⟩ := homed
  obtain rfl : home = position := log.home_eq found
  have goes : Goes machine log machine entered :=
    .note sound rfl arity
  refine ⟨goes, ?_, occurs.functionBody⟩
  exact
    { began := goes.extended.origins _ began
      chain := chain.extend goes.extended
      good := fun _ _ bound =>
        (goodArguments _ (mem_of_parameterBindings bound)).extend goes.extended
      bound := fun name member => by
        simp only [List.mem_reverse, List.mem_map] at member
        obtain ⟨parameter, isParameter, rfl⟩ := member
        exact parameterBindings_isSome arity isParameter }

/-- The receiver of an initializer is good. -/
theorem good_receiverOf
    (sound : Sound log machine)
    (closure : Closure) :
    Good log machine (machine.receiverOf closure) := by
  unfold Machine.receiverOf
  cases bound : machine.frames.local? closure.frame (Text.utf8 "this") with
  | none =>
      trivial
  | some value =>
      exact sound.frames _ _ value bound

/-- The object that a class makes is good. -/
theorem good_makeObject
    (sound : Sound log machine)
    {members : ClassValue}
    (homed : MembersHomed log machine members) :
    Good log (machine.makeObject members).2
      (.object (machine.makeObject members).1) :=
  ⟨by simp [Machine.makeObject],
    MembersHomed.extend (Goes.makeObject sound members).extended homed⟩

/-- The initializer of a class takes the arguments that the class takes. -/
theorem initializer_arity
    {members : ClassValue}
    {initializer : Closure}
    (found : members.initializer? = some initializer)
    (arity : members.arity = arguments.length) :
    initializer.arity = arguments.length := by
  rw [← arity, ClassValue.arity, found]
  rfl

/-- The initializer of an object that a class makes is at home once it is bound,
and the object and the arguments are still good. -/
theorem bindInitializer_goes
    (sound : Sound log machine)
    {members : ClassValue}
    (homed : MembersHomed log machine members)
    {initializer : Closure}
    (found : members.initializer? = some initializer)
    (goodArguments : ∀ argument ∈ arguments, Good log machine argument) :
    let made := machine.makeObject members
    let bound := made.2.bindMethod initializer made.1
    let longer := log.bindMethod made.2 initializer
    Goes made.2 log bound.2 longer ∧
      Homed longer bound.2 bound.1 ∧
      (∀ argument ∈ arguments, Good longer bound.2 argument) ∧
      Good longer bound.2 (.object made.1) := by
  intro made bound longer
  have goesMade := Goes.makeObject sound members
  have goodObject := good_makeObject sound homed
  obtain ⟨goesBound, boundHomed⟩ :=
    bindMethod_goes goesMade.sound (goodObject.2.method found) goodObject
  have goes := goesMade.trans goesBound
  exact ⟨goesBound, boundHomed,
    fun argument member => (goodArguments argument member).extend goes.extended,
    goodObject.extend goesBound.extended⟩

end Calls

end Script.Lexical
