import Script.Proofs.Lexical.Keeping

namespace Script.Lexical

/-!
# Names, properties and operators

What the parts of evaluation do that touch the heap directly.  A use that is
right finds its frame, reading gives a good value, and binding a method gives a
function that is at home in its new frame.
-/

section Uses

variable {log : Log} {machine : Machine} {position : Position}

/-- A distance that leads to a frame is an access there. -/
theorem Use.accesses_of_ancestor?
    {use : Use}
    {distance frame : Nat}
    (shape : use.distance = some distance)
    (walked :
      use.machine.frames.ancestor? (some use.machine.current) distance =
        some (some frame))
    (made : frame < use.machine.frames.size) :
    use.Accesses frame where
  reads value bound := by
    simp only [Machine.read, shape, Frames.getAt?, walked, bound,
      Option.getD_some]
  assigns value := by
    refine ⟨_, ?_, Frames.binds_define made use.name.lexeme value⟩
    simp only [Machine.assign, shape, walked]

/-- Without a distance a global name is accessed in the global frame. -/
theorem Use.accesses_globals
    {use : Use}
    (shape : use.distance = none)
    (bound :
      (use.machine.frames.local? Machine.globals use.name.lexeme).isSome)
    (made : Machine.globals < use.machine.frames.size) :
    use.Accesses Machine.globals where
  reads value found := by
    simp only [Machine.read, shape, Machine.readGlobal,
      Frames.get?_outermost, found]
  assigns value := by
    refine ⟨_, ?_, Frames.binds_define made use.name.lexeme value⟩
    simp only [Machine.assign, shape, Machine.writeGlobal,
      Frames.holder?_outermost, bound, if_true]

/-- Without a distance a name that is not global is accessed nowhere. -/
theorem Use.fails_of_unbound
    {use : Use}
    (shape : use.distance = none)
    (unbound :
      use.machine.frames.local? Machine.globals use.name.lexeme = none) :
    use.Fails where
  reads := by
    simp only [Machine.read, shape, Machine.readGlobal,
      Frames.get?_outermost, unbound]
  assigns value := by
    simp only [Machine.assign, shape, Machine.writeGlobal,
      Frames.holder?_outermost, unbound, Option.isSome_none,
      Bool.false_eq_true, if_false]

/-- The nearest declaration leads to its frame. -/
theorem agrees_of_nearest
    (sound : Sound log machine)
    (stands : Stands log machine position)
    (form : UseForm)
    (name : Token)
    (ready :
      form ≠ .assignment →
      ∀ level ∈ position.levels, level.pending ≠ some name.lexeme) :
    Use.Agrees log
      { form, name, distance := position.nearest? name.lexeme, position,
        machine } := by
  have ordered := sound.ordered
  unfold Use.Agrees
  cases found : position.nearest? name.lexeme with
  | none =>
      refine ⟨?_, fun bound => Use.accesses_globals rfl bound ordered.positive,
        fun unbound => Use.fails_of_unbound rfl unbound⟩
      intro level member
      unfold Position.nearest? at found
      simpa using List.findIdx?_eq_none_iff.mp found level member
  | some distance =>
      unfold Position.nearest? at found
      obtain ⟨inside, declared, nearer⟩ :=
        List.findIdx?_eq_some_iff_getElem.mp found
      have scope :
          position.levels[distance]? = some position.levels[distance] :=
        List.getElem?_eq_getElem inside
      obtain ⟨frame, walked, notGlobal, made, bound⟩ := stands.chain.walk scope
      have isMade :=
        ordered.ancestor?_lt_size (stands.chain.lt_size ordered) walked
      refine
        ⟨position.levels[distance], frame,
          { scope
            declared
            nearest := ?_
            longer :=
              (List.getElem?_eq_some_iff.mp (ordered.getElem?_chain walked)).1
            found := walked
            notGlobal
            made
            bound := ?_
            accesses := Use.accesses_of_ancestor? rfl walked isMade }⟩
      · intro index level before shape
        obtain ⟨indexInside, rfl⟩ := List.getElem?_eq_some_iff.mp shape
        simpa using nearer index before
      · intro isRead
        refine bound name.lexeme ?_
        have unpending :=
          ready isRead position.levels[distance] (List.getElem_mem inside)
        simpa [Level.declares, unpending] using declared

/-- The code at a position where the machine stands is as it should be. -/
theorem Sound.fits
    (sound : Sound log machine)
    (stands : Stands log machine position)
    {code : Code}
    (occurs : Occurs position code) :
    Fits position code :=
  sound.origins position.origin stands.began position code rfl occurs

theorem reference_right
    (sound : Sound log machine)
    (stands : Stands log machine position)
    {name : Token}
    {distance : Option Nat}
    (occurs : Occurs position (.expr (.reference name distance))) :
    Use.Right log { form := .read, name, distance, position, machine } := by
  obtain ⟨ordinary, resolved, plain⟩ := sound.fits stands occurs
  refine ⟨stands.began, occurs, fun analysed => ?_, plain,
    fun _ isReceiver => (ordinary isReceiver).elim⟩
  obtain ⟨rfl, ready⟩ := resolved analysed
  exact agrees_of_nearest sound stands .read name fun _ => ready

theorem receiver_right
    (sound : Sound log machine)
    (stands : Stands log machine position)
    {keyword : Token}
    {distance : Option Nat}
    (occurs : Occurs position (.expr (.receiver keyword distance))) :
    Use.Right log
      { form := .receiver, name := keyword, distance, position, machine } := by
  obtain ⟨resolved, plain⟩ := sound.fits stands occurs
  refine ⟨stands.began, occurs, fun analysed => ?_, plain,
    fun analysed _ => (resolved analysed).1⟩
  obtain ⟨-, rfl, ready, -⟩ := resolved analysed
  exact agrees_of_nearest sound stands .receiver keyword fun _ => ready

theorem assignment_right
    (sound : Sound log machine)
    (stands : Stands log machine position)
    {name : Token}
    {value : Expr}
    {distance : Option Nat}
    (occurs : Occurs position (.expr (.assign name value distance))) :
    Use.Right log
      { form := .assignment, name, distance, position, machine } := by
  obtain ⟨ordinary, resolved, plain⟩ := sound.fits stands occurs
  refine ⟨stands.began, ⟨value, occurs⟩, fun analysed => ?_, plain,
    fun _ isReceiver => (ordinary isReceiver).elim⟩
  obtain rfl := resolved analysed
  exact agrees_of_nearest sound stands .assignment name
    fun notAssignment => (notAssignment rfl).elim

/-- Noting an assignment changes nothing. -/
theorem assignment_goes
    (sound : Sound log machine)
    (stands : Stands log machine position)
    {name : Token}
    {value : Expr}
    {distance : Option Nat}
    (occurs : Occurs position (.expr (.assign name value distance))) :
    Goes machine log machine
      (.used { form := .assignment, name, distance, position, machine } ::
        log) :=
  .note sound rfl (assignment_right sound stands occurs)

/-- A use with a distance finds a frame. -/
theorem Use.Right.found
    {use : Use}
    (right : use.Right log)
    {distance : Nat}
    (shape : use.distance = some distance) :
    ∃ frame,
      use.machine.frames.ancestor? (some use.machine.current) distance =
        some (some frame) := by
  cases resolved : use.position.origin.resolved with
  | false =>
      rw [right.plain resolved] at shape
      cases shape
  | true =>
      have agrees := right.agrees resolved
      unfold Use.Agrees at agrees
      rw [shape] at agrees
      obtain ⟨level, frame, finds⟩ := agrees
      exact ⟨frame, finds.found⟩

/-- An undefined variable is the one that was used last. -/
theorem undefined_right
    (use : Use)
    (global : use.distance = none) :
    FaultRight (.used use :: log)
      { token := use.name, cause := .undefinedVariable } where
  knownUnary := by
    simp
  knownBinary := by
    simp
  undefined _ := ⟨use, log, rfl, rfl, global⟩

/-- Reading a name keeps the invariant. -/
theorem read_keeps
    (sound : Sound log machine)
    (use : Use)
    (right : use.Right log)
    (moment : use.machine = machine) :
    ({ outcome := machine.read use.name use.distance
       log := .used use :: log } : Watched Value).Keeps machine log
      GoodValue := by
  subst moment
  have goes := Goes.note sound (show Log.isQuiet (.used use) = true from rfl)
    right
  cases shape : use.distance with
  | none =>
      simp only [Machine.read, Machine.readGlobal]
      cases found :
          use.machine.frames.get? Machine.globals use.name.lexeme with
      | none =>
          exact ⟨goes, rfl, undefined_right use shape⟩
      | some value =>
          obtain ⟨holder, -, held⟩ := Option.bind_eq_some_iff.mp found
          exact ⟨goes, rfl, goes.sound.frames holder _ value held⟩
  | some distance =>
      obtain ⟨frame, walked⟩ := right.found shape
      simp only [Machine.read, Frames.getAt?, walked]
      refine ⟨goes, rfl, ?_⟩
      cases found :
          use.machine.frames.local? frame use.name.lexeme with
      | none =>
          trivial
      | some value =>
          exact goes.sound.frames frame _ value found

/-- A name that is assigned to is no receiver, so its frame holds none. -/
theorem Use.Right.not_holdsReceiver
    (sound : Sound log machine)
    {use : Use}
    (right : use.Right log)
    (isAssignment : use.form = .assignment)
    {distance frame : Nat}
    (shape : use.distance = some distance)
    (walked :
      use.machine.frames.ancestor? (some use.machine.current) distance =
        some (some frame)) :
    ¬ log.HoldsReceiver frame := by
  rintro ⟨-, label, made, isReceiver⟩
  have stands := right.stands
  unfold Use.Stands at stands
  rw [isAssignment] at stands
  obtain ⟨value, occurs⟩ := stands
  obtain ⟨ordinary, -, plain⟩ :=
    sound.origins _ right.began _ _ rfl occurs
  cases resolved : use.position.origin.resolved with
  | false =>
      rw [plain resolved] at shape
      cases shape
  | true =>
      have agrees := right.agrees resolved
      unfold Use.Agrees at agrees
      rw [shape] at agrees
      obtain ⟨level, found, finds⟩ := agrees
      have sameFrame := finds.found.symm.trans walked
      rw [Option.some.injEq, Option.some.injEq] at sameFrame
      have sameLabel := finds.made
      rw [sameFrame, made, Option.some.injEq] at sameLabel
      obtain ⟨names, ready⟩ :=
        occurs.nested.1.receivers level (List.mem_of_getElem? finds.scope)
          (sameLabel ▸ isReceiver)
      have declared := finds.declared
      rw [Level.declares, names, ready] at declared
      exact ordinary (by simpa using declared)

/-- Assigning to a name keeps the invariant. -/
theorem assign_keeps
    (sound : Sound log machine)
    (use : Use)
    (right : use.Right log)
    (isAssignment : use.form = .assignment)
    (moment : use.machine = machine)
    {value : Value}
    (good : Good log machine value) :
    ({ outcome := machine.assign use.name use.distance value
       log := .used use :: log } : Watched Value).Keeps machine log
      GoodValue := by
  subst moment
  have goes := Goes.note sound (show Log.isQuiet (.used use) = true from rfl)
    right
  have goodAfter := good.extend goes.extended
  have defined :
      ∀ frame,
        ¬ log.HoldsReceiver frame →
        ({ outcome :=
            .done value
              { use.machine with
                frames :=
                  use.machine.frames.define frame use.name.lexeme value }
           log := .used use :: log } : Watched Value).Keeps use.machine log
          GoodValue := by
    intro frame freeBefore
    have free : ¬ Log.HoldsReceiver (.used use :: log) frame := freeBefore
    have goodDefined :
        Good (.used use :: log)
          { use.machine with
            frames := use.machine.frames.define frame use.name.lexeme value }
          value :=
      goodAfter.extend (.define _ free _ _)
    exact ⟨goes.trans (.define goes.sound free use.name.lexeme value
      goodDefined), rfl, goodDefined⟩
  cases shape : use.distance with
  | none =>
      simp only [Machine.assign, Machine.writeGlobal]
      cases found :
          use.machine.frames.holder? Machine.globals use.name.lexeme with
      | none =>
          exact ⟨goes, rfl, undefined_right use shape⟩
      | some holder =>
          obtain rfl := Frames.eq_globals_of_holder? found
          exact defined _ log.not_holdsReceiver_globals
  | some distance =>
      obtain ⟨frame, walked⟩ := right.found shape
      simp only [Machine.assign, walked]
      exact defined frame
        (right.not_holdsReceiver sound isAssignment shape walked)

end Uses

section Methods

variable {log : Log} {machine : Machine}

/-- A bound method is at home in the frame of its receiver. -/
theorem bindMethod_goes
    (sound : Sound log machine)
    {method : Closure}
    (homed : MethodHomed log machine method)
    {receiver : Object}
    (good : Good log machine (.object receiver)) :
    Goes machine log (machine.bindMethod method receiver).2
        (log.bindMethod machine method) ∧
      Homed (log.bindMethod machine method)
        (machine.bindMethod method receiver).2
        (machine.bindMethod method receiver).1 := by
  obtain ⟨-, position, level, outer, home, began, occurs, levels, names, -,
    chain⟩ := homed
  have homeShape : log.home method = position := log.home_eq home
  have labelShape : Log.innermost position = level.label := by
    unfold Log.innermost
    rw [levels]
  have declared := Goes.declare sound position
  have goodReceiver :
      ∀ name value,
        List.lookup name [(Text.utf8 "this", Value.object receiver)] =
          some value →
        Good (.declared machine.identities position :: log)
          { machine with identities := machine.identities + 1 } value := by
    intro name value found
    rw [List.lookup_cons] at found
    split at found
    · cases found
      exact good.extend declared.extended
    · cases found
  have pushed :=
    Goes.push declared.sound (chain.lt_size sound.ordered) goodReceiver
      level.label machine.current
  have goes := declared.trans pushed
  have positive := sound.ordered.positive
  unfold Log.bindMethod
  rw [homeShape, labelShape]
  refine ⟨goes, position, ?_, goes.extended.origins _ began, occurs, ?_⟩
  · simp only [Machine.bindMethod, Log.homeOf_opened]
    rw [Log.homeOf_declared, if_pos rfl]
  · rw [levels]
    simp only [Machine.bindMethod]
    refine ⟨?_, ?_, ?_, method.frame, ?_, chain.extend goes.extended⟩
    · unfold Machine.globals
      omega
    · rw [Log.labelOf_opened, if_pos rfl]
    · intro name member
      rw [names] at member
      obtain rfl := List.mem_singleton.mp member
      rw [Frames.local?_push, if_pos rfl]
      rfl
    · rw [Frames.parent?_push, if_pos rfl]

/-- A method found in a class is one of its methods. -/
theorem MembersHomed.method
    {members : ClassValue}
    (homed : MembersHomed log machine members)
    {name : Text}
    {method : Closure}
    (found : members.method? name = some method) :
    MethodHomed log machine method := by
  unfold ClassValue.method? at found
  have member : (name, method) ∈ members.methods.reverse := by
    generalize members.methods.reverse = entries at found
    induction entries with
    | nil =>
        cases found
    | cons entry rest inductionHypothesis =>
        obtain ⟨entryName, entryMethod⟩ := entry
        rw [List.lookup_cons] at found
        split at found
        · rename_i same
          cases found
          obtain rfl : name = entryName := by
            simpa using same
          exact List.mem_cons_self
        · exact List.mem_cons_of_mem _ (inductionHypothesis found)
  exact homed _ (List.mem_reverse.mp member)

/-- Reading a property keeps the invariant. -/
theorem getProperty_keeps
    (sound : Sound log machine)
    {object : Object}
    (good : Good log machine (.object object))
    (name : Token) :
    ({ outcome := machine.getProperty object name
       log := log.getProperty machine object name.lexeme } :
      Watched Value).Keeps machine log GoodValue := by
  unfold Machine.getProperty Log.getProperty
  cases stored :
      machine.fields[object.identity]?.bind (·.lookup name.lexeme) with
  | some value =>
      obtain ⟨bindings, held, found⟩ := Option.bind_eq_some_iff.mp stored
      exact ⟨.refl sound, rfl, sound.fields _ bindings held _ value found⟩
  | none =>
      cases known : object.members.method? name.lexeme with
      | none =>
          exact .stopped sound (by simp)
      | some method =>
          obtain ⟨goes, homed⟩ :=
            bindMethod_goes sound (good.2.method known) good
          exact ⟨goes, rfl, homed⟩

end Methods

section Operators

/-- A value without any function in it, or a fault that may happen. -/
def Harmless : Except FaultCause Value → Prop
  | .ok value =>
      ∀ log machine, Good log machine value
  | .error cause =>
      cause ≠ .unknownUnary ∧ cause ≠ .unknownBinary ∧
        cause ≠ .undefinedVariable

/-- Known unary operators are harmless. -/
theorem unary_harmless
    {kind : TokenKind}
    (known : kind ∈ TokenKind.unaryOperators)
    (operand : Value) :
    Harmless (operand.unary kind) := by
  simp only [TokenKind.unaryOperators, List.mem_cons, List.not_mem_nil,
    or_false] at known
  rcases known with rfl | rfl
  · intro log machine
    trivial
  · cases operand with
    | number value =>
        intro log machine
        trivial
    | _ =>
        simp [Value.unary, Harmless]

theorem add_harmless (left right : Value) : Harmless (left.add right) := by
  unfold Value.add
  split
  · intro log machine
    trivial
  · intro log machine
    trivial
  · simp [Harmless]

theorem arithmetic_harmless
    {kind : TokenKind}
    (known :
      kind ∈
        ([.minus, .star, .slash, .greater, .greaterEqual, .less,
          .lessEqual] : List TokenKind))
    (left right : Float) :
    Harmless (Value.arithmetic kind left right) := by
  simp only [List.mem_cons, List.not_mem_nil, or_false] at known
  rcases known with rfl | rfl | rfl | rfl | rfl | rfl | rfl
  case inr.inr.inl =>
    simp only [Value.arithmetic]
    split
    · simp [Harmless]
    · intro log machine
      trivial
  all_goals
    intro log machine
    trivial

/-- Known binary operators are harmless. -/
theorem binary_harmless
    {kind : TokenKind}
    (known : kind ∈ TokenKind.binaryOperators)
    (left right : Value) :
    Harmless (left.binary kind right) := by
  unfold Value.binary
  split
  · intro log machine
    trivial
  · intro log machine
    trivial
  · exact add_harmless left right
  · rename_i notEqual notBang notPlus
    split
    · refine arithmetic_harmless ?_ _ _
      simp only [TokenKind.binaryOperators, List.mem_cons, List.not_mem_nil,
        or_false] at known ⊢
      tauto
    · simp [Harmless]

/-- The result of a known operator keeps the invariant. -/
theorem settle_keeps
    {log : Log}
    {machine : Machine}
    (sound : Sound log machine)
    (operator : Token)
    {result : Except FaultCause Value}
    (harmless : Harmless result) :
    ({ outcome := machine.settle operator result, log } :
      Watched Value).Keeps machine log GoodValue := by
  cases result with
  | ok value =>
      exact ⟨.refl sound, rfl, harmless log machine⟩
  | error cause =>
      exact .stopped sound harmless

end Operators

end Script.Lexical
