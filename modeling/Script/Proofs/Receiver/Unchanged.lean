import Script.Proofs.Receiver.Session

namespace Script.Lexical

/-!
# Receivers never change

A method that is bound keeps its receiver.  Its frame is the only one on the way
outwards that was made for the class of the method, the distance of a receiver
leads to exactly that frame, and nothing ever writes there.
-/

namespace Matches

variable {log : Log} {frames : Frames}

/-- Every frame on the way outwards was made for one of the scopes, or is the
global one. -/
theorem label_of_mem_chainUpTo
    (ordered : frames.Ordered)
    {frame steps found : Nat}
    {levels : List Level}
    (chain : Matches log frames frame levels)
    (member : found ∈ frames.chainUpTo steps frame)
    (notGlobal : found ≠ Machine.globals) :
    ∃ level ∈ levels, log.labelOf found = some level.label := by
  induction levels generalizing frame steps with
  | nil =>
      obtain rfl : frame = Machine.globals := chain
      cases steps with
      | zero =>
          cases member
      | succ steps =>
          rw [Frames.chainUpTo, ordered.outermost] at member
          exact (notGlobal (List.mem_singleton.mp member)).elim
  | cons level outer inductionHypothesis =>
      obtain ⟨-, made, -, parent, around, outside⟩ := chain
      cases steps with
      | zero =>
          cases member
      | succ steps =>
          rw [Frames.chainUpTo, around] at member
          rcases List.mem_cons.mp member with rfl | member
          · exact ⟨level, List.mem_cons_self, made⟩
          · obtain ⟨inner, isOuter, madeFor⟩ :=
              inductionHypothesis outside member
            exact ⟨inner, List.mem_cons_of_mem _ isOuter, madeFor⟩

/-- No two frames on the way outwards were made for the same scope. -/
theorem eq_of_mem_chainUpTo
    (ordered : frames.Ordered)
    {frame steps first second : Nat}
    {levels : List Level}
    {label : ScopeLabel}
    (chain : Matches log frames frame levels)
    (distinct : (levels.map Level.label).Nodup)
    (firstMember : first ∈ frames.chainUpTo steps frame)
    (secondMember : second ∈ frames.chainUpTo steps frame)
    (firstNotGlobal : first ≠ Machine.globals)
    (secondNotGlobal : second ≠ Machine.globals)
    (firstMade : log.labelOf first = some label)
    (secondMade : log.labelOf second = some label) :
    first = second := by
  induction levels generalizing frame steps with
  | nil =>
      obtain ⟨level, impossible, -⟩ :=
        chain.label_of_mem_chainUpTo ordered firstMember firstNotGlobal
      cases impossible
  | cons level outer inductionHypothesis =>
      obtain ⟨-, made, -, parent, around, outside⟩ := chain
      rw [List.map_cons, List.nodup_cons] at distinct
      cases steps with
      | zero =>
          cases firstMember
      | succ steps =>
          -- A frame further outwards has another label than the first one.
          have further :
              ∀ found ∈ frames.chainUpTo steps parent,
                found ≠ Machine.globals →
                log.labelOf found ≠ some level.label := by
            intro found member notGlobal same
            obtain ⟨other, isOuter, madeFor⟩ :=
              outside.label_of_mem_chainUpTo ordered member notGlobal
            rw [same, Option.some.injEq] at madeFor
            exact distinct.1 (madeFor ▸ List.mem_map_of_mem isOuter)
          rw [Frames.chainUpTo, around] at firstMember secondMember
          rcases List.mem_cons.mp firstMember with rfl | firstOuter <;>
            rcases List.mem_cons.mp secondMember with rfl | secondOuter
          · rfl
          · rw [made] at firstMade
            exact (further second secondOuter secondNotGlobal
              (secondMade.trans firstMade.symm)).elim
          · rw [made] at secondMade
            exact (further first firstOuter firstNotGlobal
              (firstMade.trans secondMade.symm)).elim
          · exact inductionHypothesis outside distinct.2 firstOuter
              secondOuter

end Matches

/-- The distance of a receiver is that of the innermost class. -/
theorem Position.classScope?_of_receiverDistance?
    {position : Position}
    {distance : Nat}
    (found : position.receiverDistance? = some distance) :
    ∃ level,
      position.levels[distance]? = some level ∧
        position.classScope? = some level.label := by
  unfold Position.receiverDistance? at found
  obtain ⟨inside, isReceiver, nearer⟩ :=
    List.findIdx?_eq_some_iff_getElem.mp found
  refine ⟨_, List.getElem?_eq_getElem inside, ?_⟩
  unfold Position.classScope?
  rw [List.find?_map]
  refine congrArg (Option.map Level.label)
    (List.find?_eq_some_iff_getElem.mpr ⟨isReceiver, distance, inside, rfl, ?_⟩)
  intro index before
  simpa using nearer index before

/-- The innermost class around a position has a scope for its receiver. -/
theorem Position.form_of_classScope?
    {position : Position}
    {label : ScopeLabel}
    (found : position.classScope? = some label) :
    label.form = .receiver := by
  unfold Position.classScope? at found
  simpa using List.find?_some found

/-- The frame of a method that was bound was made for its class. -/
theorem BoundTo.scope
    {log : Log}
    {machine : Machine}
    {function : Closure}
    {receiver : Object}
    (bound : BoundTo log machine function receiver) :
    ∃ label,
      (log.home function).classScope? = some label ∧
        log.labelOf function.frame = some label := by
  obtain ⟨position, label, home, scope, made, -⟩ := bound.home
  refine ⟨label, ?_, made⟩
  rw [log.home_eq home, scope]

/-- Some entry is about binding a method to a receiver, which gave the
function. -/
def Bound
    (entries : List Entry)
    (function : Closure)
    (receiver : Object) :
    Prop :=
  ∃ entry ∈ entries, entry.matter = .bound function receiver

/-- A use stands in the class of a method and runs in a call of the method or in
a function nested in it: the frame of the method is on the way outwards. -/
structure Use.IsIn
    (log : Log)
    (function : Closure)
    (use : Use) :
    Prop where
  scope :
    ∃ label,
      use.position.classScope? = some label ∧
        (log.home function).classScope? = some label
  inside :
    function.frame ∈ use.machine.frames.chain use.machine.current

/-- A receiver that is read is that of the methods whose call it is in, and there
is such a method. -/
structure Use.Receives
    (earlier : List Entry)
    (log : Log)
    (use : Use) :
    Prop where
  belongs :
    ∃ function receiver,
      Bound earlier function receiver ∧ use.IsIn log function
  receiver :
    ∀ function receiver,
      Bound earlier function receiver →
      use.IsIn log function →
      use.machine.read use.name use.distance =
        .done (.object receiver) use.machine

/-- What an entry says of receivers, given the entries before it. -/
def Entry.Kept
    (earlier : List Entry)
    (entry : Entry) :
    Prop :=
  match entry.matter with
  | .bound function receiver =>
      BoundTo entry.log entry.machine function receiver
  | .received use =>
      use.position.origin.resolved = true →
      use.Receives earlier entry.log
  | .returned function value =>
      ∀ receiver,
        Bound earlier function receiver →
        function.name = Text.utf8 "init" →
        value = .object receiver
  | .constructed members arguments before value =>
      Constructs members arguments before value

/-- The distance of a receiver leads to the frame that was made for the innermost
class around it. -/
theorem Use.Received.finds
    {log : Log}
    {use : Use}
    (received : use.Received log)
    (analysed : use.position.origin.resolved = true) :
    ∃ label frame,
      use.position.classScope? = some label ∧
        frame ∈ use.machine.frames.chain use.machine.current ∧
        frame ≠ Machine.globals ∧
        log.labelOf frame = some label ∧
        ∀ value,
          use.machine.frames.local? frame Position.receiverName =
            some value →
          use.machine.read use.name use.distance = .done value use.machine := by
  obtain ⟨present, -, -, lexeme, classDistance⟩ := received.fits.1 analysed
  obtain ⟨distance, shape⟩ := Option.ne_none_iff_exists'.mp present
  obtain ⟨level, scope, innermost⟩ :=
    Position.classScope?_of_receiverDistance? (classDistance.symm.trans shape)
  obtain ⟨frame, walked, notGlobal, made, -⟩ := received.stands.chain.walk scope
  refine ⟨level.label, frame, innermost,
    List.mem_of_getElem? (received.ordered.getElem?_chain walked), notGlobal,
    made, fun value bound => ?_⟩
  rw [shape, Machine.read, Frames.getAt?, walked, lexeme]
  simp only [bound, Option.getD_some]

/-- A method on the way outwards whose class is the innermost one gives the
receiver. -/
theorem Use.Received.reads
    {log : Log}
    {use : Use}
    {function : Closure}
    {receiver : Object}
    (received : use.Received log)
    (analysed : use.position.origin.resolved = true)
    (bound : BoundTo log use.machine function receiver)
    (isIn : use.IsIn log function) :
    use.machine.read use.name use.distance =
      .done (.object receiver) use.machine := by
  obtain ⟨label, frame, innermost, onWay, notGlobal, made, reads⟩ :=
    received.finds analysed
  obtain ⟨itsLabel, itsScope, itsFrame⟩ := bound.scope
  obtain ⟨shared, here, there⟩ := isIn.scope
  obtain rfl : label = shared := Option.some.inj (innermost.symm.trans here)
  obtain rfl : itsLabel = label := Option.some.inj (itsScope.symm.trans there)
  have same : function.frame = frame :=
    received.stands.chain.eq_of_mem_chainUpTo received.ordered
      received.occurs.nested.1.nodup_labels isIn.inside onWay bound.notGlobal
      notGlobal itsFrame made
  exact reads _ (same ▸ bound.receiver)

section Accounts

variable {after : Machine} {last : Log} {earlier : List Entry}

/-- A method that was bound is bound in all that follows. -/
theorem Leads.boundTo
    {before : Machine}
    {log : Log}
    (leads : Leads before log earlier after last)
    {function : Closure}
    {receiver : Object}
    (bound : Bound earlier function receiver) :
    BoundTo last after function receiver := by
  obtain ⟨entry, member, about⟩ := bound
  obtain ⟨sure, extended⟩ := leads.of_mem member
  unfold Entry.Sure at sure
  rw [about] at sure
  exact sure.extend extended

variable {fresh : Machine} {entry : Entry}

/-- A receiver that is read belongs to a method that was bound before. -/
theorem Entry.Follows.belongs
    (leads : Leads fresh [] earlier after last)
    (follows : entry.Follows after last)
    {use : Use}
    (about : entry.matter = .received use)
    (received : use.Received entry.log)
    (analysed : use.position.origin.resolved = true) :
    ∃ function receiver,
      Bound earlier function receiver ∧ use.IsIn entry.log function := by
  obtain ⟨label, frame, innermost, onWay, notGlobal, made, -⟩ :=
    received.finds analysed
  have holds : entry.log.HoldsReceiver frame :=
    ⟨notGlobal, label, made, Position.form_of_classScope? innermost⟩
  have heldBefore : last.HoldsReceiver frame := by
    rcases follows.frames frame holds with before | ⟨_, _, new, -⟩
    · exact before
    · rw [about] at new
      cases new
  rcases leads.listed heldBefore with
    ⟨-, _, impossible, -⟩ | ⟨told, member, function, receiver, isBound, rfl⟩
  · cases impossible
  have bound : Bound earlier function receiver := ⟨told, member, isBound⟩
  obtain ⟨itsLabel, itsScope, itsFrame⟩ :=
    ((leads.boundTo bound).extend follows.extended).scope
  obtain rfl : itsLabel = label := Option.some.inj (itsFrame.symm.trans made)
  exact ⟨function, receiver, bound, ⟨itsLabel, innermost, itsScope⟩, onWay⟩

/-- An entry that follows an account from an empty log keeps receivers. -/
theorem Entry.Follows.kept
    (leads : Leads fresh [] earlier after last)
    (follows : entry.Follows after last) :
    entry.Kept earlier := by
  have sure := follows.sure
  unfold Entry.Sure at sure
  unfold Entry.Kept
  have stillBound :
      ∀ function receiver,
        Bound earlier function receiver →
        BoundTo entry.log entry.machine function receiver :=
    fun function receiver bound =>
      (leads.boundTo bound).extend follows.extended
  cases about : entry.matter with
  | bound function receiver =>
      simp only [about] at sure ⊢
      exact sure
  | received use =>
      simp only [about] at sure ⊢
      obtain ⟨moment, received⟩ := sure
      intro analysed
      refine ⟨follows.belongs leads about received analysed,
        fun function receiver bound isIn => ?_⟩
      have boundTo := stillBound function receiver bound
      rw [moment] at boundTo
      exact received.reads analysed boundTo isIn
  | returned function value =>
      simp only [about] at sure ⊢
      intro receiver bound named
      have boundTo := stillBound function receiver bound
      rw [sure (by rw [boundTo.marked, named, beq_self_eq_true]),
        boundTo.receiverOf]
  | constructed members arguments before value =>
      simp only [about] at sure ⊢
      exact sure

end Accounts

/-- Receivers never change.  In every session, whatever its texts do and however
its steps end, watching changes nothing, no receiver is read that the account
does not tell of, and every entry keeps the receivers of the methods bound
before it. -/
theorem receivers_unchanged
    (natives : Bool)
    (steps : List SessionStep) :
    (∀ moment ∈ sessionMoments natives steps,
      moment.reply = moment.step.run moment.before ∧
        ∀ use : Use,
          use.form = .receiver →
          .used use ∈ moment.log →
          ∃ entry ∈ sessionAccount natives steps,
            entry.matter = .received use) ∧
      ∀ earlier entry later,
        sessionAccount natives steps = earlier ++ entry :: later →
        Entry.Kept earlier entry := by
  have steady := Steady.fresh natives steps
  obtain ⟨⟨after, last, leads⟩, told⟩ := steady.accounts rfl
  refine ⟨fun moment taken => ⟨?_, fun use isReceiver noted => ?_⟩,
    fun earlier entry later split => ?_⟩
  · obtain ⟨-, reply, -⟩ := steady.moments rfl moment taken
    exact reply
  · rcases told moment taken use isReceiver noted with impossible | told
    · cases impossible
    · exact told
  · have splitLeads :
        Leads (freshMachine natives) [] (earlier ++ entry :: later) after
          last :=
      split ▸ leads
    obtain ⟨machine, past, reaches, follows⟩ := splitLeads.split
    exact follows.kept reaches

/-- Three texts: a method that gives a function nested in it, next to a class with
a method of its own; a call of the method; and a call of that function. -/
def keptReceiver : List SessionStep :=
  [.eval 60
     (Text.utf8
       ("class A \x7b f() \x7b class B \x7b b() \x7b return this; \x7d \x7d" ++
        " fun g() \x7b return this; \x7d B().b(); return g; \x7d \x7d")),
   .eval 60 (Text.utf8 "var g = A().f();"),
   .eval 60 (Text.utf8 "g();")]

/-- Whether a step reads a receiver in the analysed tree with a number. -/
def Moment.readsReceiver
    (number : Nat)
    (moment : Moment) :
    Bool :=
  moment.account.any fun entry =>
    match entry.matter with
    | .received use =>
        use.position.origin.resolved && use.position.origin.number == number
    | _ =>
        false

/-- While the last text runs, a receiver in the first one is read and found. -/
theorem receivers_unchanged_keptReceiver :
    ∃ (moment : Moment) (use : Use) (receiver : Object),
      moment ∈ sessionMoments true keptReceiver ∧
        moment.number = 2 ∧
        use.position.origin.number = 0 ∧
        use.machine.read use.name use.distance =
          .done (.object receiver) use.machine := by
  have met :
      (sessionMoments true keptReceiver).any
        (fun moment => moment.number == 2 && moment.readsReceiver 0) = true := by
    decide +kernel
  obtain ⟨moment, taken, found⟩ := List.any_eq_true.mp met
  simp only [Bool.and_eq_true, beq_iff_eq] at found
  obtain ⟨entry, member, isReading⟩ := List.any_eq_true.mp found.2
  have told : entry ∈ sessionAccount true keptReceiver :=
    List.mem_flatMap.mpr ⟨moment, taken, member⟩
  obtain ⟨earlier, later, split⟩ := List.append_of_mem told
  have kept :=
    (receivers_unchanged true keptReceiver).2 earlier entry later split
  unfold Entry.Kept at kept
  cases about : entry.matter with
  | received use =>
      simp only [about, Bool.and_eq_true, beq_iff_eq] at kept isReading
      obtain ⟨⟨function, receiver, bound, isIn⟩, reads⟩ := kept isReading.1
      exact ⟨moment, use, receiver, taken, found.1, isReading.2,
        reads function receiver bound isIn⟩
  | bound | returned | constructed =>
      simp [about] at isReading

end Script.Lexical
