import Script.Proofs.Lexical.Access
import Script.Proofs.Receiver.Account

namespace Script.Lexical

/-!
# Accounts that can be trusted

`Leads` says of an account that each entry is a later moment of the same run than
the one before, that what it says is true at its moment, and that entries tell of
every frame that is made for a receiver and of every receiver that is read.
`Watched.Runs` adds this to the invariant of watched runs, with one rule for each
way in which evaluation is put together.
-/

/-- The scope for the receiver of the innermost class around a position. -/
def Position.classScope? (position : Position) : Option ScopeLabel :=
  (position.levels.map Level.label).find? (·.form = .receiver)

/-- A function is a method that was bound to a receiver: its frame was made for the
class that the method stands in, and has the receiver. -/
structure BoundTo
    (log : Log)
    (machine : Machine)
    (function : Closure)
    (receiver : Object) :
    Prop where
  notGlobal : function.frame ≠ Machine.globals
  home :
    ∃ position label,
      log.homeOf function.identity = some position ∧
        position.classScope? = some label ∧
        log.labelOf function.frame = some label ∧
        label.form = .receiver
  receiver :
    machine.frames.local? function.frame Position.receiverName =
      some (.object receiver)
  marked : function.isInitializer = (function.name == Text.utf8 "init")

namespace BoundTo

variable {log longer : Log} {machine after : Machine} {function : Closure}
  {receiver : Object}

theorem holdsReceiver (bound : BoundTo log machine function receiver) :
    log.HoldsReceiver function.frame := by
  obtain ⟨position, label, -, -, made, isReceiver⟩ := bound.home
  exact ⟨bound.notGlobal, label, made, isReceiver⟩

/-- Nothing that happens later unbinds a method or binds it to something else. -/
theorem extend
    (bound : BoundTo log machine function receiver)
    (extended : Extends machine log after longer) :
    BoundTo longer after function receiver where
  notGlobal := bound.notGlobal
  home := by
    obtain ⟨position, label, home, scope, made, isReceiver⟩ := bound.home
    exact ⟨position, label, extended.homes _ _ home, scope,
      extended.labels _ _ made, isReceiver⟩
  receiver := by
    rw [extended.receivers _ _ bound.holdsReceiver, bound.receiver]
  marked := bound.marked

/-- An initializer that was bound gives its receiver. -/
theorem receiverOf (bound : BoundTo log machine function receiver) :
    machine.receiverOf function = .object receiver := by
  unfold Machine.receiverOf
  rw [show Text.utf8 "this" = Position.receiverName from rfl, bound.receiver,
    Option.getD_some]

end BoundTo

/-- Binding a method binds it to its receiver. -/
theorem bindMethod_boundTo
    {log : Log}
    {machine : Machine}
    (sound : Sound log machine)
    {method : Closure}
    (homed : MethodHomed log machine method)
    (receiver : Object) :
    BoundTo (log.bindMethod machine method)
      (machine.bindMethod method receiver).2
      (machine.bindMethod method receiver).1 receiver := by
  obtain ⟨marked, position, level, outer, home, -, -, levels, -, isReceiver,
    -⟩ := homed
  have homeShape : log.home method = position := log.home_eq home
  have positive := sound.ordered.positive
  unfold Log.bindMethod
  rw [homeShape]
  refine ⟨?_, ⟨position, level.label, ?_, ?_, ?_, isReceiver⟩, ?_, marked⟩
  · simp only [Machine.bindMethod, Machine.globals]
    omega
  · simp only [Machine.bindMethod, Log.homeOf_opened]
    rw [Log.homeOf_declared, if_pos rfl]
  · simp [Position.classScope?, levels, isReceiver]
  · simp only [Machine.bindMethod]
    rw [Log.labelOf_opened, if_pos rfl, Log.innermost, levels]
  · simp only [Machine.bindMethod]
    rw [Frames.local?_push, if_pos rfl]
    rfl

/-- Binding a method makes a frame for a receiver, and no other one. -/
theorem holdsReceiver_bindMethod
    {log : Log}
    {machine : Machine}
    {method : Closure}
    {frame : Nat}
    (holds : (log.bindMethod machine method).HoldsReceiver frame) :
    log.HoldsReceiver frame ∨ machine.frames.size = frame := by
  obtain ⟨notGlobal, label, made, isReceiver⟩ := holds
  unfold Log.bindMethod at made
  rw [Log.labelOf_opened] at made
  split at made
  · rename_i same
    exact .inr same
  · exact .inl ⟨notGlobal, label, made, isReceiver⟩

/-- Binding a method reads no receiver. -/
theorem used_bindMethod
    {log : Log}
    {machine : Machine}
    {method : Closure}
    {use : Use}
    (noted : .used use ∈ log.bindMethod machine method) :
    .used use ∈ log :=
  List.mem_of_ne_of_mem (by simp) (List.mem_of_ne_of_mem (by simp) noted)

/-- What holds when a receiver is read. -/
structure Use.Received
    (log : Log)
    (use : Use) :
    Prop where
  form : use.form = .receiver
  fits : Fits use.position (.expr (.receiver use.name use.distance))
  occurs : Occurs use.position (.expr (.receiver use.name use.distance))
  stands : Lexical.Stands log use.machine use.position
  ordered : use.machine.frames.Ordered

/-- What holds when a class has made an object: it is an instance of the class,
and equal to nothing that was there before. -/
structure Constructs
    (members : ClassValue)
    (arguments : List Value)
    (before : Machine)
    (value : Value) :
    Prop where
  machine : WholeMachine before
  arguments : ∀ argument ∈ arguments, WholeIn before argument
  instance_new :
    ∃ object,
      value = .object object ∧
        object.members = members ∧
        ∀ old,
          WholeIn before old →
          value.equals old = false ∧ old.equals value = false

/-- What an entry says is true. -/
def Entry.Sure (entry : Entry) : Prop :=
  match entry.matter with
  | .bound function receiver =>
      BoundTo entry.log entry.machine function receiver
  | .received use =>
      entry.machine = use.machine ∧ use.Received entry.log
  | .returned function value =>
      function.isInitializer = true →
      value = entry.machine.receiverOf function
  | .constructed members arguments before value =>
      Constructs members arguments before value

/-- Events that make a frame for a receiver or read one. -/
def Event.isOfReceiver : Event → Bool
  | .opened _ label =>
      label.form == .receiver
  | .used use =>
      use.form == .receiver
  | _ =>
      false

/-- Nothing about receivers is new in a longer log: no frame was made for one and
none was read. -/
structure Log.SameReceivers
    (log longer : Log) :
    Prop where
  frames : ∀ frame, longer.HoldsReceiver frame → log.HoldsReceiver frame
  uses :
    ∀ use : Use, use.form = .receiver → .used use ∈ longer → .used use ∈ log

namespace Log.SameReceivers

variable {log longer longest : Log}

theorem refl (log : Log) : log.SameReceivers log where
  frames _ holds := holds
  uses _ _ noted := noted

theorem trans
    (first : log.SameReceivers longer)
    (second : longer.SameReceivers longest) :
    log.SameReceivers longest where
  frames frame holds := first.frames frame (second.frames frame holds)
  uses use isReceiver noted :=
    first.uses use isReceiver (second.uses use isReceiver noted)

/-- An event that is not about a receiver. -/
theorem note
    (log : Log)
    {event : Event}
    (other : event.isOfReceiver = false) :
    log.SameReceivers (event :: log) where
  frames frame := by
    rintro ⟨notGlobal, label, made, isReceiver⟩
    refine ⟨notGlobal, label, ?_, isReceiver⟩
    cases event with
    | opened opened found =>
        rw [labelOf_opened] at made
        split at made
        · cases made
          simp [Event.isOfReceiver, isReceiver] at other
        · exact made
    | began | declared | entered | asked | used =>
        exact made
  uses use isReceiver noted := by
    rcases List.mem_cons.mp noted with rfl | noted
    · simp [Event.isOfReceiver, isReceiver] at other
    · exact noted

end Log.SameReceivers

/-- A later moment of the same run with nothing new about receivers. -/
structure Still
    (before : Machine)
    (log : Log)
    (after : Machine)
    (longer : Log) :
    Prop where
  extended : Extends before log after longer
  same : log.SameReceivers longer

/-- An entry that comes next and is true, and says all that is new about
receivers. -/
structure Entry.Follows
    (before : Machine)
    (log : Log)
    (entry : Entry) :
    Prop where
  extended : Extends before log entry.machine entry.log
  sure : entry.Sure
  frames :
    ∀ frame,
      entry.log.HoldsReceiver frame →
      log.HoldsReceiver frame ∨
        ∃ function receiver,
          entry.matter = .bound function receiver ∧ function.frame = frame
  uses :
    ∀ use : Use,
      use.form = .receiver →
      .used use ∈ entry.log →
      .used use ∈ log ∨ entry.matter = .received use

/-- The entries follow each other from one moment of a run to another one. -/
inductive Leads : Machine → Log → List Entry → Machine → Log → Prop where
  | still
      {before after : Machine}
      {log longer : Log} :
      Still before log after longer →
      Leads before log [] after longer
  | next
      {before after : Machine}
      {log longer : Log}
      {entry : Entry}
      {rest : List Entry} :
      entry.Follows before log →
      Leads entry.machine entry.log rest after longer →
      Leads before log (entry :: rest) after longer

theorem Still.refl
    (machine : Machine)
    (log : Log) :
    Still machine log machine log :=
  ⟨.refl machine log, .refl log⟩

theorem Still.trans
    {first second third : Machine}
    {log longer longest : Log}
    (earlier : Still first log second longer)
    (later : Still second longer third longest) :
    Still first log third longest :=
  ⟨earlier.extended.trans later.extended, earlier.same.trans later.same⟩

theorem Entry.Follows.after
    {before middle : Machine}
    {log longer : Log}
    {entry : Entry}
    (still : Still before log middle longer)
    (follows : entry.Follows middle longer) :
    entry.Follows before log where
  extended := still.extended.trans follows.extended
  sure := follows.sure
  frames frame holds :=
    (follows.frames frame holds).imp_left (still.same.frames frame)
  uses use isReceiver noted :=
    (follows.uses use isReceiver noted).imp_left
      (still.same.uses use isReceiver)

namespace Leads

variable {before middle after : Machine} {log longer longest : Log}
  {entries further : List Entry}

theorem refl
    (machine : Machine)
    (log : Log) :
    Leads machine log [] machine log :=
  .still (.refl machine log)

/-- An account may begin earlier. -/
theorem after_still
    (still : Still before log middle longer)
    (leads : Leads middle longer entries after longest) :
    Leads before log entries after longest := by
  cases leads with
  | still later =>
      exact .still (still.trans later)
  | next follows rest =>
      exact .next (follows.after still) rest

theorem append
    (first : Leads before log entries middle longer)
    (second : Leads middle longer further after longest) :
    Leads before log (entries ++ further) after longest := by
  induction first with
  | still still =>
      exact second.after_still still
  | next follows _ inductionHypothesis =>
      exact .next follows (inductionHypothesis second)

/-- An account may end later. -/
theorem before_still
    (leads : Leads before log entries middle longer)
    (still : Still middle longer after longest) :
    Leads before log entries after longest := by
  rw [← List.append_nil entries]
  exact leads.append (.still still)

theorem extended (leads : Leads before log entries after longer) :
    Extends before log after longer := by
  induction leads with
  | still still =>
      exact still.extended
  | next follows _ inductionHypothesis =>
      exact follows.extended.trans inductionHypothesis

/-- Every entry is true at a moment of the run. -/
theorem of_mem
    (leads : Leads before log entries after longer)
    {entry : Entry}
    (member : entry ∈ entries) :
    entry.Sure ∧ Extends entry.machine entry.log after longer := by
  induction leads with
  | still still =>
      cases member
  | next follows rest inductionHypothesis =>
      rcases List.mem_cons.mp member with rfl | member
      · exact ⟨follows.sure, rest.extended⟩
      · exact inductionHypothesis member

/-- Every frame for a receiver that is new is in an entry. -/
theorem listed
    (leads : Leads before log entries after longer)
    {frame : Nat}
    (holds : longer.HoldsReceiver frame) :
    log.HoldsReceiver frame ∨
      ∃ entry ∈ entries, ∃ function receiver,
        entry.matter = .bound function receiver ∧ function.frame = frame := by
  induction leads with
  | still still =>
      exact .inl (still.same.frames frame holds)
  | @next _ _ _ _ entry _ follows _ inductionHypothesis =>
      rcases inductionHypothesis holds with here | ⟨found, member, bound⟩
      · exact (follows.frames frame here).imp_right fun bound =>
          ⟨entry, List.mem_cons_self, bound⟩
      · exact .inr ⟨found, List.mem_cons_of_mem _ member, bound⟩

/-- Every receiver that is read has an entry. -/
theorem told
    (leads : Leads before log entries after longer)
    {use : Use}
    (isReceiver : use.form = .receiver)
    (noted : .used use ∈ longer) :
    .used use ∈ log ∨ ∃ entry ∈ entries, entry.matter = .received use := by
  induction leads with
  | still still =>
      exact .inl (still.same.uses use isReceiver noted)
  | @next _ _ _ _ entry _ follows _ inductionHypothesis =>
      rcases inductionHypothesis noted with here | ⟨found, member, received⟩
      · exact (follows.uses use isReceiver here).imp_right fun received =>
          ⟨entry, List.mem_cons_self, received⟩
      · exact .inr ⟨found, List.mem_cons_of_mem _ member, received⟩

/-- The account up to an entry. -/
theorem split
    {earlier later : List Entry}
    {entry : Entry}
    (leads : Leads before log (earlier ++ entry :: later) after longer) :
    ∃ machine past,
      Leads before log earlier machine past ∧ entry.Follows machine past := by
  induction earlier generalizing before log with
  | nil =>
      cases leads with
      | next follows _ =>
          exact ⟨before, log, .refl before log, follows⟩
  | cons first rest inductionHypothesis =>
      cases leads with
      | next follows leads =>
          obtain ⟨machine, past, reaches, here⟩ := inductionHypothesis leads
          exact ⟨machine, past, .next follows reaches, here⟩

end Leads

/-- The entries lead to where a watched outcome ends, if that is known. -/
def Watched.Leads
    (before : Machine)
    (log : Log)
    (entries : List Entry)
    (watched : Watched α) :
    Prop :=
  match watched.outcome with
  | .done _ after =>
      Lexical.Leads before log entries after watched.log
  | .stopped _ after =>
      Lexical.Leads before log entries after watched.log
  | .broken _ _ =>
      False
  | .exhausted =>
      ∃ after longer,
        Lexical.Leads before log entries after longer ∧
          longer.SameReceivers watched.log

/-- The account of a watched outcome may begin earlier. -/
theorem Watched.Leads.after_still
    {before middle : Machine}
    {log longer : Log}
    {entries : List Entry}
    {watched : Watched α}
    (still : Still before log middle longer)
    (leads : watched.Leads middle longer entries) :
    watched.Leads before log entries := by
  cases watched with
  | mk outcome last =>
      cases outcome with
      | done | stopped =>
          exact Lexical.Leads.after_still still leads
      | broken =>
          exact leads
      | exhausted =>
          obtain ⟨after, longest, leads, same⟩ := leads
          exact ⟨after, longest, leads.after_still still, same⟩

/-- Changing neither frames nor fields at the end changes no account. -/
theorem Watched.Leads.mapMachine
    {before : Machine}
    {log : Log}
    {entries : List Entry}
    {watched : Watched α}
    {change : Machine → Machine}
    (frames : ∀ after, (change after).frames = after.frames)
    (fields : ∀ after, (change after).fields = after.fields)
    (leads : watched.Leads before log entries) :
    (watched.mapMachine change).Leads before log entries := by
  have still (after : Machine) (last : Log) :
      Still after last (change after) last :=
    ⟨.same last (frames after) (fields after), .refl last⟩
  cases watched with
  | mk outcome last =>
      cases outcome with
      | done value after | stopped fault after =>
          exact Lexical.Leads.before_still leads (still after last)
      | broken | exhausted =>
          exact leads

/-- A watched outcome keeps the invariant and has a true account. -/
structure Watched.Runs
    (before : Machine)
    (log : Log)
    (condition : α → Machine → Log → Prop)
    (entries : List Entry)
    (watched : Watched α) :
    Prop where
  keeps : watched.Keeps before log condition
  leads : watched.Leads before log entries

namespace Watched.Runs

variable {before middle : Machine} {log longer : Log} {entries : List Entry}

/-- What keeps the invariant and does nothing with receivers has nothing to
account for. -/
theorem quiet
    {condition : α → Machine → Log → Prop}
    {watched : Watched α}
    (keeps : watched.Keeps before log condition)
    (same : log.SameReceivers watched.log) :
    watched.Runs before log condition [] := by
  refine ⟨keeps, ?_⟩
  cases watched with
  | mk outcome last =>
      cases outcome with
      | done value after =>
          obtain ⟨goes, -⟩ := keeps
          exact .still ⟨goes.extended, same⟩
      | stopped fault after =>
          obtain ⟨goes, -⟩ := keeps
          exact .still ⟨goes.extended, same⟩
      | broken =>
          exact keeps.elim
      | exhausted =>
          exact ⟨before, log, .refl before log, same⟩

/-- A bound that is too small leaves nothing to account for. -/
theorem exhausted
    {condition : α → Machine → Log → Prop}
    (sound : Sound log before) :
    ({ outcome := .exhausted, log } : Watched α).Runs before log condition
      [] :=
  .quiet ⟨sound.right, fun _ member => member⟩ (.refl log)

theorem weaken
    {condition weaker : α → Machine → Log → Prop}
    {watched : Watched α}
    (runs : watched.Runs before log condition entries)
    (implies :
      ∀ value after last,
        Goes before log after last →
        after.current = before.current →
        condition value after last →
        weaker value after last) :
    watched.Runs before log weaker entries :=
  ⟨runs.keeps.weaken implies, runs.leads⟩

/-- A piece that follows a change without an entry. -/
theorem after
    {condition : α → Machine → Log → Prop}
    {watched : Watched α}
    (goes : Goes before log middle longer)
    (current : middle.current = before.current)
    (same : log.SameReceivers longer)
    (runs : watched.Runs middle longer condition entries) :
    watched.Runs before log condition entries :=
  ⟨runs.keeps.after goes current,
    Watched.Leads.after_still ⟨goes.extended, same⟩ runs.leads⟩

/-- A piece that follows an entry. -/
theorem after_entry
    {condition : α → Machine → Log → Prop}
    {watched : Watched α}
    {entry : Entry}
    (goes : Goes before log entry.machine entry.log)
    (current : entry.machine.current = before.current)
    (follows : entry.Follows before log)
    (runs : watched.Runs entry.machine entry.log condition entries) :
    watched.Runs before log condition (entry :: entries) := by
  refine ⟨runs.keeps.after goes current, ?_⟩
  have leads := runs.leads
  cases watched with
  | mk outcome last =>
      cases outcome with
      | done | stopped =>
          exact .next follows leads
      | broken =>
          exact leads
      | exhausted =>
          obtain ⟨after, longest, leads, rest⟩ := leads
          exact ⟨after, longest, .next follows leads, rest⟩

theorem bind
    {condition : α → Machine → Log → Prop}
    {result : β → Machine → Log → Prop}
    {watched : Watched α}
    {next : α → Machine → Log → Watched β}
    {further : α → Machine → Log → List Entry}
    (first : watched.Runs before log condition entries)
    (second :
      ∀ value after last,
        Goes before log after last →
        after.current = before.current →
        condition value after last →
        (next value after last).Runs after last result
          (further value after last)) :
    (watched.bind next).Runs before log result
      (entries ++ watched.account further) := by
  refine ⟨first.keeps.bind fun value after last goes current holds =>
    (second value after last goes current holds).keeps, ?_⟩
  obtain ⟨keeps, leads⟩ := first
  cases watched with
  | mk outcome last =>
      cases outcome with
      | done value after =>
          obtain ⟨goes, current, holds⟩ := keeps
          have later := (second value after last goes current holds).leads
          show (next value after last).Leads before log
            (entries ++ further value after last)
          revert later
          cases next value after last with
          | mk outcome longest =>
              intro later
              cases outcome with
              | done | stopped =>
                  exact Lexical.Leads.append leads later
              | broken =>
                  exact later
              | exhausted =>
                  obtain ⟨final, longest, later, rest⟩ := later
                  exact ⟨final, longest,
                    Lexical.Leads.append leads later, rest⟩
      | stopped | exhausted =>
          show Watched.Leads before log (entries ++ []) _
          rw [List.append_nil]
          exact leads
      | broken =>
          exact leads

/-- A piece that goes on with nothing to account for. -/
theorem bind_quiet
    {condition : α → Machine → Log → Prop}
    {result : β → Machine → Log → Prop}
    {watched : Watched α}
    {next : α → Machine → Log → Watched β}
    (first : watched.Runs before log condition entries)
    (second :
      ∀ value after last,
        Goes before log after last →
        after.current = before.current →
        condition value after last →
        (next value after last).Runs after last result []) :
    (watched.bind next).Runs before log result entries := by
  have runs := first.bind second
  have nothing :
      watched.account (fun _ _ _ => ([] : List Entry)) = [] := by
    cases watched with
    | mk outcome last =>
        cases outcome <;> rfl
  rwa [nothing, List.append_nil] at runs

/-- A piece that ends with an entry about its value. -/
theorem then_entry
    {condition : α → Machine → Log → Prop}
    {watched : Watched α}
    (runs : watched.Runs before log condition entries)
    (matter : α → Matter)
    (sure :
      ∀ value after last,
        condition value after last →
        Entry.Sure { matter := matter value, machine := after, log := last }) :
    watched.Runs before log condition
      (entries ++ watched.account fun value after last =>
        [{ matter := matter value, machine := after, log := last }]) := by
  obtain ⟨keeps, leads⟩ := runs
  refine ⟨keeps, ?_⟩
  cases watched with
  | mk outcome last =>
      cases outcome with
      | done value after =>
          obtain ⟨-, -, holds⟩ := keeps
          exact Lexical.Leads.append leads
            (.next
              ⟨.refl after last, sure value after last holds,
                fun _ holds => .inl holds, fun _ _ noted => .inl noted⟩
              (.refl after last))
      | stopped | exhausted =>
          show Watched.Leads before log (entries ++ []) _
          rw [List.append_nil]
          exact leads
      | broken =>
          exact leads

/-- A piece of program in a new frame, which is not for a receiver. -/
theorem newFrame
    {condition : α → Machine → Log → Prop}
    {machine : Machine}
    {parent : Nat}
    {bindings : Bindings}
    {position : Position}
    {form : ScopeForm}
    {names : List Text}
    {body : Machine → Log → Watched α}
    {account : Machine → Log → List Entry}
    (sound : Sound log machine)
    (ordinary : form ≠ .receiver)
    (opens : Opens log machine parent bindings position names)
    (inside :
      ∀ inner last,
        Sound last inner →
        Stands last inner (position.enter form names) →
        (body inner last).Runs inner last condition (account inner last))
    (blind :
      ∀ value after last current,
        condition value after last →
        condition value { after with current } last) :
    let label := Log.innermost (position.enter form names)
    (watchNewFrame machine log parent bindings label body).Runs machine log
      condition
      (accountNewFrame machine log parent bindings label account) := by
  intro label
  have keeps :=
    Watched.Keeps.newFrame sound opens
      (fun inner last sound stands => (inside inner last sound stands).keeps)
      blind
  obtain ⟨goes, stands⟩ := opens.enter sound form
  have still :
      Still machine log
        { machine with
          frames := machine.frames.push (some parent) bindings
          current := machine.frames.size }
        (.opened machine.frames.size label :: log) :=
    ⟨goes.extended, .note log (by
      simpa [Event.isOfReceiver, label, Log.innermost, Position.enter] using
        ordinary)⟩
  have leads := (inside _ _ goes.sound stands).leads
  exact ⟨keeps,
    (leads.after_still still).mapMachine (fun _ => rfl) fun _ => rfl⟩

theorem duringCall
    {condition : α → Machine → Log → Prop}
    {call : Machine → Log → Watched α}
    {account : Machine → Log → List Entry}
    (sound : Sound log before)
    (inside :
      ∀ inner,
        Goes before log inner log →
        inner.current = before.current →
        (call inner log).Runs inner log condition (account inner log))
    (blind :
      ∀ value after last depth,
        condition value after last →
        condition value { after with depth } last) :
    (watchDuringCall before log call).Runs before log condition
      (account { before with depth := before.depth + 1 } log) := by
  have keeps :=
    Watched.Keeps.duringCall sound
      (fun inner goes current => (inside inner goes current).keeps) blind
  have goes :
      Goes before log { before with depth := before.depth + 1 } log :=
    .same sound rfl rfl le_rfl
  have still :
      Still before log { before with depth := before.depth + 1 } log :=
    ⟨goes.extended, .refl log⟩
  have leads := (inside _ goes rfl).leads
  exact ⟨keeps,
    (leads.after_still still).mapMachine (fun _ => rfl) fun _ => rfl⟩

end Watched.Runs

section Entries

variable {log : Log} {machine : Machine}

/-- The account of a receiver that is read is true. -/
theorem read_runs
    (sound : Sound log machine)
    (use : Use)
    (right : use.Right log)
    (received : use.Received log)
    (moment : use.machine = machine) :
    ({ outcome := machine.read use.name use.distance
       log := .used use :: log } : Watched Value).Runs machine log GoodValue
      [.reading use log] := by
  have keeps := read_keeps sound use right moment
  subst moment
  have noted :=
    Goes.note sound (show Log.isQuiet (.used use) = true from rfl) right
  have receivedNow : use.Received (.used use :: log) :=
    { received with stands := received.stands.extend noted.extended rfl }
  have follows : (Entry.reading use log).Follows use.machine log := by
    refine ⟨noted.extended, ⟨rfl, receivedNow⟩, fun _ holds => .inl holds,
      fun other _ member => ?_⟩
    rcases List.mem_cons.mp member with same | member
    · cases same
      exact .inr rfl
    · exact .inl member
  have leads :
      Leads use.machine log [.reading use log] use.machine
        (.used use :: log) :=
    .next follows (.refl _ _)
  refine ⟨keeps, ?_⟩
  unfold Machine.read Machine.readGlobal at keeps ⊢
  cases shape : use.distance with
  | none =>
      dsimp only
      split <;> exact leads
  | some distance =>
      simp only [shape] at keeps
      dsimp only
      split
      · exact leads
      · rename_i missing
        simp only [missing] at keeps
        exact keeps.elim

/-- Binding a method tells of the frame that it makes. -/
theorem binding_follows
    (sound : Sound log machine)
    {method : Closure}
    (homed : MethodHomed log machine method)
    {receiver : Object}
    (good : Good log machine (.object receiver)) :
    (Entry.binding method receiver machine log).Follows machine log where
  extended := (bindMethod_goes sound homed good).1.extended
  sure := bindMethod_boundTo sound homed receiver
  frames _ holds :=
    (holdsReceiver_bindMethod holds).imp_right fun same => ⟨_, _, rfl, same⟩
  uses _ _ noted := .inl (used_bindMethod noted)

/-- The account of reading a property is true. -/
theorem getProperty_runs
    (sound : Sound log machine)
    {object : Object}
    (good : Good log machine (.object object))
    (name : Token) :
    ({ outcome := machine.getProperty object name
       log := log.getProperty machine object name.lexeme } :
      Watched Value).Runs machine log GoodValue
      (accountProperty object name.lexeme machine log) := by
  have keeps := getProperty_keeps sound good name
  unfold Machine.getProperty Log.getProperty at keeps ⊢
  unfold accountProperty
  cases stored :
      machine.fields[object.identity]?.bind (·.lookup name.lexeme) with
  | some value =>
      simp only [stored] at keeps
      exact .quiet keeps (.refl _)
  | none =>
      cases known : object.members.method? name.lexeme with
      | none =>
          simp only [stored, known] at keeps
          exact .quiet keeps (.refl _)
      | some method =>
          have homed := good.2.method known
          obtain ⟨goes, atHome⟩ := bindMethod_goes sound homed good
          exact .after_entry goes rfl (binding_follows sound homed good)
            (.quiet ⟨.refl goes.sound, rfl, atHome⟩ (.refl _))

/-- An object that a class makes is equal to nothing that was there before. -/
theorem makeObject_constructs
    (sound : Sound log machine)
    (members : ClassValue)
    {arguments : List Value}
    (good : ∀ argument ∈ arguments, Good log machine argument) :
    Constructs members arguments machine
      (.object (machine.makeObject members).1) where
  machine := sound.whole
  arguments argument member := (good argument member).whole sound.ordered
  instance_new := by
    refine ⟨_, rfl, rfl, fun old whole => ?_⟩
    cases old with
    | object object =>
        have differs : object.identity ≠ machine.fields.size :=
          Nat.ne_of_lt whole.1
        simp [Value.equals, Machine.makeObject, differs, differs.symm]
    | nil | bool | number | text | native | function | classValue =>
        exact ⟨rfl, rfl⟩

/-- Methods in a row are declared without anything new about receivers. -/
theorem declareMethods_same
    (identity : Nat)
    (position : Position)
    (log : Log)
    (methods : List FunctionDecl) :
    log.SameReceivers (Log.declareMethods identity position log methods) := by
  induction methods generalizing identity position log with
  | nil =>
      exact .refl log
  | cons first rest inductionHypothesis =>
      have noted :
          log.SameReceivers (.declared identity position :: log) :=
        .note log rfl
      exact noted.trans (inductionHypothesis _ _ _)

end Entries

end Script.Lexical
