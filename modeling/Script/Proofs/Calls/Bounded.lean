import Script.Proofs.Calls.Limit
import Script.Proofs.Running.Returning
import Script.Proofs.Session.Sources

namespace Script

/-!
# Source texts under the bound on calls

A source text does under a bound on calls what it does without one, as long as no
more calls are under way at once than the bound allows.  The first call that is one
too many is refused at its closing parenthesis.
-/

namespace Calls

/-- The calls under way at any time, from a later time on. -/
theorem forall_prefix_cons
    (event : Event)
    (rest : List Event)
    (room : Int)
    (some : 0 ≤ room) :
    (∀ events, events <+: event :: rest → underWay events ≤ room) ↔
      ∀ events, events <+: rest → underWay events ≤ room - event.change := by
  constructor
  · intro within events isPrefix
    have bound :=
      within (event :: events) (List.cons_prefix_cons.mpr ⟨rfl, isPrefix⟩)
    rw [underWay] at bound
    omega
  · intro within events isPrefix
    rcases List.prefix_cons_iff.mp isPrefix with rfl | ⟨tail, rfl, inRest⟩
    · exact some
    · have bound := within tail inRest
      rw [underWay]
      omega

/-- No call is one too many when at no time too many calls are under way. -/
theorem excess?_eq_none_iff
    (room : Nat)
    (events : List Event) :
    excess? room events = none ↔
      ∀ earlier, earlier <+: events → underWay earlier ≤ room := by
  induction events generalizing room with
  | nil =>
      simp [excess?, underWay]
  | cons event rest inductionHypothesis =>
      rw [forall_prefix_cons event rest room (Int.natCast_nonneg room)]
      cases event with
      | began call =>
          cases room with
          | zero =>
              simp only [excess?, reduceCtorEq, false_iff]
              intro within
              have bound := within [] List.nil_prefix
              simp [underWay, Event.change] at bound
          | succ room =>
              simpa [excess?, Event.change] using inductionHypothesis room
      | ended =>
          simpa [excess?, Event.change] using inductionHypothesis (room + 1)

/-- The call that is one too many begins when there is room for no other. -/
theorem excess?_eq_some
    {room : Nat}
    {events : List Event}
    {call : Call}
    (found : excess? room events = some call) :
    ∃ earlier later,
      events = earlier ++ .began call :: later ∧
        (∀ events, events <+: earlier → underWay events ≤ room) ∧
        underWay earlier = room := by
  induction events generalizing room with
  | nil =>
      cases found
  | cons event rest inductionHypothesis =>
      cases event with
      | began first =>
          cases room with
          | zero =>
              cases found
              refine ⟨[], rest, rfl, ?_, rfl⟩
              simp [underWay]
          | succ room =>
              obtain ⟨earlier, later, rfl, within, full⟩ :=
                inductionHypothesis found
              refine ⟨.began first :: earlier, later, rfl, ?_, ?_⟩
              · rw [forall_prefix_cons _ _ _ (by omega)]
                simpa [Event.change] using within
              · rw [underWay, full, Event.change]
                omega
      | ended =>
          obtain ⟨earlier, later, rfl, within, full⟩ :=
            inductionHypothesis found
          refine ⟨.ended :: earlier, later, rfl, ?_, ?_⟩
          · rw [forall_prefix_cons _ _ _ (by omega)]
            simpa [Event.change] using within
          · rw [underWay, full, Event.change]
            omega

end Calls

namespace Machine

/-- Between source texts the frame is that of the global names, and no call is under
way. -/
theorem Reachable.rests
    {machine : Machine}
    (reachable : machine.Reachable) :
    machine.current = globals ∧ machine.depth = 0 := by
  induction reachable with
  | fresh natives callLimit =>
      cases natives <;> exact ⟨rfl, rfl⟩
  | @runSource machine _ fuel source inductionHypothesis =>
      have resumes := runSource_resumes fuel source machine
      rw [resumes.current, resumes.depth]
      exact inductionHypothesis
  | wait _ clock inductionHypothesis =>
      exact inductionHypothesis

open Calls

/-- The bound on calls changes nothing but this.  Whatever machine source texts have
led to, and however long a text runs on it without a bound on calls: if at no time
more calls are under way than the bound allows, the text ends in the same way with
the bound, and the machine behind it is the same but for the bound.  Otherwise there
is a first call that begins when as many calls as allowed are under way, its callee
being callable with as many arguments as there are, and the bounded run ends with a
fault at the closing parenthesis of that call, on the machine on which the call
began. -/
theorem runSource_bounded
    {machine : Machine}
    (reachable : machine.Reachable)
    {limit : Nat}
    (bounded : machine.callLimit = some limit)
    {source : Text}
    (parsed : (Program.ofSource source).problems = [])
    (analysed :
      (Resolution.ofStatements (Program.ofSource source).statements).problems =
        [])
    (fuel : Nat) :
    let free := machine.unlimited
    let traced :=
      traceProgram fuel
        (Resolution.ofStatements (Program.ofSource source).statements).statements
        free
    free.runSource fuel source = (traced.outcome.split free).2 ∧
      ((∀ events, events <+: traced.events → underWay events ≤ limit) →
        machine.runSource fuel source =
          ((free.runSource fuel source).1,
            (free.runSource fuel source).2.limited limit)) ∧
      ((∃ events, events <+: traced.events ∧ limit < underWay events) →
        ∃ earlier call later fault,
          traced.events = earlier ++ .began call :: later ∧
            (∀ events, events <+: earlier → underWay events ≤ limit) ∧
            underWay earlier = limit ∧
            call.machine.callee call.callee call.arguments.length =
              .ok call.callable ∧
            fault.token = call.closing ∧
            fault.message = Text.utf8 "Stack overflow." ∧
            machine.runSource fuel source =
              (.failed (.stopped fault),
                { call.machine with
                  callLimit := some limit
                  current := globals
                  depth := 0 })) := by
  intro free traced
  have accepts := Program.accepts_of_problems parsed
  have tells :=
    program_tells limit fuel
      (Resolution.ofStatements (Program.ofSource source).statements).statements
      free rfl
  obtain ⟨current, depth⟩ := reachable.rests
  have same : free.limited limit = machine := by
    rw [limited, ← bounded]
    rfl
  have runs (start : Machine) := runSource_of_accepts accepts analysed fuel start
  have ran : free.runSource fuel source = (traced.outcome.split free).2 := by
    rw [runs, runTree, tells.outcome]
    rfl
  have ranBounded :
      machine.runSource fuel source =
        ((traced.limited limit free).split machine).2 := by
    rw [runs, runTree, ← tells.limited, same]
    rfl
  rw [Traced.limited, show free.depth = 0 from depth, Nat.sub_zero]
    at ranBounded
  refine ⟨ran, ?_, ?_⟩
  · intro within
    rw [ranBounded, ran, (excess?_eq_none_iff limit _).mpr within]
    cases traced.outcome with
    | done | stopped | broken =>
        rfl
    | exhausted =>
        exact congrArg _ same.symm
  · rintro ⟨events, isPrefix, tooMany⟩
    cases found : excess? limit traced.events with
    | none =>
        have within := (excess?_eq_none_iff limit _).mp found events isPrefix
        omega
    | some call =>
        obtain ⟨earlier, later, split, within, full⟩ := excess?_eq_some found
        refine ⟨earlier, call, later,
          { token := call.closing, cause := .tooManyCalls }, split, within,
          full, call.allowed, rfl, rfl, ?_⟩
        have rests : free.current = globals ∧ free.depth = 0 :=
          ⟨current, depth⟩
        rw [ranBounded, found, refuse, leave, rests.1, rests.2]
        rfl

/-- A text with two calls under way at once. -/
def nestedText : Text :=
  Text.utf8 "print str(str(nil));"

/-- A text whose calls never end. -/
def endlessText : Text :=
  Text.utf8 "fun f() \x7b print nil; f(); \x7d f();"

/-- The usual bound does not change the first text.  A bound of two calls stops the
second one when it has printed two lines. -/
theorem runSource_bounded_endlessText :
    standard.callLimit = some 3000 ∧
      standard.runSource 20 nestedText =
        ((standard.unlimited.runSource 20 nestedText).1,
          (standard.unlimited.runSource 20 nestedText).2.limited 3000) ∧
      ∃ fault after,
        (standard.limited 2).runSource 40 endlessText =
            (.failed (.stopped fault), after) ∧
          fault.message = Text.utf8 "Stack overflow." ∧
          after.output = Text.utf8 "nil\nnil\n" := by
  have nested :
      (Program.ofSource nestedText).problems = [] ∧
        (Resolution.ofStatements
            (Program.ofSource nestedText).statements).problems = [] :=
    ⟨List.isEmpty_iff.mp (by decide +kernel),
      List.isEmpty_iff.mp (by decide +kernel)⟩
  have endless :
      (Program.ofSource endlessText).problems = [] ∧
        (Resolution.ofStatements
            (Program.ofSource endlessText).statements).problems = [] :=
    ⟨List.isEmpty_iff.mp (by decide +kernel),
      List.isEmpty_iff.mp (by decide +kernel)⟩
  have usual : standard.callLimit = some 3000 := rfl
  have reachable : Reachable (standard.limited 2) := .fresh true (some 2)
  refine ⟨usual, ?_, ?_⟩
  · obtain ⟨-, within, -⟩ :=
      runSource_bounded .standard usual nested.1 nested.2 20
    refine within ((excess?_eq_none_iff 3000 _).mp ?_)
    exact Option.isNone_iff_eq_none.mp (by decide +kernel)
  · obtain ⟨-, -, beyond⟩ :=
      runSource_bounded reachable rfl endless.1 endless.2 40
    have tooMany :
        ((2 : Nat) : Int) <
          underWay
            ((traceProgram 40
              (Resolution.ofStatements
                (Program.ofSource endlessText).statements).statements
              (standard.limited 2).unlimited).events.take 3) := by
      decide +kernel
    obtain ⟨_, call, _, fault, -, -, -, -, -, message, ran⟩ :=
      beyond ⟨_, List.take_prefix 3 _, tooMany⟩
    have written :
        (((standard.limited 2).runSource 40 endlessText).2.output ==
          Text.utf8 "nil\nnil\n") = true := by
      decide +kernel
    refine ⟨fault, _, ran, message, ?_⟩
    rw [ran] at written
    exact eq_of_beq written

end Machine

end Script
