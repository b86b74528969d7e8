import Script.Proofs.Lexical.Operations

namespace Script.Lexical

/-!
# Outcomes that keep the invariant

`Watched.Keeps` says of a watched outcome that it is not broken, that the machine
behind it is sound and has the current frame it had before, and that its fault,
if it has one, is of a kind that may happen.  The lemmas about `bind`, new frames
and calls put such statements together the way evaluation is put together.
-/

/-- What holds of every fault: its operator is known, and an undefined variable
is the one that was used last, without a distance. -/
structure FaultRight
    (log : Log)
    (fault : Fault) :
    Prop where
  knownUnary : fault.cause ≠ .unknownUnary
  knownBinary : fault.cause ≠ .unknownBinary
  undefined :
    fault.cause = .undefinedVariable →
    ∃ use earlier,
      log = .used use :: earlier ∧
        use.name = fault.token ∧
        use.distance = none

/-- A watched outcome keeps the invariant.  It is never broken, and what has a
value satisfies a condition on the value, the machine and the log. -/
def Watched.Keeps
    (before : Machine)
    (log : Log)
    (condition : α → Machine → Log → Prop)
    (watched : Watched α) :
    Prop :=
  match watched.outcome with
  | .done value after =>
      Goes before log after watched.log ∧
        after.current = before.current ∧
        condition value after watched.log
  | .stopped fault after =>
      Goes before log after watched.log ∧
        after.current = before.current ∧
        FaultRight watched.log fault
  | .broken _ _ =>
      False
  | .exhausted =>
      watched.log.Right ∧
        ∀ origin, .began origin ∈ watched.log → .began origin ∈ log

/-- The condition that a value is good. -/
def GoodValue
    (value : Value)
    (machine : Machine)
    (log : Log) :
    Prop :=
  Good log machine value

/-- The condition that the value a statement returns is good. -/
def GoodFlow
    (flow : Flow)
    (machine : Machine)
    (log : Log) :
    Prop :=
  Good log machine flow.result

theorem goodValue_depth
    (value : Value)
    (after : Machine)
    (last : Log)
    (depth : Nat)
    (good : GoodValue value after last) :
    GoodValue value { after with depth } last :=
  Good.same good rfl rfl

theorem goodFlow_current
    (flow : Flow)
    (after : Machine)
    (last : Log)
    (current : Nat)
    (good : GoodFlow flow after last) :
    GoodFlow flow { after with current } last :=
  Good.same good rfl rfl

/-- A frame may be made for a scope that begins at a position and declares the
names: it comes inside the chain of the position, its values are good, and it
binds the names. -/
structure Opens
    (log : Log)
    (machine : Machine)
    (parent : Nat)
    (bindings : Bindings)
    (position : Position)
    (names : List Text) :
    Prop where
  began : .began position.origin ∈ log
  chain : Matches log machine.frames parent position.levels
  good :
    ∀ name value,
      bindings.lookup name = some value → Good log machine value
  bound : ∀ name ∈ names, (bindings.lookup name).isSome

/-- The frame of a block binds nothing yet. -/
theorem Stands.opensBlock
    {log : Log}
    {machine : Machine}
    {position : Position}
    (stands : Stands log machine position) :
    Opens log machine machine.current [] position [] where
  began := stands.began
  chain := stands.chain
  good _ _ found := by cases found
  bound _ member := by cases member

/-- In the frame that is made for a scope the machine stands inside the scope. -/
theorem Opens.enter
    {log : Log}
    {machine : Machine}
    {parent : Nat}
    {bindings : Bindings}
    {position : Position}
    {names : List Text}
    (opens : Opens log machine parent bindings position names)
    (sound : Sound log machine)
    (form : ScopeForm) :
    let inside := position.enter form names
    let inner :=
      { machine with
        frames := machine.frames.push (some parent) bindings
        current := machine.frames.size }
    let longer :=
      .opened machine.frames.size (Log.innermost inside) :: log
    Goes machine log inner longer ∧ Stands longer inner inside := by
  intro inside inner longer
  have goes : Goes machine log inner longer :=
    Goes.push sound (opens.chain.lt_size sound.ordered) opens.good
      (Log.innermost inside) machine.frames.size
  have positive := sound.ordered.positive
  refine ⟨goes, goes.extended.origins _ opens.began, ?_, ?_, ?_, parent, ?_,
    opens.chain.extend goes.extended⟩
  · unfold Machine.globals
    simp only [inner]
    omega
  · rw [Log.labelOf_opened, if_pos rfl]
    rfl
  · intro name member
    rw [Frames.local?_push, if_pos rfl]
    exact opens.bound name member
  · rw [Frames.parent?_push, if_pos rfl]

namespace Watched.Keeps

variable {before middle : Machine} {log longer : Log}

theorem weaken
    {condition weaker : α → Machine → Log → Prop}
    {watched : Watched α}
    (keeps : watched.Keeps before log condition)
    (implies :
      ∀ value after last,
        Goes before log after last →
        after.current = before.current →
        condition value after last →
        weaker value after last) :
    watched.Keeps before log weaker := by
  cases watched with
  | mk outcome last =>
      cases outcome with
      | done value after =>
          obtain ⟨goes, current, holds⟩ := keeps
          exact ⟨goes, current, implies value after last goes current holds⟩
      | stopped | broken | exhausted =>
          exact keeps

theorem after
    {condition : α → Machine → Log → Prop}
    {watched : Watched α}
    (goes : Goes before log middle longer)
    (current : middle.current = before.current)
    (keeps : watched.Keeps middle longer condition) :
    watched.Keeps before log condition := by
  cases watched with
  | mk outcome last =>
      cases outcome with
      | done | stopped =>
          obtain ⟨goesOn, currentAfter, holds⟩ := keeps
          exact ⟨goes.trans goesOn, currentAfter.trans current, holds⟩
      | broken =>
          exact keeps
      | exhausted =>
          exact ⟨keeps.1, fun origin member =>
            goes.fresh origin (keeps.2 origin member)⟩

theorem bind
    {condition : α → Machine → Log → Prop}
    {result : β → Machine → Log → Prop}
    {watched : Watched α}
    {next : α → Machine → Log → Watched β}
    (first : watched.Keeps before log condition)
    (second :
      ∀ value after last,
        Goes before log after last →
        after.current = before.current →
        condition value after last →
        (next value after last).Keeps after last result) :
    (watched.bind next).Keeps before log result := by
  cases watched with
  | mk outcome last =>
      cases outcome with
      | done value after =>
          obtain ⟨goes, current, holds⟩ := first
          exact (second value after last goes current holds).after goes current
      | stopped | broken | exhausted =>
          exact first

/-- A value of a sound machine. -/
theorem done
    {condition : α → Machine → Log → Prop}
    {value : α}
    (goes : Goes before log middle longer)
    (current : middle.current = before.current)
    (holds : condition value middle longer) :
    ({ outcome := .done value middle, log := longer } : Watched α).Keeps before
      log condition :=
  ⟨goes, current, holds⟩

/-- A fault of a sound machine, other than an undefined variable. -/
theorem stopped
    {condition : α → Machine → Log → Prop}
    {token : Token}
    {cause : FaultCause}
    (sound : Sound log before)
    (harmless :
      cause ≠ .unknownUnary ∧ cause ≠ .unknownBinary ∧
        cause ≠ .undefinedVariable) :
    ({ outcome := .stopped { token, cause } before, log } : Watched α).Keeps
      before log condition :=
  ⟨.refl sound, rfl, harmless.1, harmless.2.1,
    fun undefined => (harmless.2.2 undefined).elim⟩

/-- A piece of program in a new frame runs with the frame as its current one, and
gives the current frame back. -/
theorem newFrame
    {condition : α → Machine → Log → Prop}
    {machine : Machine}
    {parent : Nat}
    {bindings : Bindings}
    {position : Position}
    {form : ScopeForm}
    {names : List Text}
    {body : Machine → Log → Watched α}
    (sound : Sound log machine)
    (opens : Opens log machine parent bindings position names)
    (inside :
      ∀ inner last,
        Sound last inner →
        Stands last inner (position.enter form names) →
        (body inner last).Keeps inner last condition)
    (blind :
      ∀ value after last current,
        condition value after last →
        condition value { after with current } last) :
    (watchNewFrame machine log parent bindings
      (Log.innermost (position.enter form names)) body).Keeps machine log
      condition := by
  obtain ⟨goes, stands⟩ := opens.enter sound form
  have keeps := inside _ _ goes.sound stands
  unfold watchNewFrame Watched.mapMachine
  simp only
  revert keeps
  cases body _ _ with
  | mk outcome last =>
      intro keeps
      cases outcome with
      | done value after =>
          obtain ⟨goesOn, -, holds⟩ := keeps
          exact ⟨goes.trans (goesOn.trans (.same goesOn.sound rfl rfl le_rfl)),
            rfl, blind value after last machine.current holds⟩
      | stopped fault after =>
          obtain ⟨goesOn, -, faultRight⟩ := keeps
          exact ⟨goes.trans (goesOn.trans (.same goesOn.sound rfl rfl le_rfl)),
            rfl, faultRight⟩
      | broken =>
          exact keeps
      | exhausted =>
          exact ⟨keeps.1, fun origin member =>
            goes.fresh origin (keeps.2 origin member)⟩

theorem duringCall
    {condition : α → Machine → Log → Prop}
    {call : Machine → Log → Watched α}
    (sound : Sound log before)
    (inside :
      ∀ inner,
        Goes before log inner log →
        inner.current = before.current →
        (call inner log).Keeps inner log condition)
    (blind :
      ∀ value after last depth,
        condition value after last →
        condition value { after with depth } last) :
    (watchDuringCall before log call).Keeps before log condition := by
  have goes :
      Goes before log { before with depth := before.depth + 1 } log :=
    .same sound rfl rfl le_rfl
  have keeps := inside _ goes rfl
  unfold watchDuringCall Watched.mapMachine
  revert keeps
  cases call _ _ with
  | mk outcome last =>
      intro keeps
      cases outcome with
      | done value after =>
          obtain ⟨goesOn, current, holds⟩ := keeps
          exact ⟨goes.trans (goesOn.trans (.same goesOn.sound rfl rfl le_rfl)),
            current, blind value after last (after.depth - 1) holds⟩
      | stopped fault after =>
          obtain ⟨goesOn, current, faultRight⟩ := keeps
          exact ⟨goes.trans (goesOn.trans (.same goesOn.sound rfl rfl le_rfl)),
            current, faultRight⟩
      | broken | exhausted =>
          exact keeps

end Watched.Keeps

end Script.Lexical
