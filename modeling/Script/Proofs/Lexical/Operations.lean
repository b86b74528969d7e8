import Script.Proofs.Lexical.Invariant

namespace Script.Lexical

/-!
# What operations of a machine keep

Each operation that changes the frames, the fields or the numbers of a machine
keeps the invariant when the right event is noted with it, and the machine after
it is a later moment of the same run.
-/

namespace Log

variable (log : Log) (frame identity : Nat)

/-- Events that make no frame, give no number and begin no tree. -/
def isQuiet : Event → Bool
  | .entered _ _ =>
      true
  | .asked _ _ =>
      true
  | .used _ =>
      true
  | _ =>
      false

theorem labelOf_opened
    (opened : Nat)
    (label : ScopeLabel) :
    labelOf (.opened opened label :: log) frame =
      if opened = frame then some label else log.labelOf frame := by
  unfold labelOf
  rw [List.findSome?_cons]
  by_cases same : opened = frame <;> simp [same]

theorem homeOf_declared
    (declared : Nat)
    (position : Position) :
    homeOf (.declared declared position :: log) identity =
      if declared = identity then some position else log.homeOf identity := by
  unfold homeOf
  rw [List.findSome?_cons]
  by_cases same : declared = identity <;> simp [same]

@[simp]
theorem labelOf_declared
    (declared : Nat)
    (position : Position) :
    labelOf (.declared declared position :: log) frame = log.labelOf frame :=
  rfl

@[simp]
theorem labelOf_began (origin : Origin) :
    labelOf (.began origin :: log) frame = log.labelOf frame :=
  rfl

@[simp]
theorem homeOf_opened
    (opened : Nat)
    (label : ScopeLabel) :
    homeOf (.opened opened label :: log) identity = log.homeOf identity :=
  rfl

@[simp]
theorem homeOf_began (origin : Origin) :
    homeOf (.began origin :: log) identity = log.homeOf identity :=
  rfl

/-- The position of a function that was noted. -/
theorem home_eq
    {closure : Closure}
    {position : Position}
    (found : log.homeOf closure.identity = some position) :
    log.home closure = position := by
  unfold home
  rw [found, Option.getD_some]

theorem labelOf_quiet
    {event : Event}
    (quiet : isQuiet event = true) :
    labelOf (event :: log) frame = log.labelOf frame := by
  cases event with
  | began | opened | declared =>
      cases quiet
  | entered | asked | used =>
      rfl

theorem homeOf_quiet
    {event : Event}
    (quiet : isQuiet event = true) :
    homeOf (event :: log) identity = log.homeOf identity := by
  cases event with
  | began | opened | declared =>
      cases quiet
  | entered | asked | used =>
      rfl

end Log

/-- The machine after an operation is a later moment at which no other tree has
begun, and sound. -/
structure Goes
    (before : Machine)
    (log : Log)
    (after : Machine)
    (longer : Log) :
    Prop where
  extended : Extends before log after longer
  fresh : ∀ origin, .began origin ∈ longer → .began origin ∈ log
  sound : Sound longer after

namespace Goes

theorem refl
    {machine : Machine}
    {log : Log}
    (sound : Sound log machine) :
    Goes machine log machine log :=
  ⟨.refl machine log, fun _ member => member, sound⟩

theorem trans
    {first second third : Machine}
    {log longer longest : Log}
    (earlier : Goes first log second longer)
    (later : Goes second longer third longest) :
    Goes first log third longest :=
  ⟨earlier.extended.trans later.extended,
    fun origin member => earlier.fresh origin (later.fresh origin member),
    later.sound⟩

variable {machine after : Machine} {log : Log}

/-- A change to nothing but what is printed, the calls under way, the current
frame and the number for the next function. -/
theorem same
    (sound : Sound log machine)
    (frames : after.frames = machine.frames)
    (fields : after.fields = machine.fields)
    (identities : machine.identities ≤ after.identities) :
    Goes machine log after log := by
  have extended : Extends machine log after log := .same log frames fields
  refine ⟨extended, fun _ member => member, ?_, ?_, ?_, ?_, ?_, sound.origins,
    sound.right⟩
  · rw [frames]
    exact sound.ordered
  · intro frame name value found
    rw [frames] at found
    exact (sound.frames frame name value found).extend extended
  · intro index bindings stored name value found
    rw [fields] at stored
    exact (sound.fields index bindings stored name value found).extend extended
  · rw [frames]
    exact sound.labelled
  · intro identity outside
    exact sound.numbered identity (identities.trans outside)

/-- Noting a quiet event changes nothing. -/
theorem note
    (sound : Sound log machine)
    {event : Event}
    (quiet : Log.isQuiet event = true)
    (right : event.Right log) :
    Goes machine log machine (event :: log) := by
  have extended : Extends machine log machine (event :: log) := by
    refine ⟨.refl _, le_rfl, ?_, ?_,
      fun _ member => List.mem_cons_of_mem _ member, fun _ _ _ => rfl⟩
    · intro frame label found
      rw [Log.labelOf_quiet _ _ quiet, found]
    · intro identity position found
      rw [Log.homeOf_quiet _ _ quiet, found]
  have fresh :
      ∀ origin, .began origin ∈ event :: log → .began origin ∈ log := by
    intro origin member
    rcases List.mem_cons.mp member with rfl | member
    · cases quiet
    · exact member
  refine ⟨extended, fresh, sound.ordered, ?_, ?_, ?_, ?_,
    fun origin member => sound.origins origin (fresh origin member), right,
    sound.right⟩
  · intro frame name value found
    exact (sound.frames frame name value found).extend extended
  · intro index bindings stored name value found
    exact (sound.fields index bindings stored name value found).extend extended
  · intro frame outside
    rw [Log.labelOf_quiet _ _ quiet]
    exact sound.labelled frame outside
  · intro identity outside
    rw [Log.homeOf_quiet _ _ quiet]
    exact sound.numbered identity outside

/-- A function gets a number. -/
theorem declare
    (sound : Sound log machine)
    (position : Position) :
    Goes machine log { machine with identities := machine.identities + 1 }
      (.declared machine.identities position :: log) := by
  have extended :
      Extends machine log { machine with identities := machine.identities + 1 }
        (.declared machine.identities position :: log) := by
    refine ⟨.refl _, le_rfl, fun _ _ found => found, ?_,
      fun _ member => List.mem_cons_of_mem _ member, fun _ _ _ => rfl⟩
    intro identity home found
    rw [Log.homeOf_declared, if_neg]
    · exact found
    · rintro rfl
      rw [sound.numbered _ le_rfl] at found
      cases found
  refine ⟨extended, by simp, sound.ordered, ?_, ?_, sound.labelled, ?_, ?_,
    trivial, sound.right⟩
  · intro frame name value found
    exact (sound.frames frame name value found).extend extended
  · intro index bindings stored name value found
    exact (sound.fields index bindings stored name value found).extend extended
  · intro identity outside
    simp only at outside
    rw [Log.homeOf_declared, if_neg (by omega)]
    exact sound.numbered identity (by omega)
  · intro origin member
    rcases List.mem_cons.mp member with impossible | member
    · cases impossible
    · exact sound.origins origin member

/-- A frame is made for a scope. -/
theorem push
    (sound : Sound log machine)
    {parent : Nat}
    {bindings : Bindings}
    (made : parent < machine.frames.size)
    (good :
      ∀ name value,
        bindings.lookup name = some value → Good log machine value)
    (label : ScopeLabel)
    (current : Nat) :
    Goes machine log
      { machine with
        frames := machine.frames.push (some parent) bindings
        current }
      (.opened machine.frames.size label :: log) := by
  have extended :
      Extends machine log
        { machine with
          frames := machine.frames.push (some parent) bindings
          current }
        (.opened machine.frames.size label :: log) := by
    refine ⟨.push _ _ _, le_rfl, ?_, fun _ _ found => found,
      fun _ member => List.mem_cons_of_mem _ member, ?_⟩
    · intro frame old found
      rw [Log.labelOf_opened, if_neg]
      · exact found
      · rintro rfl
        rw [sound.labelled _ le_rfl] at found
        cases found
    · rintro frame name ⟨-, old, found, -⟩
      rw [Frames.local?_push, if_neg]
      rintro rfl
      rw [sound.labelled _ le_rfl] at found
      cases found
  refine ⟨extended, by simp, sound.ordered.push made bindings, ?_, ?_, ?_,
    sound.numbered, ?_, trivial, sound.right⟩
  · refine Frames.Holds.push ?_ _ ?_
    · intro frame name value found
      exact (sound.frames frame name value found).extend extended
    · intro name value found
      exact (good name value found).extend extended
  · intro index stored member name value found
    exact (sound.fields index stored member name value found).extend extended
  · intro frame outside
    simp only [Frames.size_push] at outside
    rw [Log.labelOf_opened, if_neg (by omega)]
    exact sound.labelled frame (by omega)
  · intro origin member
    rcases List.mem_cons.mp member with impossible | member
    · cases impossible
    · exact sound.origins origin member

/-- A name is bound in a frame that holds no receiver; the value has to be good once
it is bound. -/
theorem define
    (sound : Sound log machine)
    {frame : Nat}
    (free : ¬ log.HoldsReceiver frame)
    (name : Text)
    (value : Value)
    (good :
      Good log
        { machine with frames := machine.frames.define frame name value }
        value) :
    Goes machine log
      { machine with frames := machine.frames.define frame name value }
      log := by
  have extended := Extends.define machine free name value
  refine ⟨extended, fun _ member => member,
    sound.ordered.define frame name value, ?_, ?_, ?_, sound.numbered,
    sound.origins, sound.right⟩
  · refine Frames.Holds.define ?_ frame name good
    intro other otherName old found
    exact (sound.frames other otherName old found).extend extended
  · intro index stored member otherName old found
    exact (sound.fields index stored member otherName old found).extend extended
  · intro other outside
    simp only [Frames.size_define] at outside
    exact sound.labelled other outside

/-- An object without fields is made. -/
theorem makeObject
    (sound : Sound log machine)
    (members : ClassValue) :
    Goes machine log (machine.makeObject members).2 log := by
  have extended : Extends machine log (machine.makeObject members).2 log :=
    ⟨.refl _, by simp [Machine.makeObject], fun _ _ found => found,
      fun _ _ found => found, fun _ member => member, fun _ _ _ => rfl⟩
  refine ⟨extended, fun _ member => member, sound.ordered, ?_, ?_,
    sound.labelled, sound.numbered, sound.origins, sound.right⟩
  · intro frame name value found
    exact (sound.frames frame name value found).extend extended
  · intro index stored member name value found
    simp only [Machine.makeObject, Array.getElem?_push] at member
    split at member
    · cases member
      cases found
    · exact (sound.fields index stored member name value found).extend extended

/-- A field of an object gets a value. -/
theorem setField
    (sound : Sound log machine)
    (object : Object)
    (name : Text)
    {value : Value}
    (good : Good log machine value) :
    Goes machine log (machine.setField object name value) log := by
  have extended :
      Extends machine log (machine.setField object name value) log :=
    ⟨.refl _, by simp [Machine.setField], fun _ _ found => found,
      fun _ _ found => found, fun _ member => member, fun _ _ _ => rfl⟩
  refine ⟨extended, fun _ member => member, sound.ordered, ?_, ?_,
    sound.labelled, sound.numbered, sound.origins, sound.right⟩
  · intro frame otherName old found
    exact (sound.frames frame otherName old found).extend extended
  · intro index stored member otherName old found
    simp only [Machine.setField, Array.getElem?_modify] at member
    split at member
    · obtain ⟨before, storedBefore, rfl⟩ := Option.map_eq_some_iff.mp member
      rw [Bindings.lookup_set] at found
      split at found
      · cases found
        exact good.extend extended
      · exact (sound.fields index before storedBefore otherName old
          found).extend extended
    · exact (sound.fields index stored member otherName old found).extend
        extended

end Goes

/-- Beginning a tree leads on. -/
theorem Extends.begin
    (machine : Machine)
    (log : Log)
    (origin : Origin) :
    Extends machine log machine (.began origin :: log) where
  frames := .refl machine.frames
  fields := le_rfl
  labels _ _ found := found
  homes _ _ found := found
  origins _ member := List.mem_cons_of_mem _ member
  receivers _ _ _ := rfl

/-- A tree that is as it should be may begin. -/
theorem Sound.begin
    {machine : Machine}
    {log : Log}
    (sound : Sound log machine)
    {origin : Origin}
    (fits : origin.Fits) :
    Sound (.began origin :: log) machine := by
  have extended := Extends.begin machine log origin
  refine ⟨sound.ordered, ?_, ?_, sound.labelled, sound.numbered, ?_, trivial,
    sound.right⟩
  · intro frame name value found
    exact (sound.frames frame name value found).extend extended
  · intro index bindings stored name value found
    exact (sound.fields index bindings stored name value found).extend extended
  · intro other member
    rcases List.mem_cons.mp member with same | member
    · cases same
      exact fits
    · exact sound.origins other member

end Script.Lexical
