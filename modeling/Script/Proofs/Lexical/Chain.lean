import Script.Proofs.Lexical.Heap
import Mathlib.Data.List.Basic

namespace Script

/-!
# Chains of frames

A name is searched for along the frames outwards, and scope analysis replaces the
search by a distance.  The two agree where the distance is the least one at which
the name is bound.  That rests on one fact about the history of a heap: the frame
around a frame was made before it, so a chain has an end and the bounded search
sees all of it.
-/

namespace Frames

/-- Heaps as they come about: frames are made inside of frames that are there
already, and names are bound, changed by name and changed at a distance. -/
inductive Built : Frames → Prop where
  | empty :
      Built .empty
  | push
      {heap : Frames}
      {parent : Option Nat}
      (built : Built heap)
      (made : ∀ around ∈ parent, around < heap.size)
      (bindings : Bindings) :
      Built (heap.push parent bindings)
  | define
      {heap : Frames}
      (built : Built heap)
      (frame : Nat)
      (name : Text)
      (value : Value) :
      Built (heap.define frame name value)
  | assign
      {heap after : Frames}
      {frame : Nat}
      {name : Text}
      {value : Value}
      (built : Built heap)
      (assigned : heap.assign? frame name value = some after) :
      Built after
  | assignAt
      {heap after : Frames}
      {frame distance : Nat}
      {name : Text}
      {value : Value}
      (built : Built heap)
      (assigned : heap.assignAt? frame distance name value = some after) :
      Built after

/-- The frame around a frame was made before it. -/
def ParentsFirst (heap : Frames) : Prop :=
  ∀ frame parent, heap.parent? frame = some parent → parent < frame

section Changes

variable {heap after : Frames} {frame distance : Nat} {name : Text}
  {value : Value}

/-- Changing a name is binding it in some frame. -/
theorem exists_define_of_assign?
    (assigned : heap.assign? frame name value = some after) :
    ∃ holder, heap.define holder name value = after := by
  obtain ⟨holder, -, defined⟩ := Option.map_eq_some_iff.mp assigned
  exact ⟨holder, defined⟩

theorem exists_define_of_assignAt?
    (assigned : heap.assignAt? frame distance name value = some after) :
    ∃ holder, heap.define holder name value = after := by
  unfold assignAt? at assigned
  split at assigned
  · exact ⟨_, Option.some.inj assigned⟩
  · cases assigned

end Changes

namespace ParentsFirst

variable {heap : Frames}

theorem push
    (parents : heap.ParentsFirst)
    {parent : Option Nat}
    (made : ∀ around ∈ parent, around < heap.size)
    (bindings : Bindings) :
    (heap.push parent bindings).ParentsFirst := by
  intro frame around found
  rw [parent?_push] at found
  split at found
  · rename_i new
    rw [new]
    exact made around found
  · exact parents frame around found

theorem define
    (parents : heap.ParentsFirst)
    (frame : Nat)
    (name : Text)
    (value : Value) :
    (heap.define frame name value).ParentsFirst := by
  intro other around found
  rw [parent?_define] at found
  exact parents other around found

end ParentsFirst

/-- Whatever was done to a heap, the frame around a frame was made before it. -/
theorem Built.parentsFirst
    {heap : Frames}
    (built : heap.Built) :
    heap.ParentsFirst := by
  induction built with
  | empty =>
      rintro frame parent ⟨⟩
  | push _ made bindings inductionHypothesis =>
      exact inductionHypothesis.push made bindings
  | define _ frame name value inductionHypothesis =>
      exact inductionHypothesis.define frame name value
  | assign _ assigned inductionHypothesis =>
      obtain ⟨holder, rfl⟩ := exists_define_of_assign? assigned
      exact inductionHypothesis.define holder _ _
  | assignAt _ assigned inductionHypothesis =>
      obtain ⟨holder, rfl⟩ := exists_define_of_assignAt? assigned
      exact inductionHypothesis.define holder _ _

section Walks

variable {heap : Frames}

/-- Past the outermost frame there is no way on. -/
theorem ancestor?_none_ne
    (distance found : Nat) :
    heap.ancestor? none distance ≠ some (some found) := by
  cases distance <;> simp [ancestor?]

/-- Going outwards in two parts. -/
theorem ancestor?_add
    (start : Option Nat)
    (first second : Nat) :
    heap.ancestor? start (first + second) =
      (heap.ancestor? start first).bind fun between =>
        heap.ancestor? between second := by
  induction first generalizing start with
  | zero =>
      rw [Nat.zero_add, ancestor?, Option.bind_some]
  | succ first inductionHypothesis =>
      rw [Nat.add_right_comm]
      cases start with
      | none =>
          rfl
      | some frame =>
          exact inductionHypothesis (heap.parent? frame)

/-- The frames that are searched are those at the distances, in order. -/
theorem getElem?_chainUpTo_iff
    (parents : heap.ParentsFirst)
    {steps frame distance found : Nat}
    (enough : frame < steps) :
    (heap.chainUpTo steps frame)[distance]? = some found ↔
      heap.ancestor? (some frame) distance = some (some found) := by
  induction steps generalizing frame distance with
  | zero =>
      exact (Nat.not_lt_zero frame enough).elim
  | succ steps inductionHypothesis =>
      rw [chainUpTo]
      cases distance with
      | zero =>
          cases heap.parent? frame <;> simp [ancestor?]
      | succ distance =>
          cases around : heap.parent? frame with
          | none =>
              simpa [ancestor?, around] using ancestor?_none_ne distance found
          | some parent =>
              have before := parents frame parent around
              rw [List.getElem?_cons_succ, ancestor?, around]
              exact inductionHypothesis (by omega)

theorem getElem?_chain_iff
    (parents : heap.ParentsFirst)
    {frame distance found : Nat} :
    (heap.chain frame)[distance]? = some found ↔
      heap.ancestor? (some frame) distance = some (some found) :=
  getElem?_chainUpTo_iff parents (Nat.lt_succ_self frame)

end Walks

/-- From a frame outwards, the least distance at which a name is bound, and the
frame that binds it there. -/
structure Nearest
    (heap : Frames)
    (frame : Nat)
    (name : Text)
    (distance holder : Nat) :
    Prop where
  walk : heap.ancestor? (some frame) distance = some (some holder)
  bound : (heap.local? holder name).isSome = true
  least :
    ∀ nearer < distance, ∀ found,
      heap.ancestor? (some frame) nearer = some (some found) →
      heap.local? found name = none

/-- No frame binds a name, from a frame outwards. -/
def Unbound
    (heap : Frames)
    (frame : Nat)
    (name : Text) :
    Prop :=
  ∀ distance found,
    heap.ancestor? (some frame) distance = some (some found) →
    heap.local? found name = none

section Search

variable {heap : Frames} {frame : Nat} {name : Text}

/-- The search ends at the least distance. -/
theorem holder?_eq_some_iff
    (parents : heap.ParentsFirst)
    {holder : Nat} :
    heap.holder? frame name = some holder ↔
      ∃ distance, heap.Nearest frame name distance holder := by
  unfold holder?
  rw [List.find?_eq_some_iff_getElem]
  constructor
  · rintro ⟨bound, distance, inside, here, least⟩
    refine ⟨distance, ?_, bound, ?_⟩
    · rw [← getElem?_chain_iff parents, List.getElem?_eq_getElem inside, here]
    · intro nearer isNearer found walk
      have there := (getElem?_chain_iff parents).mpr walk
      obtain ⟨_, same⟩ := List.getElem?_eq_some_iff.mp there
      simpa [same] using least nearer isNearer
  · rintro ⟨distance, walk, bound, least⟩
    obtain ⟨inside, here⟩ :=
      List.getElem?_eq_some_iff.mp ((getElem?_chain_iff parents).mpr walk)
    refine ⟨bound, distance, inside, here, fun nearer isNearer => ?_⟩
    have unbound := least nearer isNearer _
      ((getElem?_chain_iff parents).mp
        (List.getElem?_eq_getElem (isNearer.trans inside)))
    simp [unbound]

/-- The search fails when the name is bound at no distance. -/
theorem holder?_eq_none_iff (parents : heap.ParentsFirst) :
    heap.holder? frame name = none ↔ heap.Unbound frame name := by
  unfold holder?
  rw [List.find?_eq_none]
  constructor
  · intro none distance found walk
    have member :=
      List.mem_of_getElem? ((getElem?_chain_iff parents).mpr walk)
    simpa using none found member
  · intro unbound found member
    obtain ⟨distance, there⟩ := List.mem_iff_getElem?.mp member
    simp [unbound distance found ((getElem?_chain_iff parents).mp there)]

variable {distance holder : Nat}

/-- A name that is bound somewhere outwards is read there, by name as well as at
its distance. -/
theorem Nearest.reads
    (nearest : heap.Nearest frame name distance holder)
    (parents : heap.ParentsFirst) :
    ∃ value,
      heap.get? frame name = some value ∧
        heap.getAt? frame distance name = some value := by
  obtain ⟨value, bound⟩ := Option.isSome_iff_exists.mp nearest.bound
  have found := (holder?_eq_some_iff parents).mpr ⟨distance, nearest⟩
  refine ⟨value, ?_, ?_⟩
  · rw [get?, found, Option.bind_some, bound]
  · simp only [getAt?, nearest.walk, bound, Option.getD_some]

/-- A name that is bound somewhere outwards is changed there, by name as well as
at its distance. -/
theorem Nearest.assigns
    (nearest : heap.Nearest frame name distance holder)
    (parents : heap.ParentsFirst)
    (value : Value) :
    heap.assign? frame name value = some (heap.define holder name value) ∧
      heap.assignAt? frame distance name value =
        some (heap.define holder name value) := by
  have found := (holder?_eq_some_iff parents).mpr ⟨distance, nearest⟩
  constructor
  · rw [assign?, found, Option.map_some]
  · simp only [assignAt?, nearest.walk]

end Search

section Sharing

variable {heap : Frames} {holder : Nat} {name : Text}

theorem ancestor?_define
    (value : Value)
    (start : Option Nat)
    (distance : Nat) :
    (heap.define holder name value).ancestor? start distance =
      heap.ancestor? start distance := by
  induction distance generalizing start with
  | zero =>
      rw [ancestor?, ancestor?]
  | succ distance inductionHypothesis =>
      cases start with
      | none =>
          rfl
      | some frame =>
          rw [ancestor?, ancestor?, parent?_define]
          exact inductionHypothesis _

theorem local?_define_of_bound
    (bound : (heap.local? holder name).isSome = true)
    (value : Value)
    (other : Nat)
    (otherName : Text) :
    (heap.define holder name value).local? other otherName =
      if other = holder ∧ otherName = name then
        some value
      else
        heap.local? other otherName := by
  obtain ⟨old, found⟩ := Option.isSome_iff_exists.mp bound
  have made := lt_size_of_local? found
  simp only [local?_define, made, and_true]

/-- Where a name is bound nearest depends on the frames around each other and on
which of them bind the name. -/
theorem Nearest.congr
    {before after : Frames}
    {frame distance found : Nat}
    (nearest : before.Nearest frame name distance found)
    (walks :
      ∀ start distance,
        after.ancestor? start distance = before.ancestor? start distance)
    (bound :
      ∀ other,
        (after.local? other name).isSome =
          (before.local? other name).isSome) :
    after.Nearest frame name distance found where
  walk := by
    rw [walks, nearest.walk]
  bound := by
    rw [bound, nearest.bound]
  least := by
    intro nearer isNearer other walk
    rw [walks] at walk
    have unbound := nearest.least nearer isNearer other walk
    rw [← Option.not_isSome_iff_eq_none, bound, unbound]
    exact Bool.false_ne_true

/-- Giving a bound name a new value does not change where names are bound. -/
theorem nearest_define_iff
    (bound : (heap.local? holder name).isSome = true)
    (value : Value)
    {frame distance found : Nat}
    {otherName : Text} :
    (heap.define holder name value).Nearest frame otherName distance found ↔
      heap.Nearest frame otherName distance found := by
  have same (other : Nat) :
      ((heap.define holder name value).local? other otherName).isSome =
        (heap.local? other otherName).isSome := by
    rw [local?_define_of_bound bound]
    split
    · rename_i here
      rw [here.1, here.2, bound]
      rfl
    · rfl
  constructor
  · intro nearest
    exact nearest.congr (fun _ _ => (ancestor?_define value _ _).symm)
      fun other => (same other).symm
  · intro nearest
    exact nearest.congr (ancestor?_define value) same

theorem holder?_define
    (parents : heap.ParentsFirst)
    (bound : (heap.local? holder name).isSome = true)
    (value : Value)
    (frame : Nat)
    (otherName : Text) :
    (heap.define holder name value).holder? frame otherName =
      heap.holder? frame otherName := by
  refine Option.ext fun found => ?_
  rw [holder?_eq_some_iff (parents.define holder name value),
    holder?_eq_some_iff parents]
  exact exists_congr fun _ => nearest_define_iff bound value

end Sharing

/-- A later state of a heap in which one name has a new value in one frame.  Every
look-up that leads to that frame for that name gives the value, and every other
one gives what it gave before. -/
structure Writes
    (before after : Frames)
    (holder : Nat)
    (name : Text)
    (value : Value) :
    Prop where
  size : after.size = before.size
  parent : ∀ frame, after.parent? frame = before.parent? frame
  here : after.local? holder name = some value
  elsewhere :
    ∀ other otherName,
      ¬ (other = holder ∧ otherName = name) →
      after.local? other otherName = before.local? other otherName
  seen :
    ∀ other distance,
      before.Nearest other name distance holder →
      after.get? other name = some value
  unseen :
    ∀ other otherName,
      ¬ (otherName = name ∧
          ∃ distance, before.Nearest other name distance holder) →
      after.get? other otherName = before.get? other otherName
  seenAt :
    ∀ other distance,
      before.ancestor? (some other) distance = some (some holder) →
      after.getAt? other distance name = some value
  unseenAt :
    ∀ other distance otherName,
      ¬ (otherName = name ∧
          before.ancestor? (some other) distance = some (some holder)) →
      after.getAt? other distance otherName =
        before.getAt? other distance otherName

/-- Giving a bound name a new value does just that. -/
theorem writes_define
    {heap : Frames}
    {holder : Nat}
    {name : Text}
    (parents : heap.ParentsFirst)
    (bound : (heap.local? holder name).isSome = true)
    (value : Value) :
    heap.Writes (heap.define holder name value) holder name value where
  size := size_define heap holder name value
  parent frame := parent?_define heap holder frame name value
  here := by
    rw [local?_define_of_bound bound, if_pos ⟨rfl, rfl⟩]
  elsewhere other otherName apart := by
    rw [local?_define_of_bound bound, if_neg apart]
  seen other distance nearest := by
    have found := (holder?_eq_some_iff parents).mpr ⟨distance, nearest⟩
    rw [get?, holder?_define parents bound, found, Option.bind_some,
      local?_define_of_bound bound, if_pos ⟨rfl, rfl⟩]
  unseen other otherName apart := by
    rw [get?, get?, holder?_define parents bound]
    cases found : heap.holder? other otherName with
    | none =>
        rfl
    | some frame =>
        rw [Option.bind_some, Option.bind_some, local?_define_of_bound bound,
          if_neg]
        rintro ⟨rfl, rfl⟩
        exact apart ⟨rfl, (holder?_eq_some_iff parents).mp found⟩
  seenAt other distance walk := by
    simp only [getAt?, ancestor?_define, walk, local?_define_of_bound bound,
      and_self, if_true, Option.getD_some]
  unseenAt other distance otherName apart := by
    rw [getAt?, getAt?, ancestor?_define]
    split
    · rename_i frame walk
      rw [local?_define_of_bound bound, if_neg]
      rintro ⟨rfl, rfl⟩
      exact apart ⟨rfl, walk⟩
    · rfl

/-! Reading and changing names as programs do, with a fault where the search
fails. -/

/-- The fault of a name that is bound nowhere. -/
def unboundName (name : Token) : Fault where
  token := name
  cause := .undefinedVariable

/-- The value of a name from a frame outwards, or the fault that it has none. -/
def read
    (heap : Frames)
    (frame : Nat)
    (name : Token) :
    Except Fault Value :=
  match heap.get? frame name.lexeme with
  | some value =>
      .ok value
  | none =>
      .error (unboundName name)

/-- The heap after a name is changed from a frame outwards, with the fault, if
any, that the name is bound nowhere. -/
def write
    (heap : Frames)
    (frame : Nat)
    (name : Token)
    (value : Value) :
    Option Fault × Frames :=
  match heap.assign? frame name.lexeme value with
  | some after =>
      (none, after)
  | none =>
      (some (unboundName name), heap)

end Frames

namespace Machine

/-- Global names are read from the outermost frame. -/
theorem readGlobal_eq
    (machine : Machine)
    (name : Token) :
    machine.readGlobal name =
      match machine.frames.read globals name with
      | .ok value =>
          .done value machine
      | .error fault =>
          .stopped fault machine := by
  unfold readGlobal Frames.read
  cases machine.frames.get? globals name.lexeme <;> rfl

/-- Global names are changed from the outermost frame. -/
theorem writeGlobal_eq
    (machine : Machine)
    (name : Token)
    (value : Value) :
    machine.writeGlobal name value =
      match machine.frames.write globals name value with
      | (none, frames) =>
          .done value { machine with frames }
      | (some fault, frames) =>
          .stopped fault { machine with frames } := by
  unfold writeGlobal Frames.write Frames.assign?
  cases machine.frames.holder? globals name.lexeme <;> rfl

end Machine

namespace Frames

/-- Access by name from a frame is access at a distance that leads to `holder`:
the same value is read, and the same heap comes about. -/
structure AgreesAt
    (heap : Frames)
    (frame : Nat)
    (name : Token)
    (distance holder : Nat) :
    Prop where
  reads :
    ∃ value,
      heap.read frame name = .ok value ∧
        heap.getAt? frame distance name.lexeme = some value
  assigns :
    ∀ value, ∃ after,
      heap.write frame name value = (none, after) ∧
        heap.assignAt? frame distance name.lexeme value = some after ∧
        heap.Writes after holder name.lexeme value

/-- Access by name from a frame fails: reading and changing the name are the same
fault, and the heap is as before.  A machine that accesses a global name like that
stops with the fault and is as before. -/
structure FailsAt
    (heap : Frames)
    (frame : Nat)
    (name : Token) :
    Prop where
  reads : heap.read frame name = .error (unboundName name)
  assigns :
    ∀ value, heap.write frame name value = (some (unboundName name), heap)
  stops :
    ∀ machine : Machine,
      machine.frames = heap →
      frame = Machine.globals →
      machine.readGlobal name = .stopped (unboundName name) machine ∧
        ∀ value,
          machine.writeGlobal name value =
            .stopped (unboundName name) machine

/-- A name that no frame binds can be neither read nor changed. -/
theorem failsAt_of_unbound
    {heap : Frames}
    {frame : Nat}
    {name : Token}
    (parents : heap.ParentsFirst)
    (unbound : heap.Unbound frame name.lexeme) :
    heap.FailsAt frame name := by
  have noHolder := (holder?_eq_none_iff parents).mpr unbound
  have reads : heap.read frame name = .error (unboundName name) := by
    rw [read, get?, noHolder, Option.bind_none]
  have assigns (value : Value) :
      heap.write frame name value = (some (unboundName name), heap) := by
    rw [write, assign?, noHolder, Option.map_none]
  refine ⟨reads, assigns, ?_⟩
  rintro machine rfl rfl
  exact ⟨by rw [machine.readGlobal_eq, reads],
    fun value => by rw [machine.writeGlobal_eq, assigns]⟩

/-- In every heap that comes about, access by name is access at the least distance
at which the name is bound, and fails where there is none.  Going outwards in two
parts is going the whole distance. -/
theorem named_agrees_with_distance
    {heap : Frames}
    (built : heap.Built)
    (frame : Nat)
    (name : Token) :
    (∀ distance holder,
      heap.Nearest frame name.lexeme distance holder →
      heap.AgreesAt frame name distance holder) ∧
      (heap.Unbound frame name.lexeme → heap.FailsAt frame name) ∧
      ∀ first second,
        heap.ancestor? (some frame) (first + second) =
          (heap.ancestor? (some frame) first).bind fun between =>
            heap.ancestor? between second := by
  have parents := built.parentsFirst
  refine ⟨fun distance holder nearest => ⟨?_, fun value => ?_⟩,
    failsAt_of_unbound parents, ancestor?_add (some frame)⟩
  · obtain ⟨value, byName, byDistance⟩ := nearest.reads parents
    exact ⟨value, by rw [read, byName], byDistance⟩
  · obtain ⟨byName, byDistance⟩ := nearest.assigns parents value
    exact ⟨_, by rw [write, byName], byDistance,
      writes_define parents nearest.bound value⟩

/-- A global name with its token. -/
def sharedName : Token :=
  .nameAt (Text.utf8 "shared") 1

/-- A name that nothing binds, with its token. -/
def strayName : Token :=
  .nameAt (Text.utf8 "stray") 1

/-- Two frames inside of the outermost one, and one more inside of the first of
them, which binds another name. -/
def siblings : Frames :=
  let outermost := (empty.push none []).define 0 sharedName.lexeme .nil
  let inner := (outermost.push (some 0) []).push (some 0) []
  inner.push (some 1) [(Text.utf8 "own", .bool true)]

theorem built_siblings : siblings.Built := by
  let outermost := (empty.push none []).define 0 sharedName.lexeme .nil
  have built : outermost.Built :=
    .define (.push .empty (by simp) []) 0 sharedName.lexeme .nil
  have first : (outermost.push (some 0) []).Built :=
    .push built (by decide) []
  have second : ((outermost.push (some 0) []).push (some 0) []).Built :=
    .push first (by decide) []
  exact .push second (by decide) _

/-- From the innermost frame the shared name is bound two frames outwards. -/
theorem nearest_siblings : siblings.Nearest 3 sharedName.lexeme 2 0 where
  walk := rfl
  bound := rfl
  least := by
    intro nearer isNearer found walk
    match nearer, isNearer with
    | 0, _ | 1, _ =>
        cases walk
        rfl

theorem named_agrees_with_distance_siblings :
    siblings.Built ∧
      siblings.Nearest 3 sharedName.lexeme 2 0 ∧
      siblings.AgreesAt 3 sharedName 2 0 ∧
      (∃ after,
        siblings.write 3 sharedName (.bool true) = (none, after) ∧
          after.get? 2 sharedName.lexeme = some (.bool true)) ∧
      siblings.Unbound 2 strayName.lexeme ∧
      siblings.FailsAt 2 strayName := by
  have agrees :=
    (named_agrees_with_distance built_siblings 3 sharedName).1 2 0
      nearest_siblings
  obtain ⟨after, written, -, writes⟩ := agrees.assigns (.bool true)
  have fromSibling : siblings.Nearest 2 sharedName.lexeme 1 0 :=
    { walk := rfl
      bound := rfl
      least := by
        intro nearer isNearer found walk
        obtain rfl : nearer = 0 := by omega
        cases walk
        rfl }
  have unbound : siblings.Unbound 2 strayName.lexeme :=
    (holder?_eq_none_iff built_siblings.parentsFirst).mp rfl
  exact ⟨built_siblings, nearest_siblings, agrees,
    ⟨after, written, writes.seen 2 1 fromSibling⟩, unbound,
    (named_agrees_with_distance built_siblings 2 strayName).2.1 unbound⟩

end Frames

end Script
