import Script.Proofs.Alignment.Value
import Script.Proofs.Lexical.Heap

namespace Script

/-!
# Machines with aligned programs

Linked frames of two machines have values that are alike, under names that differ as
the scope says, unless one of them was made for a scope that the other program does not
have; such a frame has no names.  A distance leads from linked frames to linked frames
when it is for the same scope in both programs, and there a name is found under the
name that it is given in the scope.
-/

namespace Links

/-- Frames that stand for one another, and of which neither is without a counterpart.
They were made for a scope that is marked or not. -/
def Pairs
    (links : Links)
    (frame partner : Nat)
    (marked : Bool) :
    Prop :=
  ∃ outline, links frame partner outline ∧ outline.Common marked

/-- One link more. -/
def add
    (links : Links)
    (frame partner : Nat)
    (outline : Outline) :
    Links :=
  fun first second sides =>
    links first second sides ∨
      first = frame ∧ second = partner ∧ sides = outline

theorem within_add
    (links : Links)
    (frame partner : Nat)
    (outline : Outline) :
    links.Within (links.add frame partner outline) :=
  fun _ _ _ linked => .inl linked

theorem added
    (links : Links)
    (frame partner : Nat)
    (outline : Outline) :
    links.add frame partner outline frame partner outline :=
  .inr ⟨rfl, rfl, rfl⟩

/-- What is around two linked frames, as their outline says. -/
inductive Outwards
    (links : Links)
    (heap other : Frames)
    (frame partner : Nat) :
    Outline → Prop where
  | outermost :
      heap.parent? frame = none →
      other.parent? partner = none →
      Outwards links heap other frame partner []
  | rest
      {outer outerPartner : Nat} :
      heap.parent? frame = some outer →
      other.parent? partner = some outerPartner →
      links outer outerPartner [] →
      Outwards links heap other frame partner []
  | both
      (marked : Bool)
      {outer outerPartner : Nat}
      {outline : Outline} :
      heap.parent? frame = some outer →
      other.parent? partner = some outerPartner →
      links outer outerPartner outline →
      Outwards links heap other frame partner (.both marked :: outline)
  | left
      {outer : Nat}
      {outline : Outline} :
      heap.parent? frame = some outer →
      links outer partner outline →
      (∀ name, heap.local? frame name = none) →
      Outwards links heap other frame partner (.left :: outline)
  | right
      {outerPartner : Nat}
      {outline : Outline} :
      other.parent? partner = some outerPartner →
      links frame outerPartner outline →
      (∀ name, other.local? partner name = none) →
      Outwards links heap other frame partner (.right :: outline)

end Links

section Machines

variable (change : Change) (links : Links)

/-- Frames that are alike. -/
structure Frames.Alike (heap other : Frames) : Prop where
  made :
    ∀ frame partner outline,
      links frame partner outline →
        frame < heap.size ∧ partner < other.size
  globals : links Machine.globals Machine.globals []
  total :
    ∀ frame,
      frame < heap.size → ∃ partner outline, links frame partner outline
  outwards :
    ∀ frame partner outline,
      links frame partner outline →
        links.Outwards heap other frame partner outline
  partner :
    ∀ frame first second firstMarked secondMarked,
      links.Pairs frame first firstMarked →
      links.Pairs frame second secondMarked →
        first = second ∧ firstMarked = secondMarked
  counterpart :
    ∀ first second partner firstMarked secondMarked,
      links.Pairs first partner firstMarked →
      links.Pairs second partner secondMarked →
        first = second
  leftAlone :
    ∀ frame first second marked outline,
      links.Pairs frame first marked → ¬links frame second (.left :: outline)
  rightAlone :
    ∀ first second partner marked outline,
      links.Pairs first partner marked → ¬links second partner (.right :: outline)
  bindings :
    ∀ frame partner marked,
      links.Pairs frame partner marked →
        ∀ name,
          change.Fresh marked name →
          Option.Rel (Value.Alike change links) (heap.local? frame name)
            (other.local? partner (change.name marked name))

/-- Machines that are alike, in frames with an outline. -/
structure Machine.Alike
    (outline : Outline)
    (machine other : Machine) :
    Prop where
  frames : machine.frames.Alike change links other.frames
  fieldsSize : other.fields.size = machine.fields.size
  fields :
    ∀ index : Nat,
      Option.Rel (Bindings.Alike change links false) machine.fields[index]?
        other.fields[index]?
  identities : other.identities = machine.identities
  depth : other.depth = machine.depth
  callLimit : other.callLimit = machine.callLimit
  printed : other.printed = machine.printed
  clock : other.clock = machine.clock
  readings : other.readings = machine.readings
  here : links machine.current other.current outline

/-- Outcomes that are alike, with links that have grown. -/
inductive Outcome.Alike
    {α : Type}
    (outline : Outline)
    (related : Links → α → α → Prop) :
    Outcome α → Outcome α → Prop where
  | done
      {longer : Links}
      {value otherValue : α}
      {machine other : Machine} :
      links.Within longer →
      machine.Alike change longer outline other →
      related longer value otherValue →
      Outcome.Alike outline related (.done value machine)
        (.done otherValue other)
  | stopped
      {longer : Links}
      (fault : Fault)
      {machine other : Machine} :
      links.Within longer →
      machine.Alike change longer outline other →
      Outcome.Alike outline related (.stopped fault machine)
        (.stopped fault other)
  | broken
      {longer : Links}
      (breakage : Breakage)
      {machine other : Machine} :
      links.Within longer →
      machine.Alike change longer outline other →
      Outcome.Alike outline related (.broken breakage machine)
        (.broken breakage other)
  | exhausted :
      Outcome.Alike outline related .exhausted .exhausted

end Machines

/-- A state of the frames in which more frames may have been made, and all others are
as they were. -/
structure Frames.Keeps (heap later : Frames) : Prop where
  size : heap.size ≤ later.size
  parent : ∀ frame, frame < heap.size → later.parent? frame = heap.parent? frame
  bindings :
    ∀ frame name,
      frame < heap.size → later.local? frame name = heap.local? frame name

namespace Frames.Keeps

theorem refl (heap : Frames) : heap.Keeps heap :=
  ⟨Nat.le_refl _, fun _ _ => rfl, fun _ _ _ => rfl⟩

theorem push
    (heap : Frames)
    (parent : Option Nat)
    (bindings : Bindings) :
    heap.Keeps (heap.push parent bindings) where
  size := by
    rw [size_push]
    exact Nat.le_succ _
  parent frame made := by
    rw [parent?_push, if_neg (Nat.ne_of_lt made)]
  bindings frame name made := by
    rw [local?_push, if_neg (Nat.ne_of_lt made)]

end Frames.Keeps

namespace Links

variable {links longer : Links} {heap other later otherLater : Frames}
variable {frame partner : Nat} {outline : Outline}

/-- Frames that stand for one another did so before or have just been linked. -/
theorem pairs_of_add
    {first second : Nat}
    {marked : Bool}
    (pairs : (links.add frame partner outline).Pairs first second marked) :
    links.Pairs first second marked ∨
      first = frame ∧ second = partner ∧ outline.Common marked := by
  obtain ⟨sides, linked | ⟨rfl, rfl, rfl⟩, common⟩ := pairs
  · exact .inl ⟨sides, linked, common⟩
  · exact .inr ⟨rfl, rfl, common⟩

theorem Outwards.extend
    (outwards : links.Outwards heap other frame partner outline)
    (within : links.Within longer) :
    longer.Outwards heap other frame partner outline := by
  cases outwards with
  | outermost left right =>
      exact .outermost left right
  | rest left right linked =>
      exact .rest left right (within _ _ _ linked)
  | both marked left right linked =>
      exact .both marked left right (within _ _ _ linked)
  | left parent linked empty =>
      exact .left parent (within _ _ _ linked) empty
  | right parent linked empty =>
      exact .right parent (within _ _ _ linked) empty

/-- What is around frames stays when others are made. -/
theorem Outwards.keep
    (outwards : links.Outwards heap other frame partner outline)
    (keeps : heap.Keeps later)
    (otherKeeps : other.Keeps otherLater)
    (made : frame < heap.size)
    (otherMade : partner < other.size) :
    links.Outwards later otherLater frame partner outline := by
  have parent := keeps.parent frame made
  have otherParent := otherKeeps.parent partner otherMade
  cases outwards with
  | outermost left right =>
      exact .outermost (parent.trans left) (otherParent.trans right)
  | rest left right linked =>
      exact .rest (parent.trans left) (otherParent.trans right) linked
  | both marked left right linked =>
      exact .both marked (parent.trans left) (otherParent.trans right) linked
  | left around linked empty =>
      exact .left (parent.trans around) linked fun name =>
        (keeps.bindings frame name made).trans (empty name)
  | right around linked empty =>
      exact .right (otherParent.trans around) linked fun name =>
        (otherKeeps.bindings partner name otherMade).trans (empty name)

end Links

namespace Frames.Alike

variable {change : Change} {links : Links} {heap other : Frames}

/-- Both bind a name in frames that stand for one another, each under the name that it
has there. -/
theorem define
    (alike : heap.Alike change links other)
    {frame partner : Nat}
    {marked : Bool}
    (pairs : links.Pairs frame partner marked)
    {name : Text}
    (fresh : change.Fresh marked name)
    {value otherValue : Value}
    (values : value.Alike change links otherValue) :
    (heap.define frame name value).Alike change links
      (other.define partner (change.name marked name) otherValue) where
  made first second outline linked := by
    rw [size_define, size_define]
    exact alike.made first second outline linked
  globals := alike.globals
  total first inside := alike.total first (by rwa [size_define] at inside)
  outwards first second outline linked := by
    have outwards := alike.outwards first second outline linked
    cases outwards with
    | outermost left right =>
        refine .outermost ?_ ?_ <;> rw [parent?_define] <;> assumption
    | rest left right outside =>
        refine .rest ?_ ?_ outside <;> rw [parent?_define] <;> assumption
    | both marked left right outside =>
        refine .both marked ?_ ?_ outside <;> rw [parent?_define] <;> assumption
    | left around outside empty =>
        refine .left ?_ outside fun otherName => ?_
        · rw [parent?_define]
          exact around
        · rw [local?_define, if_neg]
          · exact empty otherName
          · rintro ⟨rfl, -, -⟩
            exact alike.leftAlone _ _ _ _ _ pairs linked
    | right around outside empty =>
        refine .right ?_ outside fun otherName => ?_
        · rw [parent?_define]
          exact around
        · rw [local?_define, if_neg]
          · exact empty otherName
          · rintro ⟨rfl, -, -⟩
            exact alike.rightAlone _ _ _ _ _ pairs linked
  partner := alike.partner
  counterpart := alike.counterpart
  leftAlone := alike.leftAlone
  rightAlone := alike.rightAlone
  bindings first second otherMarked otherPairs otherName otherFresh := by
    have inside : frame < heap.size ∧ partner < other.size := by
      obtain ⟨outline, linked, -⟩ := pairs
      exact alike.made frame partner outline linked
    rw [local?_define, local?_define]
    by_cases here : first = frame ∧ otherName = name
    · obtain ⟨rfl, rfl⟩ := here
      obtain ⟨rfl, rfl⟩ := alike.partner _ _ _ _ _ pairs otherPairs
      rw [if_pos ⟨rfl, rfl, inside.1⟩, if_pos ⟨rfl, rfl, inside.2⟩]
      exact .some values
    · rw [if_neg fun same => here ⟨same.1, same.2.1⟩, if_neg]
      · exact alike.bindings first second otherMarked otherPairs otherName
          otherFresh
      · rintro ⟨rfl, sameName, -⟩
        obtain rfl := alike.counterpart _ _ _ _ _ otherPairs pairs
        obtain ⟨-, rfl⟩ := alike.partner _ _ _ _ _ pairs otherPairs
        exact here ⟨rfl, (Change.name_inj otherFresh fresh).mp sameName⟩

/-- Distances that lead to the same scope lead to frames that stand for one another,
or both lead nowhere. -/
theorem ancestor?
    (alike : heap.Alike change links other)
    {outline : Outline}
    {distance otherDistance : Nat}
    {marked : Bool}
    (meets : outline.Meets distance otherDistance marked)
    {frame partner : Nat}
    (linked : links frame partner outline) :
    (∃ found otherFound,
      heap.ancestor? (some frame) distance = some (some found) ∧
        other.ancestor? (some partner) otherDistance =
          some (some otherFound) ∧
        links.Pairs found otherFound marked) ∨
      (∀ found, heap.ancestor? (some frame) distance ≠ some (some found)) ∧
        ∀ found,
          other.ancestor? (some partner) otherDistance ≠ some (some found) := by
  induction meets generalizing frame partner with
  | rest distance =>
      induction distance generalizing frame partner with
      | zero =>
          exact .inl
            ⟨frame, partner, rfl, rfl, [], linked, Outline.common_nil⟩
      | succ distance inductionHypothesis =>
          rw [Frames.ancestor?, Frames.ancestor?]
          cases alike.outwards frame partner [] linked with
          | outermost left right =>
              rw [left, right]
              right
              cases distance <;> simp [Frames.ancestor?]
          | rest left right linked =>
              rw [left, right]
              exact inductionHypothesis linked
  | here marked outline =>
      exact .inl
        ⟨frame, partner, rfl, rfl, _, linked, Outline.common_both marked outline⟩
  | both _ _ inductionHypothesis =>
      cases alike.outwards frame partner _ linked with
      | both _ left right linked =>
          rw [Frames.ancestor?, Frames.ancestor?, left, right]
          exact inductionHypothesis linked
  | left _ inductionHypothesis =>
      cases alike.outwards frame partner _ linked with
      | left parent linked empty =>
          rw [Frames.ancestor?, parent]
          exact inductionHypothesis linked
  | @right _ _ otherDistance _ _ inductionHypothesis =>
      cases alike.outwards frame partner _ linked with
      | @right outerPartner _ parent linked empty =>
          have step :
              other.ancestor? (some partner) (otherDistance + 1) =
                other.ancestor? (some outerPartner) otherDistance := by
            rw [Frames.ancestor?, parent]
          rw [step]
          exact inductionHypothesis linked

/-- The left frame of a link to be added has a counterpart only if the right one is
made alone. -/
theorem head_of_pairs_left
    (alike : heap.Alike change links other)
    {frame second : Nat}
    {marked : Bool}
    {outline : Outline}
    (leftNew : outline.head? ≠ some .right → heap.size ≤ frame)
    (pairs : links.Pairs frame second marked) :
    outline.head? = some .right := by
  by_contra isNew
  obtain ⟨sides, linked, -⟩ := pairs
  exact (leftNew isNew).not_gt (alike.made frame second sides linked).1

theorem head_of_pairs_right
    (alike : heap.Alike change links other)
    {first partner : Nat}
    {marked : Bool}
    {outline : Outline}
    (rightNew : outline.head? ≠ some .left → other.size ≤ partner)
    (pairs : links.Pairs first partner marked) :
    outline.head? = some .left := by
  by_contra isNew
  obtain ⟨sides, linked, -⟩ := pairs
  exact (rightNew isNew).not_gt (alike.made first partner sides linked).2

/-- A link more, between frames of which at least one has just been made. -/
theorem add
    (alike : heap.Alike change links other)
    {later otherLater : Frames}
    (keeps : heap.Keeps later)
    (otherKeeps : other.Keeps otherLater)
    {frame partner : Nat}
    {outline : Outline}
    (made : frame < later.size)
    (otherMade : partner < otherLater.size)
    (onlyNew : ∀ new, new < later.size → new < heap.size ∨ new = frame)
    (outwards : links.Outwards later otherLater frame partner outline)
    (leftNew : outline.head? ≠ some .right → heap.size ≤ frame)
    (rightNew : outline.head? ≠ some .left → other.size ≤ partner)
    (bindings :
      ∀ marked,
        outline.Common marked →
        ∀ name,
          change.Fresh marked name →
          Option.Rel (Value.Alike change links) (later.local? frame name)
            (otherLater.local? partner (change.name marked name))) :
    later.Alike change (links.add frame partner outline) otherLater where
  made := by
    rintro first second sides (linked | ⟨rfl, rfl, rfl⟩)
    · have old := alike.made first second sides linked
      exact ⟨old.1.trans_le keeps.size, old.2.trans_le otherKeeps.size⟩
    · exact ⟨made, otherMade⟩
  globals := .inl alike.globals
  total := by
    intro first inside
    rcases onlyNew first inside with old | rfl
    · obtain ⟨second, sides, linked⟩ := alike.total first old
      exact ⟨second, sides, .inl linked⟩
    · exact ⟨partner, outline, links.added first partner outline⟩
  outwards := by
    have within := links.within_add frame partner outline
    rintro first second sides (linked | ⟨rfl, rfl, rfl⟩)
    · have old := alike.made first second sides linked
      exact ((alike.outwards first second sides linked).keep keeps otherKeeps
        old.1 old.2).extend within
    · exact outwards.extend within
  -- A frame that stands for another one already is none of those just made.
  partner := by
    intro first second third firstMarked secondMarked isPair isOther
    rcases Links.pairs_of_add isPair with old | ⟨rfl, rfl, common⟩ <;>
      rcases Links.pairs_of_add isOther with
        otherOld | ⟨same, otherSame, otherCommon⟩
    · exact alike.partner _ _ _ _ _ old otherOld
    · subst same
      exact (otherCommon.head_ne_right
        (alike.head_of_pairs_left leftNew old)).elim
    · exact (common.head_ne_right
        (alike.head_of_pairs_left leftNew otherOld)).elim
    · exact ⟨otherSame.symm, common.marked_eq otherCommon⟩
  counterpart := by
    intro first second third firstMarked secondMarked isPair isOther
    rcases Links.pairs_of_add isPair with old | ⟨rfl, rfl, common⟩ <;>
      rcases Links.pairs_of_add isOther with
        otherOld | ⟨same, otherSame, otherCommon⟩
    · exact alike.counterpart _ _ _ _ _ old otherOld
    · subst otherSame
      exact (otherCommon.head_ne_left
        (alike.head_of_pairs_right rightNew old)).elim
    · exact (common.head_ne_left
        (alike.head_of_pairs_right rightNew otherOld)).elim
    · exact same.symm
  leftAlone := by
    rintro first second third marked sides isPair (linked | ⟨rfl, rfl, rfl⟩)
    · rcases Links.pairs_of_add isPair with old | ⟨rfl, rfl, common⟩
      · exact alike.leftAlone _ _ _ _ _ old linked
      · exact (leftNew common.head_ne_right).not_gt
          (alike.made first third _ linked).1
    · rcases Links.pairs_of_add isPair with old | ⟨-, -, common⟩
      · cases alike.head_of_pairs_left leftNew old
      · exact common.head_ne_left rfl
  rightAlone := by
    rintro first second third marked sides isPair (linked | ⟨rfl, rfl, rfl⟩)
    · rcases Links.pairs_of_add isPair with old | ⟨rfl, rfl, common⟩
      · exact alike.rightAlone _ _ _ _ _ old linked
      · exact (rightNew common.head_ne_left).not_gt
          (alike.made second third _ linked).2
    · rcases Links.pairs_of_add isPair with old | ⟨-, -, common⟩
      · cases alike.head_of_pairs_right rightNew old
      · exact common.head_ne_right rfl
  bindings := by
    intro first second marked isPair name fresh
    refine Value.Alike.extend_option ?_
      (links.within_add frame partner outline)
    rcases Links.pairs_of_add isPair with
      ⟨sides, linked, common⟩ | ⟨rfl, rfl, common⟩
    · have old := alike.made first second sides linked
      rw [keeps.bindings first name old.1, otherKeeps.bindings second _ old.2]
      exact alike.bindings first second marked ⟨sides, linked, common⟩ name fresh
    · exact bindings marked common name fresh

/-- Both make a frame in linked frames, for a scope that is marked or not. -/
theorem push
    (alike : heap.Alike change links other)
    {frame partner : Nat}
    {outline : Outline}
    (linked : links frame partner outline)
    {marked : Bool}
    {bindings otherBindings : Bindings}
    (alikeBindings : bindings.Alike change links marked otherBindings) :
    (heap.push (some frame) bindings).Alike change
      (links.add heap.size other.size (.both marked :: outline))
      (other.push (some partner) otherBindings) := by
  refine alike.add (.push heap _ _) (.push other _ _) ?_ ?_ ?_
    (.both marked ?_ ?_ linked) (fun _ => Nat.le_refl _)
    (fun _ => Nat.le_refl _) fun other common name fresh => ?_
  · rw [size_push]
    exact Nat.lt_succ_self _
  · rw [size_push]
    exact Nat.lt_succ_self _
  · intro new inside
    rw [size_push] at inside
    exact Nat.lt_succ_iff_lt_or_eq.mp inside
  · rw [parent?_push, if_pos rfl]
  · rw [parent?_push, if_pos rfl]
  · obtain rfl := common.marked_eq (Outline.common_both marked outline)
    rw [local?_push, if_pos rfl, local?_push, if_pos rfl]
    exact alikeBindings name fresh

/-- Only the left one makes a frame, one without names. -/
theorem pushLeft
    (alike : heap.Alike change links other)
    {frame partner : Nat}
    {outline : Outline}
    (linked : links frame partner outline) :
    (heap.push (some frame) []).Alike change
      (links.add heap.size partner (.left :: outline)) other := by
  have made := alike.made frame partner outline linked
  refine alike.add (.push heap _ _) (.refl other) ?_ made.2 ?_
    (.left ?_ linked fun name => ?_) (fun _ => Nat.le_refl _)
    (fun isNew => (isNew rfl).elim) fun _ common => (common.head_ne_left rfl).elim
  · rw [size_push]
    exact Nat.lt_succ_self _
  · intro new inside
    rw [size_push] at inside
    exact Nat.lt_succ_iff_lt_or_eq.mp inside
  · rw [parent?_push, if_pos rfl]
  · rw [local?_push, if_pos rfl]
    rfl

/-- Only the right one makes a frame, one without names. -/
theorem pushRight
    (alike : heap.Alike change links other)
    {frame partner : Nat}
    {outline : Outline}
    (linked : links frame partner outline) :
    heap.Alike change (links.add frame other.size (.right :: outline))
      (other.push (some partner) []) := by
  have made := alike.made frame partner outline linked
  refine alike.add (.refl heap) (.push other _ _) made.1 ?_
    (fun _ => .inl) (.right ?_ linked fun name => ?_)
    (fun isNew => (isNew rfl).elim) (fun _ => Nat.le_refl _)
    fun _ common => (common.head_ne_right rfl).elim
  · rw [size_push]
    exact Nat.lt_succ_self _
  · rw [parent?_push, if_pos rfl]
  · rw [local?_push, if_pos rfl]
    rfl

end Frames.Alike

namespace Outcome.Alike

variable {α β : Type} {change : Change} {links : Links} {outline : Outline}
variable {related : Links → α → α → Prop}
variable {outcome otherOutcome : Outcome α}

/-- Links that have grown further are links that have grown. -/
theorem widen
    {longer : Links}
    (within : links.Within longer)
    (alike : outcome.Alike change longer outline related otherOutcome) :
    outcome.Alike change links outline related otherOutcome := by
  cases alike with
  | done further machines values =>
      exact .done (within.trans further) machines values
  | stopped fault further machines =>
      exact .stopped fault (within.trans further) machines
  | broken breakage further machines =>
      exact .broken breakage (within.trans further) machines
  | exhausted =>
      exact .exhausted

/-- What goes on alike after a value goes on alike. -/
theorem bind
    {following : Links → β → β → Prop}
    {next otherNext : α → Machine → Outcome β}
    (first : outcome.Alike change links outline related otherOutcome)
    (later :
      ∀ longer value otherValue machine other,
        links.Within longer →
        machine.Alike change longer outline other →
        related longer value otherValue →
        (next value machine).Alike change longer outline following
          (otherNext otherValue other)) :
    (outcome.bind next).Alike change links outline following
      (otherOutcome.bind otherNext) := by
  cases first with
  | done within machines values =>
      exact .widen within (later _ _ _ _ _ within machines values)
  | stopped fault within machines =>
      exact .stopped fault within machines
  | broken breakage within machines =>
      exact .broken breakage within machines
  | exhausted =>
      exact .exhausted

/-- What is updated alike stays alike. -/
theorem mapMachine
    {inner : Outline}
    {update otherUpdate : Machine → Machine}
    (alike : outcome.Alike change links inner related otherOutcome)
    (updates :
      ∀ longer machine other,
        links.Within longer →
        machine.Alike change longer inner other →
        (update machine).Alike change longer outline (otherUpdate other)) :
    (outcome.mapMachine update).Alike change links outline related
      (otherOutcome.mapMachine otherUpdate) := by
  cases alike with
  | done within machines values =>
      exact .done within (updates _ _ _ within machines) values
  | stopped fault within machines =>
      exact .stopped fault within (updates _ _ _ within machines)
  | broken breakage within machines =>
      exact .broken breakage within (updates _ _ _ within machines)
  | exhausted =>
      exact .exhausted

end Outcome.Alike

namespace Machine

variable {machine : Machine} {distance : Nat}

/-- A distance that leads nowhere has no value. -/
theorem read_beyond
    (nowhere : ∀ found,
      machine.frames.ancestor? (some machine.current) distance ≠
        some (some found))
    (name : Token) :
    machine.read name (some distance) = .broken .beyondOutermost machine := by
  have missing :
      machine.frames.getAt? machine.current distance name.lexeme = none := by
    unfold Frames.getAt?
    split
    · exact (nowhere _ ‹_›).elim
    · rfl
  simp only [read, missing]

theorem assign_beyond
    (nowhere : ∀ found,
      machine.frames.ancestor? (some machine.current) distance ≠
        some (some found))
    (name : Token)
    (value : Value) :
    machine.assign name (some distance) value =
      .broken .beyondOutermost machine := by
  rw [assign.eq_2]
  split
  · exact (nowhere _ ‹_›).elim
  · rfl

end Machine

namespace Machine.Alike

variable {change : Change} {links : Links} {outline : Outline}
variable {machine other : Machine}

/-- An outcome that gives values at once. -/
theorem done
    {α : Type}
    {related : Links → α → α → Prop}
    (alike : machine.Alike change links outline other)
    {value otherValue : α}
    (values : related links value otherValue) :
    Outcome.Alike change links outline related (.done value machine)
      (.done otherValue other) :=
  .done (.refl links) alike values

/-- An outcome that stops at once. -/
theorem stopped
    {α : Type}
    {related : Links → α → α → Prop}
    (alike : machine.Alike change links outline other)
    (fault : Fault) :
    Outcome.Alike change links outline related (.stopped fault machine)
      (.stopped fault other) :=
  .stopped fault (.refl links) alike

/-- An outcome that breaks at once. -/
theorem broken
    {α : Type}
    {related : Links → α → α → Prop}
    (alike : machine.Alike change links outline other)
    (breakage : Breakage) :
    Outcome.Alike change links outline related (.broken breakage machine)
      (.broken breakage other) :=
  .broken breakage (.refl links) alike

/-- Another state of the frames. -/
theorem withFrames
    (alike : machine.Alike change links outline other)
    {frames otherFrames : Frames}
    (framesAlike : frames.Alike change links otherFrames) :
    Machine.Alike change links outline { machine with frames }
      { other with frames := otherFrames } :=
  { alike with frames := framesAlike }

/-- More links are there than before. -/
theorem extend
    (alike : machine.Alike change links outline other)
    {longer : Links}
    (within : links.Within longer)
    {frames otherFrames : Frames}
    (framesAlike : frames.Alike change longer otherFrames) :
    Machine.Alike change longer outline { machine with frames }
      { other with frames := otherFrames } := by
  refine
    { alike with
      frames := framesAlike
      fields := fun index => ?_
      here := within _ _ _ alike.here }
  have before := alike.fields index
  generalize machine.fields[index]? = stored,
    other.fields[index]? = otherStored at before ⊢
  cases before with
  | none =>
      exact .none
  | some fields =>
      exact .some (fields.extend within)

/-- Both go on in frames that are linked. -/
theorem goTo
    (alike : machine.Alike change links outline other)
    {frame partner : Nat}
    {around : Outline}
    (linked : links frame partner around) :
    Machine.Alike change links around { machine with current := frame }
      { other with current := partner } :=
  { alike with here := linked }

/-- Both bind a name in the current frame, each under the name that it has there. -/
theorem define
    (alike : machine.Alike change links outline other)
    {marked : Bool}
    (common : outline.Common marked)
    {name : Text}
    (avoids : change.Avoids outline name)
    {value otherValue : Value}
    (values : value.Alike change links otherValue) :
    (machine.define name value).Alike change links outline
      (other.define (change.name marked name) otherValue) :=
  alike.withFrames
    (alike.frames.define ⟨outline, alike.here, common⟩ (avoids.fresh common)
      values)

theorem globalPair
    (alike : machine.Alike change links outline other) :
    links.Pairs globals globals false :=
  ⟨[], alike.frames.globals, Outline.common_nil⟩

/-- Both have the global names under the same names. -/
theorem globalValue
    (alike : machine.Alike change links outline other)
    (name : Text) :
    Option.Rel (Value.Alike change links)
      (machine.frames.local? globals name)
      (other.frames.local? globals name) := by
  have values :=
    alike.frames.bindings _ _ _ alike.globalPair name (change.fresh_false name)
  rwa [change.name_false] at values

theorem defineGlobal
    (alike : machine.Alike change links outline other)
    (name : Text)
    {value otherValue : Value}
    (values : value.Alike change links otherValue) :
    (machine.defineGlobal name value).Alike change links outline
      (other.defineGlobal name otherValue) := by
  have defined :=
    alike.frames.define alike.globalPair (change.fresh_false name) values
  rw [change.name_false] at defined
  exact alike.withFrames defined

/-- Both read a name, each under the name that it has in its scope. -/
theorem read
    (alike : machine.Alike change links outline other)
    {name : Token}
    {distance otherDistance : Option Nat}
    {marked : Bool}
    (meets : outline.MeetsOption distance otherDistance marked)
    (avoids : change.Avoids outline name.lexeme) :
    (machine.read name distance).Alike change links outline (Value.Alike change)
      (other.read (change.token marked name) otherDistance) := by
  cases meets with
  | global =>
      simp only [change.token_false, Machine.read, readGlobal,
        Frames.get?_outermost]
      have values := alike.globalValue name.lexeme
      generalize machine.frames.local? globals name.lexeme = before,
        other.frames.local? globals name.lexeme = after at values ⊢
      cases values with
      | none =>
          exact alike.stopped _
      | some value =>
          exact alike.done value
  | «local» meets =>
      rcases alike.frames.ancestor? meets alike.here with
        ⟨found, otherFound, isFound, isOtherFound, pairs⟩ | ⟨none, otherNone⟩
      · simp only [Machine.read, Frames.getAt?, isFound, isOtherFound,
          Change.token_lexeme]
        have values :=
          alike.frames.bindings _ _ _ pairs name.lexeme (avoids.fresh meets)
        generalize machine.frames.local? found name.lexeme = before,
          other.frames.local? otherFound (change.name marked name.lexeme) =
            after at values ⊢
        cases values with
        | none =>
            exact alike.done .nil
        | some value =>
            exact alike.done value
      · rw [read_beyond none, read_beyond otherNone]
        exact alike.broken _

/-- Both change the value of a name, each under the name that it has in its scope. -/
theorem assign
    (alike : machine.Alike change links outline other)
    {name : Token}
    {distance otherDistance : Option Nat}
    {marked : Bool}
    (meets : outline.MeetsOption distance otherDistance marked)
    (avoids : change.Avoids outline name.lexeme)
    {value otherValue : Value}
    (values : value.Alike change links otherValue) :
    (machine.assign name distance value).Alike change links outline
      (Value.Alike change)
      (other.assign (change.token marked name) otherDistance otherValue) := by
  cases meets with
  | global =>
      simp only [change.token_false, Machine.assign, writeGlobal,
        Frames.holder?_outermost]
      have bound := alike.globalValue name.lexeme
      generalize machine.frames.local? globals name.lexeme = before,
        other.frames.local? globals name.lexeme = after at bound ⊢
      cases bound with
      | none =>
          exact alike.stopped _
      | some old =>
          exact (alike.defineGlobal name.lexeme values).done values
  | «local» meets =>
      rcases alike.frames.ancestor? meets alike.here with
        ⟨found, otherFound, isFound, isOtherFound, pairs⟩ | ⟨none, otherNone⟩
      · simp only [Machine.assign, isFound, isOtherFound]
        exact
          (alike.withFrames
            (alike.frames.define pairs (avoids.fresh meets) values)).done values
      · rw [assign_beyond none, assign_beyond otherNone]
        exact alike.broken _

end Machine.Alike

end Script
