import Script.Proofs.Renaming.Tree

namespace Script

/-!
# Scopes of two programs

Two programs are compared that have the same text, but that one may have a scope around
a place where the other has none, and that a variable may have another name.  An outline
says which scopes around the place both have, from the innermost one outwards, up to
where the scopes are the same, and which of them are marked.  In marked scopes the old
name is changed.  A scope that only one program has is not declared in and no distance
leads to it.
-/

/-- Which of two programs has a scope.  One that both have may be marked. -/
inductive Side where
  | both (marked : Bool)
  | left
  | right
  deriving Repr, DecidableEq

/-- Which programs have the scopes around a place, the innermost one first.  Around
the listed scopes all scopes are the same. -/
abbrev Outline :=
  List Side

namespace Outline

/-- Two distances lead to the same scope, which is marked or not. -/
inductive Meets : Outline → Nat → Nat → Bool → Prop where
  | rest
      (distance : Nat) :
      Meets [] distance distance false
  | here
      (marked : Bool)
      (outline : Outline) :
      Meets (.both marked :: outline) 0 0 marked
  | both
      (around : Bool)
      {outline : Outline}
      {distance other : Nat}
      {marked : Bool} :
      Meets outline distance other marked →
      Meets (.both around :: outline) (distance + 1) (other + 1) marked
  | left
      {outline : Outline}
      {distance other : Nat}
      {marked : Bool} :
      Meets outline distance other marked →
      Meets (.left :: outline) (distance + 1) other marked
  | right
      {outline : Outline}
      {distance other : Nat}
      {marked : Bool} :
      Meets outline distance other marked →
      Meets (.right :: outline) distance (other + 1) marked

/-- Two distances that may be absent lead to the same scope or to no local one. -/
inductive MeetsOption (outline : Outline) :
    Option Nat → Option Nat → Bool → Prop where
  | global :
      MeetsOption outline none none false
  | local
      {distance other : Nat}
      {marked : Bool} :
      outline.Meets distance other marked →
      MeetsOption outline (some distance) (some other) marked

/-- The innermost scope is one that both programs have, marked or not. -/
def Common
    (outline : Outline)
    (marked : Bool) :
    Prop :=
  outline.Meets 0 0 marked

theorem common_nil : Common [] false :=
  .rest 0

theorem common_both
    (marked : Bool)
    (outline : Outline) :
    Common (.both marked :: outline) marked :=
  .here marked outline

variable {outline : Outline} {marked : Bool}

theorem Common.head_ne_left
    (common : outline.Common marked) :
    outline.head? ≠ some .left := by
  cases common <;> simp

theorem Common.head_ne_right
    (common : outline.Common marked) :
    outline.head? ≠ some .right := by
  cases common <;> simp

/-- Only one of the marks is that of the innermost scope. -/
theorem Common.marked_eq
    {other : Bool}
    (common : outline.Common marked)
    (otherCommon : outline.Common other) :
    marked = other := by
  cases common <;> cases otherCommon <;> rfl

/-- Among scopes that both have and that are not marked, a distance leads to the same
one as itself. -/
theorem Meets.refl
    (shared : ∀ side ∈ outline, side = .both false)
    (distance : Nat) :
    outline.Meets distance distance false := by
  induction outline generalizing distance with
  | nil =>
      exact .rest distance
  | cons side rest inductionHypothesis =>
      obtain ⟨rfl, restShared⟩ := List.forall_mem_cons.mp shared
      cases distance with
      | zero =>
          exact .here false rest
      | succ distance =>
          exact .both false (inductionHypothesis restShared distance)

theorem MeetsOption.refl
    (shared : ∀ side ∈ outline, side = .both false)
    (distance : Option Nat) :
    outline.MeetsOption distance distance false := by
  cases distance with
  | none =>
      exact .global
  | some distance =>
      exact .local (.refl shared distance)

end Outline

/-- What is changed in the names of one program to get those of the other one: nothing,
or the old name of a renaming in marked scopes. -/
abbrev Change :=
  Option Renaming

namespace Change

/-- What a name is called in the other program, in a scope that is marked or not. -/
def name
    (change : Change)
    (marked : Bool)
    (name : Text) :
    Text :=
  match change with
  | none =>
      name
  | some names =>
      names.name marked name

/-- A token with the name that it has in the other program. -/
def token
    (change : Change)
    (marked : Bool)
    (token : Token) :
    Token :=
  { token with lexeme := change.name marked token.lexeme }

/-- In a marked scope no name is the new one yet. -/
def Fresh
    (change : Change)
    (marked : Bool)
    (name : Text) :
    Prop :=
  ∀ names ∈ change, marked = true → name ≠ names.new

/-- A name that is fresh in all scopes around a place. -/
def Avoids
    (change : Change)
    (outline : Outline)
    (name : Text) :
    Prop :=
  ∀ marked, .both marked ∈ outline → change.Fresh marked name

/-- A fresh name that a scope, marked or not, does not change. -/
structure Keeps
    (change : Change)
    (outline : Outline)
    (marked : Bool)
    (name : Text) :
    Prop where
  avoids : change.Avoids outline name
  same : change.name marked name = name

/-- No name is changed to or from that of the receiver. -/
def IsProper (change : Change) : Prop :=
  ∀ names ∈ change, names.IsProper

variable {change : Change} {outline : Outline}

@[simp]
theorem name_false
    (change : Change)
    (name : Text) :
    change.name false name = name := by
  cases change with
  | none =>
      rfl
  | some names =>
      exact names.name_false name

@[simp]
theorem token_false
    (change : Change)
    (token : Token) :
    change.token false token = token := by
  simp [Change.token]

@[simp]
theorem token_lexeme
    (change : Change)
    (marked : Bool)
    (token : Token) :
    (change.token marked token).lexeme = change.name marked token.lexeme :=
  rfl

theorem map_token_false
    (change : Change)
    (parameters : List Token) :
    parameters.map (change.token false) = parameters :=
  (List.map_congr_left fun parameter _ => change.token_false parameter).trans
    (List.map_id parameters)

@[simp]
theorem fresh_false
    (change : Change)
    (name : Text) :
    change.Fresh false name :=
  nofun

/-- Different names stay different in a scope that has no new name yet. -/
theorem name_inj
    {marked : Bool}
    {first second : Text}
    (firstFresh : change.Fresh marked first)
    (secondFresh : change.Fresh marked second) :
    change.name marked first = change.name marked second ↔
      first = second := by
  cases change with
  | none =>
      exact Iff.rfl
  | some names =>
      exact Renaming.name_inj (firstFresh names rfl) (secondFresh names rfl)

/-- A name that all scopes may have is fresh in the one that a distance leads to. -/
theorem Avoids.fresh
    {distance other : Nat}
    {marked : Bool}
    {name : Text}
    (avoids : change.Avoids outline name)
    (meets : outline.Meets distance other marked) :
    change.Fresh marked name := by
  induction meets with
  | rest =>
      exact change.fresh_false name
  | here marked =>
      exact avoids marked List.mem_cons_self
  | both _ _ inductionHypothesis | left _ inductionHypothesis
  | right _ inductionHypothesis =>
      exact inductionHypothesis
        fun marked member => avoids marked (List.mem_cons_of_mem _ member)

theorem Keeps.token
    {marked : Bool}
    {token : Token}
    (keeps : change.Keeps outline marked token.lexeme) :
    change.token marked token = token := by
  rw [Change.token, keeps.same]

/-- Where no scope is marked every name is fresh. -/
theorem avoids_of_shared
    (shared : ∀ side ∈ outline, side = .both false)
    (name : Text) :
    change.Avoids outline name := by
  intro marked member
  cases shared _ member
  exact change.fresh_false name

theorem keeps_of_shared
    (shared : ∀ side ∈ outline, side = .both false)
    (name : Text) :
    change.Keeps outline false name :=
  ⟨avoids_of_shared shared name, change.name_false name⟩

/-- Where nothing is changed every name is fresh and stays. -/
theorem avoids_none
    (outline : Outline)
    (name : Text) :
    Change.Avoids none outline name :=
  fun _ _ _ => nofun

theorem keeps_none
    (outline : Outline)
    (marked : Bool)
    (name : Text) :
    Change.Keeps none outline marked name :=
  ⟨avoids_none outline name, rfl⟩

theorem isProper_none : Change.IsProper none :=
  fun _ => nofun

/-- The name of the receiver is that of no other variable, and is not changed. -/
theorem IsProper.fresh_receiver
    (proper : change.IsProper)
    (marked : Bool) :
    change.Fresh marked Site.receiverName :=
  fun names isChange _ => (proper names isChange).new.symm

theorem IsProper.name_receiver
    (proper : change.IsProper)
    (marked : Bool) :
    change.name marked Site.receiverName = Site.receiverName := by
  cases change with
  | none =>
      rfl
  | some names =>
      exact Renaming.name_of_ne (proper names rfl).old.symm marked

end Change

end Script
