import Script.Proofs.Alignment.Tree

namespace Script

/-!
# Outlines of marked scopes

When a variable is renamed, both programs have the same scopes, and those in which the
old name is changed are marked.  A distance leads to the same scope as itself and to no
other one.
-/

namespace Marks

/-- The scopes around a place, which both programs have. -/
def outline (marks : Marks) : Outline :=
  marks.map .both

variable {marks : Marks}

theorem meets
    (marks : Marks)
    (distance : Nat) :
    marks.outline.Meets distance distance (marks.getD distance false) := by
  induction marks generalizing distance with
  | nil =>
      exact .rest distance
  | cons marked marks inductionHypothesis =>
      cases distance with
      | zero =>
          exact .here marked _
      | succ distance =>
          exact .both marked (inductionHypothesis distance)

/-- A distance leads to the same scope as itself. -/
theorem meetsOption
    (marks : Marks)
    (distance : Option Nat) :
    marks.outline.MeetsOption distance distance (marks.atDistance distance) := by
  cases distance with
  | none =>
      exact .global
  | some distance =>
      exact .local (marks.meets distance)

/-- The innermost scope has its own mark. -/
theorem common (marks : Marks) : marks.outline.Common marks.innermost := by
  cases marks with
  | nil =>
      exact Outline.common_nil
  | cons marked marks =>
      exact Outline.common_both marked _

theorem eq_of_meets
    {distance other : Nat}
    {marked : Bool}
    (meets : marks.outline.Meets distance other marked) :
    other = distance ∧ marked = marks.getD distance false := by
  induction marks generalizing distance other with
  | nil =>
      cases meets
      exact ⟨rfl, rfl⟩
  | cons first rest inductionHypothesis =>
      cases meets with
      | here =>
          exact ⟨rfl, rfl⟩
      | both _ outside =>
          obtain ⟨rfl, rfl⟩ := inductionHypothesis outside
          exact ⟨rfl, rfl⟩

/-- A distance leads to the same scope as no other one. -/
theorem eq_of_meetsOption
    {distance other : Option Nat}
    {marked : Bool}
    (meets : marks.outline.MeetsOption distance other marked) :
    other = distance ∧ marked = marks.atDistance distance := by
  cases meets with
  | global =>
      exact ⟨rfl, rfl⟩
  | «local» meets =>
      obtain ⟨rfl, rfl⟩ := eq_of_meets meets
      exact ⟨rfl, rfl⟩

theorem eq_of_common
    {marked : Bool}
    (common : marks.outline.Common marked) :
    marked = marks.innermost :=
  common.marked_eq marks.common

/-- A distance that leads to a marked scope leads to one that is around. -/
theorem mem_of_atDistance
    {distance : Option Nat}
    (marked : marks.atDistance distance = true) :
    true ∈ marks := by
  cases distance with
  | none =>
      cases marked
  | some distance =>
      rw [atDistance, List.getD_eq_getElem?_getD] at marked
      cases found : marks[distance]? with
      | none =>
          rw [found] at marked
          cases marked
      | some mark =>
          rw [found] at marked
          cases marked
          exact List.mem_of_getElem? found

end Marks

section Names

variable {names : Renaming} {marks : Marks}

@[simp]
theorem Change.name_some
    (names : Renaming)
    (marked : Bool) :
    Change.name (some names) marked = names.name marked :=
  rfl

@[simp]
theorem Change.token_some
    (names : Renaming)
    (marked : Bool) :
    Change.token (some names) marked = names.token marked :=
  rfl

/-- Inside of a marked scope a name is not the new one. -/
theorem Change.Avoids.ne
    {name : Text}
    (avoids : Change.Avoids (some names) marks.outline name)
    (marked : true ∈ marks) :
    name ≠ names.new :=
  avoids true (List.mem_map_of_mem marked) names rfl rfl

theorem Renaming.IsProper.change
    (proper : names.IsProper) :
    Change.IsProper (some names) := by
  rintro _ ⟨⟩
  exact proper

end Names

end Script
