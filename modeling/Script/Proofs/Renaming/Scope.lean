import Script.Proofs.Renaming.Marks
import Script.Scope.Resolution

namespace Script

/-!
# Scope analysis and renaming

Scope analysis of a renamed program walks through renamed scopes.  A use is bound to
the same scope as before: the new name is found where the old one was, since no
scope on the way has the new name already, and another name is found where it
was.
-/

/-- A scope in which the old name is changed if the scope is marked. -/
def Scope.rename
    (names : Renaming)
    (marked : Bool)
    (scope : Scope) :
    Scope :=
  scope.map (Prod.map (names.name marked) id)

/-- Scopes that differ by a renaming.  From a marked scope inwards no scope has the
new name. -/
inductive Scope.AllRenamed (names : Renaming) :
    Marks → List Scope → List Scope → Prop where
  | nil :
      AllRenamed names [] [] []
  | cons
      {marked : Bool}
      {marks : Marks}
      {scope : Scope}
      {outer changed : List Scope} :
      (true ∈ marked :: marks → scope.lookup names.new = none) →
      AllRenamed names marks outer changed →
      AllRenamed names (marked :: marks) (scope :: outer)
        (scope.rename names marked :: changed)

/-- Places that differ by a renaming. -/
structure Site.Renamed
    (names : Renaming)
    (marks : Marks)
    (site changed : Site) :
    Prop where
  scopes : Scope.AllRenamed names marks site.scopes changed.scopes
  enclosure : changed.enclosure = site.enclosure
  inClass : changed.inClass = site.inClass

variable {names : Renaming} {marks : Marks}

namespace Scope

@[simp]
theorem rename_false (scope : Scope) : scope.rename names false = scope := by
  unfold rename
  refine (List.map_congr_left fun entry _ => ?_).trans (List.map_id scope)
  rw [Prod.map, names.name_false]
  rfl

theorem lookup_entry
    (scope : Scope)
    (bound name : Text)
    (ready : Bool) :
    List.lookup name ((bound, ready) :: scope) =
      if name = bound then some ready else scope.lookup name := by
  rw [List.lookup_cons]
  by_cases same : name = bound
  · simp [same]
  · have differs : (name == bound) = false := by
      simpa using same
    rw [differs, if_neg same]

/-- In a marked scope the new name stands for the old one, which is gone. -/
theorem lookup_rename_true
    (proper : names.IsProper)
    {scope : Scope}
    (fresh : scope.lookup names.new = none)
    (name : Text) :
    List.lookup name (scope.rename names true) =
      if name = names.new then
        scope.lookup names.old
      else if name = names.old then
        none
      else
        scope.lookup name := by
  have differ := proper.differ
  induction scope with
  | nil =>
      simp [rename]
  | cons entry rest inductionHypothesis =>
      obtain ⟨bound, ready⟩ := entry
      rw [lookup_entry] at fresh
      split at fresh
      · cases fresh
      · rename_i newDiffers
        have later := inductionHypothesis fresh
        have entryRenamed :
            rename names true ((bound, ready) :: rest) =
              (names.name true bound, ready) :: rename names true rest :=
          rfl
        simp only [entryRenamed, lookup_entry, later]
        by_cases wasOld : bound = names.old
        · subst wasOld
          by_cases isNew : name = names.new <;> simp [Renaming.name, isNew]
          by_cases isOld : name = names.old <;> simp [isOld]
        · rw [Renaming.name_of_ne wasOld]
          by_cases isBound : name = bound
          · subst isBound
            simp [Ne.symm newDiffers, wasOld]
          · simp [isBound, Ne.symm wasOld]

/-- A name is found in a renamed scope as it was before. -/
theorem lookup_rename
    (proper : names.IsProper)
    {scope : Scope}
    {marked : Bool}
    {name : Text}
    (fresh : marked = true → scope.lookup names.new = none)
    (avoids : marked = true → name ≠ names.new) :
    List.lookup (names.name marked name) (scope.rename names marked) =
      scope.lookup name := by
  cases marked with
  | false =>
      simp
  | true =>
      have differs := avoids rfl
      rw [lookup_rename_true proper (fresh rfl)]
      unfold Renaming.name
      by_cases isOld : name = names.old
      · simp [isOld]
      · simp [isOld, differs]

/-- A name that a scope does not have is not found in the renamed scope either,
whatever it is called further outside. -/
theorem lookup_rename_of_none
    (proper : names.IsProper)
    {scope : Scope}
    {marked outside : Bool}
    {name : Text}
    (fresh : marked = true ∨ outside = true → scope.lookup names.new = none)
    (avoids : marked = true ∨ outside = true → name ≠ names.new)
    (absent : scope.lookup name = none) :
    List.lookup (names.name outside name) (scope.rename names marked) =
      none := by
  have differ := proper.differ
  cases marked with
  | false =>
      rw [rename_false]
      cases outside with
      | false =>
          rwa [names.name_false]
      | true =>
          unfold Renaming.name
          split
          · exact fresh (.inr rfl)
          · exact absent
  | true =>
      have differs := avoids (.inl rfl)
      rw [lookup_rename_true proper (fresh (.inl rfl))]
      by_cases isOld : name = names.old
      · subst isOld
        cases outside with
        | false =>
            simp [differ.symm]
        | true =>
            simp [Renaming.name, absent]
      · simp [Renaming.name_of_ne isOld, differs, isOld, absent]

end Scope

namespace Marks

@[simp]
theorem atDistance_zero
    (marked : Bool)
    (marks : Marks) :
    Marks.atDistance (marked :: marks) (some 0) = marked :=
  rfl

@[simp]
theorem atDistance_succ
    (marked : Bool)
    (marks : Marks)
    (distance : Option Nat) :
    Marks.atDistance (marked :: marks) (distance.map (· + 1)) =
      marks.atDistance distance := by
  cases distance <;> rfl

end Marks

namespace Scope.AllRenamed

variable {scopes changed : List Scope} {name : Text}

/-- The name that a use has in the renamed program, given its name before. -/
abbrev boundName
    (names : Renaming)
    (marks : Marks)
    (scopes : List Scope)
    (name : Text) :
    Text :=
  names.name (marks.atDistance (scopes.findIdx? (·.declares name))) name

/-- The innermost scope has a use as it had it before. -/
theorem lookup_boundName
    (scopes : List Scope)
    (proper : names.IsProper)
    {marked : Bool}
    {scope : Scope}
    (fresh : true ∈ marked :: marks → scope.lookup names.new = none)
    (avoids : true ∈ marked :: marks → name ≠ names.new) :
    List.lookup (boundName names (marked :: marks) (scope :: scopes) name)
        (scope.rename names marked) =
      scope.lookup name := by
  unfold boundName
  rw [List.findIdx?_cons]
  cases found : scope.lookup name with
  | some ready =>
      rw [if_pos (by simp [Scope.declares, found]), Marks.atDistance_zero,
        Scope.lookup_rename proper, found]
      · rintro rfl
        exact fresh List.mem_cons_self
      · rintro rfl
        exact avoids List.mem_cons_self
  | none =>
      rw [if_neg (by simp [Scope.declares, found]), Marks.atDistance_succ]
      have around :
          marked = true ∨
              marks.atDistance (scopes.findIdx? (·.declares name)) = true →
            true ∈ marked :: marks := by
        rintro (rfl | marked)
        · exact List.mem_cons_self
        · exact List.mem_cons_of_mem _ (Marks.mem_of_atDistance marked)
      exact Scope.lookup_rename_of_none proper (fun either => fresh (around either))
        (fun either => avoids (around either)) found

/-- A use is bound at the same distance as before. -/
theorem findIdx?_boundName
    (proper : names.IsProper)
    (renamed : Scope.AllRenamed names marks scopes changed)
    (avoids : true ∈ marks → name ≠ names.new) :
    changed.findIdx? (·.declares (boundName names marks scopes name)) =
      scopes.findIdx? (·.declares name) := by
  induction renamed with
  | nil =>
      rfl
  | @cons marked marks scope outer changed fresh _ inductionHypothesis =>
      have here := lookup_boundName outer proper fresh avoids
      have outside :=
        inductionHypothesis fun member =>
          avoids (List.mem_cons_of_mem marked member)
      rw [List.findIdx?_cons, List.findIdx?_cons]
      unfold Scope.declares at here outside ⊢
      rw [here]
      split
      · rfl
      · rename_i absent
        rw [boundName, List.findIdx?_cons,
          if_neg (show ¬scope.declares name = true from absent),
          Marks.atDistance_succ]
        exact congrArg (Option.map (· + 1)) outside

end Scope.AllRenamed

namespace Site.Renamed

variable {site changed : Site} {name : Text}

theorem distance?
    (proper : names.IsProper)
    (renamed : site.Renamed names marks changed)
    (avoids : true ∈ marks → name ≠ names.new) :
    changed.distance?
        (names.name (marks.atDistance (site.distance? name)) name) =
      site.distance? name :=
  renamed.scopes.findIdx?_boundName proper avoids

theorem isPending
    (proper : names.IsProper)
    (renamed : site.Renamed names marks changed)
    (avoids : true ∈ marks → name ≠ names.new) :
    changed.isPending
        (names.name (marks.atDistance (site.distance? name)) name) =
      site.isPending name := by
  have scopesRenamed := renamed.scopes
  unfold Site.isPending Site.distance?
  generalize site.scopes = scopes, changed.scopes = changedScopes
    at scopesRenamed ⊢
  cases scopesRenamed with
  | nil =>
      rfl
  | cons fresh _ =>
      exact congrArg (· == some false)
        (Scope.AllRenamed.lookup_boundName _ proper fresh avoids)

/-- A name is declared in the innermost scope as it was before. -/
theorem hasInnermost
    (proper : names.IsProper)
    (renamed : site.Renamed names marks changed)
    (avoids : true ∈ marks → name ≠ names.new) :
    changed.hasInnermost (names.name marks.innermost name) =
      site.hasInnermost name := by
  have scopesRenamed := renamed.scopes
  unfold Site.hasInnermost
  generalize site.scopes = scopes, changed.scopes = changedScopes
    at scopesRenamed ⊢
  cases scopesRenamed with
  | nil =>
      rfl
  | cons fresh _ =>
      refine congrArg Option.isSome (Scope.lookup_rename proper ?_ ?_)
      · rintro rfl
        exact fresh List.mem_cons_self
      · rintro rfl
        exact avoids List.mem_cons_self

theorem bind
    (renamed : site.Renamed names marks changed)
    (avoids : true ∈ marks → name ≠ names.new)
    (ready : Bool) :
    (site.bind name ready).Renamed names marks
      (changed.bind (names.name marks.innermost name) ready) := by
  obtain ⟨scopesRenamed, enclosureSame, inClassSame⟩ := renamed
  rcases site with ⟨scopes, enclosure, inClass⟩
  rcases changed with ⟨changedScopes, changedEnclosure, changedInClass⟩
  cases scopesRenamed with
  | nil =>
      exact ⟨.nil, enclosureSame, inClassSame⟩
  | @cons marked marks scope _ _ fresh outer =>
      refine ⟨.cons ?_ outer, enclosureSame, inClassSame⟩
      intro member
      have differs : (names.new == name) = false := by
        simpa using (avoids member).symm
      rw [List.lookup_cons, differs]
      exact fresh member

theorem enter
    (renamed : site.Renamed names marks changed)
    (marked : Bool)
    (scope : Scope)
    (fresh : true ∈ marked :: marks → scope.lookup names.new = none) :
    (site.enter scope).Renamed names (marked :: marks)
      (changed.enter (scope.rename names marked)) where
  scopes := .cons fresh renamed.scopes
  enclosure := renamed.enclosure
  inClass := renamed.inClass

theorem inBlock
    (renamed : site.Renamed names marks changed)
    (marked : Bool) :
    (site.enter []).Renamed names (marked :: marks) (changed.enter []) :=
  renamed.enter marked [] fun _ => rfl

theorem inFunction
    (renamed : site.Renamed names marks changed)
    (enclosure : Enclosure)
    {marked : Bool}
    {parameters : List Token}
    (avoids :
      ∀ parameter ∈ parameters,
        Change.Avoids (some names) (Marks.outline (marked :: marks))
          parameter.lexeme) :
    (site.inFunction enclosure parameters).Renamed names (marked :: marks)
      (changed.inFunction enclosure (parameters.map (names.token marked))) := by
  have start :
      Site.Renamed names (marked :: marks) { site.enter [] with enclosure }
        { changed.enter [] with enclosure } :=
    { renamed.inBlock marked with enclosure := rfl }
  unfold Site.inFunction
  generalize { site.enter [] with enclosure } = inside at start ⊢
  generalize { changed.enter [] with enclosure } = changedInside at start ⊢
  induction parameters generalizing inside changedInside with
  | nil =>
      exact start
  | cons first rest inductionHypothesis =>
      refine inductionHypothesis
        (fun parameter member =>
          avoids parameter (List.mem_cons_of_mem first member)) _ _ ?_
      exact start.bind (avoids first List.mem_cons_self).ne true

theorem inClassBody
    (proper : names.IsProper)
    (renamed : site.Renamed names marks changed) :
    site.inClassBody.Renamed names (false :: marks) changed.inClassBody := by
  have inside :=
    renamed.enter false [(receiverName, true)]
      fun _ => by
        have differs : (names.new == receiverName) = false := by
          simpa using proper.new
        rw [List.lookup_cons, differs]
        rfl
  rw [Scope.rename_false] at inside
  exact { inside with inClass := rfl }

theorem receiverDistance?
    (proper : names.IsProper)
    (renamed : site.Renamed names marks changed) :
    changed.receiverDistance? = site.receiverDistance? := by
  have same := renamed.distance? proper fun _ => proper.new.symm
  rw [Renaming.name_of_ne proper.old.symm] at same
  unfold Site.receiverDistance?
  rw [renamed.inClass, same]

/-- A name that its scope does not change is bound in both. -/
theorem bind_keeps
    (renamed : site.Renamed names marks changed)
    {marked : Bool}
    (common : marks.outline.Common marked)
    (keeps : Change.Keeps (some names) marks.outline marked name)
    (ready : Bool) :
    (site.bind name ready).Renamed names marks (changed.bind name ready) := by
  obtain rfl := Marks.eq_of_common common
  have bound := renamed.bind keeps.avoids.ne ready
  have same := keeps.same
  rw [Change.name_some] at same
  rwa [same] at bound

/-- Behind a statement the places still differ by the renaming. -/
theorem after
    {marks : Marks}
    {site changed : Site}
    (renamed : site.Renamed names marks changed) :
    (stmt : Stmt) →
    {other : Stmt} →
    stmt.Aligned (some names) marks.outline other →
    (site.after stmt).Renamed names marks (changed.after other)
  | .expression _, _, .expression _ | .print _, _, .print _
  | .block _, _, .block _ _ | .returning _ _, _, .returning _ _
  | .missing, _, .missing =>
      renamed
  | .variableDecl _ _, _, .variableDecl common avoids _ => by
      obtain rfl := Marks.eq_of_common common
      exact renamed.bind avoids.ne true
  | .functionDecl _, _, .functionDecl common keeps (.mk _ _ _ _) =>
      renamed.bind_keeps common keeps true
  | .classDecl _ _, _, .classDecl common keeps _ =>
      renamed.bind_keeps common keeps true
  | .conditional _ consequent none, _, .conditional _ consequentRenamed => by
      rw [Site.after, Site.after]
      exact renamed.after consequent consequentRenamed
  | .conditional _ consequent (some alternative), _,
      .choice _ consequentRenamed alternativeRenamed => by
      rw [Site.after, Site.after]
      exact (renamed.after consequent consequentRenamed).after alternative
        alternativeRenamed
  | .loop _ body, _, .loop _ bodyRenamed => by
      rw [Site.after, Site.after]
      exact renamed.after body bodyRenamed

end Site.Renamed

end Script
