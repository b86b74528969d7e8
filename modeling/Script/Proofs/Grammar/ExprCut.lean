import Script.Proofs.Grammar.ExprComplete

namespace Script

/-!
# Expressions that are cut short

When the input ends in the middle of a derived phrase, the parser reads all that
there is and complains about nothing but the end of the input.  The parts of the
phrase that are there completely are read as they are derived; the part in which
the input ends leaves the parser at the end, and from there every function either
gives what it has or fails at the end.
-/

namespace Cursor

/-- More input could still mend every problem so far. -/
structure Hopeful (cursor : Cursor) : Prop where
  ending : cursor.ending.kind = .endOfInput
  incomplete : ∀ problem ∈ cursor.reported, problem.incomplete = true

/-- All input has been read, and more input could still mend every problem. -/
structure Spent (cursor : Cursor) : Prop extends cursor.Hopeful where
  rest : cursor.rest = []

theorem Hopeful.spent
    {cursor : Cursor}
    (hopeful : cursor.Hopeful) :
    Spent { cursor with rest := [] } :=
  { hopeful with rest := rfl }

end Cursor

namespace Step

theorem bind_done
    (value : α)
    (cursor : Cursor)
    (next : α → Cursor → Step β) :
    (Step.done value cursor).bind next = next value cursor :=
  rfl

/-- A step ends at the end of the input, and more input could still mend every
problem. -/
def Halts (step : Step α) : Prop :=
  step.cursor.Spent

namespace Halts

theorem bind
    {step : Step α}
    {next : α → Cursor → Step β}
    (first : step.Halts)
    (second :
      ∀ value after, after.Spent → (next value after).Halts) :
    (step.bind next).Halts := by
  cases step with
  | failed after =>
      exact first
  | done value after =>
      exact second value after first

theorem map
    {step : Step α}
    (halts : step.Halts)
    (change : α → β) :
    (step.map change).Halts :=
  halts.bind fun _ _ spent => spent

end Halts

end Step

namespace Cursor

/-- A nested construct for which there is room halts when its inside does. -/
theorem nested_halts
    {cursor : Cursor}
    {opening : Token}
    {body : Cursor → Step α}
    (room : cursor.depth < maximalDepth)
    (inside : (body { cursor with depth := cursor.depth + 1 }).Halts) :
    (cursor.nested opening body).Halts := by
  simp only [nested, enter, room, ↓reduceIte, Step.bind]
  cases shape : body { cursor with depth := cursor.depth + 1 } with
  | done value after | failed after =>
      rw [shape] at inside
      exact ⟨⟨inside.ending, inside.incomplete⟩, inside.rest⟩

namespace Spent

variable {cursor : Cursor}

theorem peek (spent : cursor.Spent) : cursor.peek = cursor.ending := by
  unfold Cursor.peek
  rw [spent.rest, List.headD_nil]

/-- A complaint about the end can be mended. -/
theorem report
    (spent : cursor.Spent)
    (problem : Problem) :
    (cursor.report cursor.peek problem).Spent := by
  refine ⟨⟨spent.ending, ?_⟩, spent.rest⟩
  intro found member
  rcases List.mem_cons.mp member with rfl | member
  · simp [Diagnostic.incomplete, Diagnostic.atToken, spent.peek, spent.ending]
  · exact spent.incomplete found member

theorem accept?
    (spent : cursor.Spent)
    (kind : TokenKind) :
    cursor.accept? kind = none := by
  unfold Cursor.accept?
  rw [spent.rest]

/-- An expected token is missing, whatever would be done behind it. -/
theorem expectBind
    (spent : cursor.Spent)
    (kind : TokenKind)
    (what : Expectation)
    (next : Token → Cursor → Step α) :
    ((cursor.expect kind what).bind next).Halts := by
  unfold Cursor.expect
  rw [spent.accept?]
  exact spent.report _

end Spent

end Cursor

namespace Expr.Parser

section Spent

variable {cursor : Cursor}

theorem primary_spent
    (spent : cursor.Spent)
    (fuel : Nat) :
    (primary fuel cursor).Halts := by
  cases fuel with
  | zero =>
      rw [primary]
      exact spent
  | succ fuel =>
      rw [primary, spent.rest]
      exact spent.report _

theorem trailers_spent
    (spent : cursor.Spent)
    (fuel : Nat)
    (callee : Expr) :
    (trailers fuel callee cursor).Halts := by
  cases fuel with
  | zero =>
      rw [trailers]
      exact spent
  | succ fuel =>
      rw [trailers, spent.accept?, spent.accept?]
      exact spent

theorem operators_spent
    (spent : cursor.Spent)
    (fuel level : Nat)
    (left : Expr) :
    (operators fuel level left cursor).Halts := by
  cases fuel with
  | zero =>
      rw [operators]
      exact spent
  | succ fuel =>
      rw [operators, spent.rest]
      exact spent

theorem operand_spent
    (spent : cursor.Spent)
    (fuel : Nat) :
    (operand fuel cursor).Halts := by
  cases fuel with
  | zero =>
      rw [operand]
      exact spent
  | succ fuel =>
      rw [operand, spent.accept?, spent.accept?]
      exact (primary_spent spent fuel).bind
        fun callee _ after => trailers_spent after fuel callee

theorem operation_spent
    (spent : cursor.Spent)
    (fuel level : Nat) :
    (operation fuel level cursor).Halts := by
  cases fuel with
  | zero =>
      rw [operation]
      exact spent
  | succ fuel =>
      rw [operation]
      exact (operand_spent spent fuel).bind
        fun left _ after => operators_spent after fuel level left

/-- Nothing is assigned at the end of the input. -/
theorem unassigned_spent
    (spent : cursor.Spent)
    (fuel : Nat)
    (target : Expr) :
    (match cursor.accept? .equal with
      | none =>
          .done target cursor
      | some (equals, cursor) =>
          (expression fuel cursor).bind fun value cursor =>
            assignTo target equals value cursor : Step Expr).Halts := by
  rw [spent.accept?]
  exact spent

theorem expression_spent
    (spent : cursor.Spent)
    (fuel : Nat) :
    (expression fuel cursor).Halts := by
  cases fuel with
  | zero =>
      rw [expression]
      exact spent
  | succ fuel =>
      rw [expression]
      exact (operation_spent spent fuel 0).bind
        fun target _ after => unassigned_spent after fuel target

theorem countArgument_spent
    (spent : cursor.Spent)
    (collected : List Expr) :
    (countArgument collected cursor).Spent := by
  unfold countArgument
  split
  · exact spent.report _
  · exact spent

/-- There is no further argument at the end of the input. -/
theorem lastArgument_spent
    (spent : cursor.Spent)
    (fuel : Nat)
    (collected : List Expr) :
    (match cursor.accept? .comma with
      | some (_, cursor) =>
          arguments fuel collected cursor
      | none =>
          .done collected.reverse cursor : Step (List Expr)).Halts := by
  rw [spent.accept?]
  exact spent

theorem arguments_spent
    (spent : cursor.Spent)
    (fuel : Nat)
    (collected : List Expr) :
    (arguments fuel collected cursor).Halts := by
  cases fuel with
  | zero =>
      rw [arguments]
      exact spent
  | succ fuel =>
      rw [arguments]
      exact (expression_spent (countArgument_spent spent collected) fuel).bind
        fun argument _ after =>
          lastArgument_spent after fuel (argument :: collected)

end Spent

end Expr.Parser

end Script

namespace Script.Grammar

/-- The beginning of two parts in a row ends in the first part or goes on behind
it. -/
theorem prefix_append_cases
    {read before after : List α}
    (beginning : read <+: before ++ after) :
    read <+: before ∨
      ∃ rest, read = before ++ rest ∧ rest <+: after ∧ rest ≠ [] := by
  induction before generalizing read with
  | nil =>
      by_cases empty : read = []
      · exact .inl (empty ▸ List.nil_prefix)
      · exact .inr ⟨read, rfl, beginning, empty⟩
  | cons first before inductionHypothesis =>
      rw [List.cons_append] at beginning
      rcases List.prefix_cons_iff.mp beginning with rfl | ⟨more, rfl, goesOn⟩
      · exact .inl List.nil_prefix
      · rcases inductionHypothesis goesOn with cut | ⟨rest, rfl, behind⟩
        · exact .inl (List.cons_prefix_cons.mpr ⟨rfl, cut⟩)
        · exact .inr ⟨rest, rfl, behind⟩

/-- The beginning of two parts with a token between them ends in the first part
or goes on behind the token. -/
theorem prefix_append_cons_cases
    {read before after : List α}
    {between : α}
    (beginning : read <+: before ++ between :: after) :
    read <+: before ∨
      ∃ rest, read = before ++ between :: rest ∧ rest <+: after := by
  rcases prefix_append_cases beginning with cut | ⟨rest, rfl, goesOn, some⟩
  · exact .inl cut
  · rcases List.prefix_cons_iff.mp goesOn with rfl | ⟨more, rfl, behind⟩
    · exact (some rfl).elim
    · exact .inr ⟨more, rfl, behind⟩

open Expr.Parser in
/-- What the parser does with the beginning of a phrase at the end of the input,
given a sufficient bound and room for the constructs in the phrase. -/
def CutExpr :
    (phrase : ExprPhrase) → Nat → List Token → phrase.Tree → Prop
  | .expression, room, tokens, _ =>
      ∀ (fuel : Nat) (cursor : Cursor) (read : List Token),
        read <+: tokens →
        cursor.Hopeful →
        cursor.depth + room ≤ Cursor.maximalDepth →
        6 * read.length + 4 ≤ fuel →
        (expression fuel { cursor with rest := read }).Halts
  | .operation level, room, tokens, _ =>
      ∀ (fuel asked : Nat) (cursor : Cursor) (read : List Token),
        read <+: tokens →
        cursor.Hopeful →
        cursor.depth + room ≤ Cursor.maximalDepth →
        6 * read.length + 3 ≤ fuel →
        asked ≤ level →
        (operation fuel asked { cursor with rest := read }).Halts
  | .operand, room, tokens, _ =>
      ∀ (fuel : Nat) (cursor : Cursor) (read : List Token),
        read <+: tokens →
        cursor.Hopeful →
        cursor.depth + room ≤ Cursor.maximalDepth →
        6 * read.length + 2 ≤ fuel →
        (operand fuel { cursor with rest := read }).Halts
  | .call, room, tokens, _ =>
      ∀ (fuel : Nat) (cursor : Cursor) (read : List Token),
        read <+: tokens →
        cursor.Hopeful →
        cursor.depth + room ≤ Cursor.maximalDepth →
        6 * read.length + 2 ≤ fuel →
        (operand fuel { cursor with rest := read }).Halts
  | .arguments, room, tokens, trees =>
      ∀ (fuel : Nat) (collected : List Expr) (cursor : Cursor)
          (read : List Token),
        read <+: tokens →
        cursor.Hopeful →
        cursor.depth + room ≤ Cursor.maximalDepth →
        6 * read.length + 5 ≤ fuel →
        collected.length + trees.length ≤ longestList →
        (arguments fuel collected { cursor with rest := read }).Halts
  | .primary, room, tokens, _ =>
      ∀ (fuel : Nat) (cursor : Cursor) (read : List Token),
        read <+: tokens →
        cursor.Hopeful →
        cursor.depth + room ≤ Cursor.maximalDepth →
        6 * read.length + 1 ≤ fuel →
        (primary fuel { cursor with rest := read }).Halts

namespace CutExpr

open Expr.Parser

variable {room level : Nat} {tokens before : List Token} {tree : Expr}

/-- A token that is an expression by itself. -/
theorem single
    {token : Token}
    (shape : Expr.ofToken? token = some tree) :
    CutExpr .primary room [token] tree := by
  intro fuel cursor read beginning hopeful depth enough
  obtain ⟨fuel, rfl⟩ := Nat.exists_eq_add_of_le' (show 1 ≤ fuel by omega)
  rcases List.prefix_cons_iff.mp beginning with rfl | ⟨rest, rfl, nothing⟩
  · exact primary_spent hopeful.spent _
  · rw [List.prefix_nil.mp nothing, Expr.Parser.primary]
    simp only [shape]
    exact hopeful.spent

theorem group
    {opening closing : Token}
    {inner : Expr}
    (openingKind : opening.kind = .leftParen)
    (innerCompletes : CompletesExpr .expression room tokens inner)
    (innerCut : CutExpr .expression room tokens inner)
    (closingKind : closing.kind = .rightParen) :
    CutExpr .primary (room + 1) (opening :: tokens ++ [closing])
      (.group inner) := by
  intro fuel cursor read beginning hopeful depth enough
  obtain ⟨fuel, rfl⟩ := Nat.exists_eq_add_of_le' (show 1 ≤ fuel by omega)
  rw [List.cons_append] at beginning
  rcases List.prefix_cons_iff.mp beginning with rfl | ⟨inside, rfl, goesOn⟩
  · exact primary_spent hopeful.spent _
  have notSingle : Expr.ofToken? opening = none := by
    simp [Expr.ofToken?, openingKind]
  have hopefulInside :
      Cursor.Hopeful { cursor with depth := cursor.depth + 1 } :=
    ⟨hopeful.ending, hopeful.incomplete⟩
  simp only [List.length_cons] at enough
  rw [Expr.Parser.primary]
  simp only [notSingle, openingKind, ↓reduceIte]
  refine Cursor.nested_halts (by simp only; omega) ?_
  simp only
  rcases prefix_append_cons_cases goesOn with cut | ⟨rest, rfl, nothing⟩
  · have halts :=
      innerCut fuel { cursor with depth := cursor.depth + 1 } inside cut
        hopefulInside (by simp only; omega) (by omega)
    exact halts.bind fun value after spent => spent.expectBind _ _ _
  · obtain rfl := List.prefix_nil.mp nothing
    have inside :=
      innerCompletes fuel { cursor with depth := cursor.depth + 1 } [closing]
        (by simp only; omega)
        (by simp only [List.length_append, List.length_singleton] at *; omega)
        (.of_kind _ (by simp [closingKind]))
    simp only at inside
    rw [inside]
    simp only [Step.bind, Cursor.expect_of_kind closingKind, Step.map]
    exact hopefulInside.spent

/-- Behind a primary expression the parser looks for calls. -/
theorem call_of_primary
    {first : Token}
    {others : List Token}
    (shape : tokens = first :: others)
    (starter : first.kind ∈ primaryStarters)
    (cut : CutExpr .primary room tokens tree) :
    CutExpr .call room tokens tree := by
  intro fuel cursor read beginning hopeful depth enough
  obtain ⟨fuel, rfl⟩ := Nat.exists_eq_add_of_le' (show 1 ≤ fuel by omega)
  have noUnary :
      ∀ kind ∈ ([.bang, .minus] : List TokenKind),
        Cursor.accept? { cursor with rest := read } kind = none := by
    intro kind unary
    refine Cursor.accept?_eq_none_iff.mpr fun token rest found same => ?_
    subst shape found
    obtain ⟨rfl, -⟩ := List.cons_prefix_cons.mp beginning
    simp only [List.mem_cons, List.not_mem_nil, or_false] at unary
    rcases unary with rfl | rfl <;>
      simp [same, primaryStarters] at starter
  rw [Expr.Parser.operand, noUnary .bang (by simp),
    noUnary .minus (by simp)]
  exact (cut fuel cursor read beginning hopeful depth (by omega)).bind
    fun callee _ after => trailers_spent after fuel callee

theorem callNothing
    {opening closing : Token}
    {callee : Expr}
    (calleeCompletes : CompletesExpr .call room before callee)
    (calleeCut : CutExpr .call room before callee)
    (openingKind : opening.kind = .leftParen)
    (closingKind : closing.kind = .rightParen) :
    CutExpr .call room (before ++ [opening, closing])
      (.call callee closing []) := by
  intro fuel cursor read beginning hopeful depth enough
  rcases prefix_append_cons_cases beginning with cut | ⟨rest, rfl, goesOn⟩
  · exact calleeCut fuel cursor read cut hopeful depth enough
  simp only [List.length_append, List.length_cons] at enough
  obtain ⟨left, leftEnough, reached⟩ :=
    calleeCompletes fuel cursor (opening :: rest) depth
      (by simp only [List.length_cons]; omega)
  simp only [List.length_cons] at leftEnough
  obtain ⟨left, rfl⟩ := Nat.exists_eq_add_of_le' (show 1 ≤ left by omega)
  rw [reached, Expr.Parser.trailers]
  simp only [Cursor.accept?_of_kind openingKind]
  rcases List.prefix_cons_iff.mp goesOn with rfl | ⟨last, rfl, nothing⟩
  · have spent := hopeful.spent
    simp only [spent.accept?]
    exact (arguments_spent spent left []).bind fun arguments _ after =>
      after.expectBind _ _ _
  · obtain rfl := List.prefix_nil.mp nothing
    simp only [Cursor.accept?_of_kind closingKind]
    exact trailers_spent hopeful.spent left _

theorem callArguments
    {opening closing : Token}
    {callee : Expr}
    {arguments : List Expr}
    (calleeCompletes : CompletesExpr .call room before callee)
    (calleeCut : CutExpr .call room before callee)
    (openingKind : opening.kind = .leftParen)
    (argumentsCompletes : CompletesExpr .arguments room tokens arguments)
    (argumentsCut : CutExpr .arguments room tokens arguments)
    (starts :
      ∃ first rest,
        tokens = first :: rest ∧
          first.kind ∈ ExprPhrase.arguments.starters)
    (few : arguments.length ≤ longestList)
    (closingKind : closing.kind = .rightParen) :
    CutExpr .call room (before ++ opening :: tokens ++ [closing])
      (.call callee closing arguments) := by
  intro fuel cursor read beginning hopeful depth enough
  rw [List.append_assoc, List.cons_append] at beginning
  rcases prefix_append_cons_cases beginning with cut | ⟨rest, rfl, goesOn⟩
  · exact calleeCut fuel cursor read cut hopeful depth enough
  simp only [List.length_append, List.length_cons] at enough
  obtain ⟨left, leftEnough, reached⟩ :=
    calleeCompletes fuel cursor (opening :: rest) depth
      (by simp only [List.length_cons]; omega)
  simp only [List.length_cons] at leftEnough
  obtain ⟨left, rfl⟩ := Nat.exists_eq_add_of_le' (show 1 ≤ left by omega)
  have notClosed :
      Cursor.accept? { cursor with rest } .rightParen = none := by
    obtain ⟨first, others, rfl, starter⟩ := starts
    refine Cursor.accept?_eq_none_iff.mpr fun token last found same => ?_
    subst found
    obtain ⟨rfl, -⟩ := List.cons_prefix_cons.mp goesOn
    simp [same, ExprPhrase.starters, primaryStarters] at starter
  rw [reached, Expr.Parser.trailers]
  simp only [Cursor.accept?_of_kind openingKind, notClosed]
  rcases prefix_append_cons_cases goesOn with cut | ⟨last, rfl, nothing⟩
  · have halts :=
      argumentsCut left [] cursor rest cut hopeful depth (by omega)
        (by simpa using few)
    exact halts.bind fun arguments _ after =>
      after.expectBind _ _ _
  · obtain rfl := List.prefix_nil.mp nothing
    have inside :=
      argumentsCompletes left [] cursor [closing] depth
        (by simp only [List.length_append, List.length_singleton] at *; omega)
        ⟨closing, [], rfl, closingKind⟩ (by simpa using few)
    simp only [inside, Step.bind, Cursor.expect_of_kind closingKind]
    exact trailers_spent hopeful.spent left _

theorem property
    {dot name : Token}
    {object : Expr}
    (objectCompletes : CompletesExpr .call room before object)
    (objectCut : CutExpr .call room before object)
    (dotKind : dot.kind = .dot)
    (nameKind : name.kind = .identifier) :
    CutExpr .call room (before ++ [dot, name]) (.property object name) := by
  intro fuel cursor read beginning hopeful depth enough
  rcases prefix_append_cons_cases beginning with cut | ⟨rest, rfl, goesOn⟩
  · exact objectCut fuel cursor read cut hopeful depth enough
  simp only [List.length_append, List.length_cons] at enough
  obtain ⟨left, leftEnough, reached⟩ :=
    objectCompletes fuel cursor (dot :: rest) depth
      (by simp only [List.length_cons]; omega)
  simp only [List.length_cons] at leftEnough
  obtain ⟨left, rfl⟩ := Nat.exists_eq_add_of_le' (show 1 ≤ left by omega)
  have noCall :
      Cursor.accept? { cursor with rest := dot :: rest } .leftParen = none :=
    Cursor.accept?_of_ne (by simp [dotKind])
  rw [reached, Expr.Parser.trailers]
  simp only [noCall, Cursor.accept?_of_kind dotKind]
  rcases List.prefix_cons_iff.mp goesOn with rfl | ⟨last, rfl, nothing⟩
  · exact hopeful.spent.expectBind _ _ _
  · obtain rfl := List.prefix_nil.mp nothing
    simp only [Cursor.expect_of_kind nameKind, Step.bind]
    exact trailers_spent hopeful.spent left _

theorem unary
    {operator : Token}
    {operand : Expr}
    (operatorKind : operator.kind = .bang ∨ operator.kind = .minus)
    (cut : CutExpr .operand room tokens operand) :
    CutExpr .operand (room + 1) (operator :: tokens)
      (.unary operator operand) := by
  intro fuel cursor read beginning hopeful depth enough
  obtain ⟨fuel, rfl⟩ := Nat.exists_eq_add_of_le' (show 1 ≤ fuel by omega)
  rcases List.prefix_cons_iff.mp beginning with rfl | ⟨rest, rfl, goesOn⟩
  · exact operand_spent hopeful.spent _
  simp only [List.length_cons] at enough
  have accepted :
      (Cursor.accept? { cursor with rest := operator :: rest } .bang).or
        (Cursor.accept? { cursor with rest := operator :: rest } .minus) =
        some (operator, { cursor with rest }) := by
    rcases operatorKind with kind | kind
    · rw [Cursor.accept?_of_kind kind, Option.some_or]
    · rw [Cursor.accept?_of_ne (by simp [kind]), Option.none_or,
        Cursor.accept?_of_kind kind]
  rw [Expr.Parser.operand]
  simp only [accepted]
  refine Cursor.nested_halts (by simp only; omega) ?_
  have halts :=
    cut fuel { cursor with depth := cursor.depth + 1 } rest goesOn
      ⟨hopeful.ending, hopeful.incomplete⟩ (by simp only; omega) (by omega)
  exact halts.map _

/-- Behind an operand the parser looks for operators, at whatever level. -/
theorem operation_of_operand
    (cut : CutExpr .operand room tokens tree) :
    CutExpr (.operation level) room tokens tree := by
  intro fuel asked cursor read beginning hopeful depth enough _
  obtain ⟨fuel, rfl⟩ := Nat.exists_eq_add_of_le' (show 1 ≤ fuel by omega)
  rw [Expr.Parser.operation]
  exact (cut fuel cursor read beginning hopeful depth (by omega)).bind
    fun left _ after => operators_spent after fuel asked left

theorem join
    {after : List Token}
    {operator : Token}
    {left right : Expr}
    (leftCompletes : CompletesExpr (.operation level) room before left)
    (leftCut : CutExpr (.operation level) room before left)
    (operatorKind : operator.kind ∈ operatorsOf level)
    (rightCut : CutExpr (.operation (level + 1)) room after right) :
    CutExpr (.operation level) room (before ++ operator :: after)
      (combine level left operator right) := by
  intro fuel asked cursor read beginning hopeful depth enough asks
  rcases prefix_append_cons_cases beginning with cut | ⟨rest, rfl, goesOn⟩
  · exact leftCut fuel asked cursor read cut hopeful depth enough asks
  simp only [List.length_append, List.length_cons] at enough
  obtain ⟨fuelLeft, leftEnough, reached⟩ :=
    leftCompletes fuel asked cursor (operator :: rest) depth
      (by simp only [List.length_cons]; omega) asks
      (.of_operator operatorKind)
  simp only [List.length_cons] at leftEnough
  obtain ⟨fuelLeft, rfl⟩ :=
    Nat.exists_eq_add_of_le' (show 1 ≤ fuelLeft by omega)
  rw [reached, operators]
  simp only [precedence?_eq_some_iff.mpr operatorKind,
    Nat.not_lt_of_le asks, ↓reduceIte]
  have halts :=
    rightCut fuelLeft (level + 1) cursor rest goesOn hopeful depth (by omega)
      le_rfl
  exact halts.bind fun right _ after =>
    operators_spent after fuelLeft asked _

theorem tighter
    (cut : CutExpr (.operation (level + 1)) room tokens tree) :
    CutExpr (.operation level) room tokens tree := by
  intro fuel asked cursor read beginning hopeful depth enough asks
  exact cut fuel asked cursor read beginning hopeful depth enough (by omega)

theorem expression_of_operation
    (cut : CutExpr (.operation 0) room tokens tree) :
    CutExpr .expression room tokens tree := by
  intro fuel cursor read beginning hopeful depth enough
  obtain ⟨fuel, rfl⟩ := Nat.exists_eq_add_of_le' (show 1 ≤ fuel by omega)
  rw [expression]
  have halts :=
    cut fuel 0 cursor read beginning hopeful depth (by omega) le_rfl
  exact halts.bind fun target _ after => unassigned_spent after fuel target

/-- The value behind a target makes an assignment. -/
theorem assignment
    {equals : Token}
    {target value : Expr}
    {assigned : Expr → Expr}
    (targetCompletes : CompletesExpr (.operation 0) room before target)
    (targetCut : CutExpr (.operation 0) room before target)
    (equalsKind : equals.kind = .equal)
    (valueCut : CutExpr .expression room tokens value)
    (assigns :
      ∀ value cursor,
        Expr.assignTo target equals value cursor =
          .done (assigned value) cursor) :
    CutExpr .expression room (before ++ equals :: tokens)
      (assigned value) := by
  intro fuel cursor read beginning hopeful depth enough
  rcases prefix_append_cons_cases beginning with cut | ⟨rest, rfl, goesOn⟩
  · exact expression_of_operation targetCut fuel cursor read cut hopeful depth
      enough
  simp only [List.length_append, List.length_cons] at enough
  obtain ⟨fuel, rfl⟩ := Nat.exists_eq_add_of_le' (show 1 ≤ fuel by omega)
  rw [expression,
    targetCompletes.operation_done depth (by omega) (by simp [equalsKind])]
  simp only [Step.bind, Cursor.accept?_of_kind equalsKind, assigns]
  have halts := valueCut fuel cursor rest goesOn hopeful depth (by omega)
  exact halts.bind fun value _ after => after

theorem lastArgument
    {argument : Expr}
    (cut : CutExpr .expression room tokens argument) :
    CutExpr .arguments room tokens [argument] := by
  intro fuel collected cursor read beginning hopeful depth enough few
  obtain ⟨fuel, rfl⟩ := Nat.exists_eq_add_of_le' (show 1 ≤ fuel by omega)
  simp only [List.length_singleton] at few
  rw [arguments,
    countArgument_of_lt (show collected.length < longestList by omega)]
  have halts := cut fuel cursor read beginning hopeful depth (by omega)
  exact halts.bind fun argument _ after =>
    lastArgument_spent after fuel (argument :: collected)

theorem moreArguments
    {comma : Token}
    {rest : List Token}
    {argument : Expr}
    {arguments : List Expr}
    (firstCompletes : CompletesExpr .expression room tokens argument)
    (firstCut : CutExpr .expression room tokens argument)
    (commaKind : comma.kind = .comma)
    (restCut : CutExpr .arguments room rest arguments) :
    CutExpr .arguments room (tokens ++ comma :: rest)
      (argument :: arguments) := by
  intro fuel collected cursor read beginning hopeful depth enough few
  simp only [List.length_cons] at few
  rcases prefix_append_cons_cases beginning with cut | ⟨last, rfl, goesOn⟩
  · exact lastArgument firstCut fuel collected cursor read cut hopeful depth
      enough (by simp only [List.length_singleton]; omega)
  simp only [List.length_append, List.length_cons] at enough
  obtain ⟨fuel, rfl⟩ := Nat.exists_eq_add_of_le' (show 1 ≤ fuel by omega)
  rw [Expr.Parser.arguments,
    countArgument_of_lt (show collected.length < longestList by omega),
    firstCompletes fuel cursor (comma :: last) depth
      (by simp only [List.length_cons]; omega)
      (.of_kind _ (by simp [commaKind]))]
  simp only [Step.bind, Cursor.accept?_of_kind commaKind]
  exact restCut fuel (argument :: collected) cursor last goesOn hopeful depth
    (by omega) (by simp only [List.length_cons]; omega)

end CutExpr

/-- The beginning of a derived phrase is read up to the end of the input. -/
theorem DerivesExpr.cut
    {phrase : ExprPhrase}
    {room : Nat}
    {tokens : List Token}
    {tree : phrase.Tree}
    (derived : DerivesExpr phrase room tokens tree) :
    CutExpr phrase room tokens tree := by
  induction derived with
  | @assignName room name equals tokens value nameKind equalsKind _ valueCut =>
      have target : DerivesExpr .call room [name] (.reference name none) :=
        .primary (.name nameKind)
      have targetCut : CutExpr .call room [name] (.reference name none) :=
        .call_of_primary rfl (by simp [primaryStarters, nameKind])
          (.single (by simp [Expr.ofToken?, nameKind]))
      have cut :
          CutExpr .expression room ([name] ++ equals :: tokens)
            (.assign name value none) :=
        .assignment
          (.operation_of_operand (.operand_of_call target.completes))
          (.operation_of_operand targetCut) equalsKind valueCut
          fun _ _ => rfl
      exact cut
  | @assignProperty room dot name equals before tokens object value
      objectDerived dotKind nameKind equalsKind _ objectCut valueCut =>
      have target := objectDerived.property dotKind nameKind
      have targetCut :=
        CutExpr.property objectDerived.completes objectCut dotKind nameKind
      have cut :
          CutExpr .expression room (before ++ [dot, name] ++ equals :: tokens)
            (.setProperty object name value) :=
        .assignment
          (.operation_of_operand (.operand_of_call target.completes))
          (.operation_of_operand targetCut) equalsKind valueCut
          fun _ _ => rfl
      simpa only [List.append_assoc, List.cons_append, List.nil_append]
        using cut
  | operation _ cut =>
      exact .expression_of_operation cut
  | join left kind _ leftCut rightCut =>
      exact .join left.completes leftCut kind rightCut
  | tighter _ _ cut =>
      exact .tighter cut
  | tightest _ cut =>
      exact .operation_of_operand cut
  | unary kind _ cut =>
      exact .unary kind cut
  | plain _ cut =>
      exact cut
  | primary derived cut =>
      obtain ⟨first, rest, shape, starter⟩ := derived.starts
      exact .call_of_primary shape starter cut
  | callNothing callee openingKind closingKind calleeCut =>
      exact .callNothing callee.completes calleeCut openingKind closingKind
  | callArguments callee openingKind arguments few closingKind calleeCut
      argumentsCut =>
      exact .callArguments callee.completes calleeCut openingKind
        arguments.completes argumentsCut arguments.starts few closingKind
  | property object dotKind nameKind objectCut =>
      exact .property object.completes objectCut dotKind nameKind
  | lastArgument _ cut =>
      exact .lastArgument cut
  | moreArguments first commaKind _ firstCut restCut =>
      exact .moreArguments first.completes firstCut commaKind restCut
  | falseWord kind | trueWord kind | nilWord kind | thisWord kind
  | name kind =>
      exact .single (by simp [Expr.ofToken?, kind])
  | literal kind =>
      refine .single ?_
      rcases kind with kind | kind <;> simp [Expr.ofToken?, kind]
  | group openingKind inner closingKind innerCut =>
      exact .group openingKind inner.completes innerCut closingKind

end Script.Grammar
