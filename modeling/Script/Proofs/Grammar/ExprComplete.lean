import Script.Proofs.Grammar.Expression
import Script.Proofs.Tree.Progress

namespace Script.Grammar

/-!
# Every derived expression is parsed

What the grammar derives, the parser reads, and the tree is the derived one.
For an expression this needs a token behind it that ends it.  For the phrases
that grow to the left the parser is still in the loop that looks for more, so
what is shown of them is that the loop is reached with the derived tree as its
left operand; an operator behind the phrase may then be taken by that loop.
-/

/-- Kinds of token with which a primary expression begins. -/
def primaryStarters : List TokenKind :=
  [.keyword .falseWord, .keyword .trueWord, .keyword .nilWord, .number,
   .string, .keyword .thisWord, .identifier, .leftParen]

/-- Kinds of token with which a phrase begins. -/
def ExprPhrase.starters : ExprPhrase → List TokenKind
  | .call =>
      primaryStarters
  | .primary =>
      primaryStarters
  | _ =>
      .bang :: .minus :: primaryStarters

/-- Primary expressions are among the phrases of every kind. -/
theorem ExprPhrase.mem_starters
    {kind : TokenKind}
    (primary : kind ∈ primaryStarters)
    (phrase : ExprPhrase) :
    kind ∈ phrase.starters := by
  cases phrase <;> simp [starters, primary]

namespace DerivesExpr

variable {room : Nat}

/-- A derived phrase begins with one of its starters. -/
theorem starts
    {phrase : ExprPhrase}
    {tokens : List Token}
    {tree : phrase.Tree}
    (derived : DerivesExpr phrase room tokens tree) :
    ∃ first rest,
      tokens = first :: rest ∧ first.kind ∈ phrase.starters := by
  induction derived with
  | assignName nameKind _ _ _ =>
      refine ⟨_, _, rfl, ExprPhrase.mem_starters ?_ _⟩
      simp [primaryStarters, nameKind]
  | assignProperty _ _ _ _ _ object _
  | callNothing _ _ _ object
  | callArguments _ _ _ _ _ object _
  | property _ _ _ object =>
      obtain ⟨first, rest, rfl, starter⟩ := object
      exact ⟨first, _, rfl, ExprPhrase.mem_starters starter _⟩
  | operation _ inductionHypothesis
  | tighter _ _ inductionHypothesis
  | tightest _ inductionHypothesis
  | primary _ inductionHypothesis
  | lastArgument _ inductionHypothesis =>
      exact inductionHypothesis
  | join _ _ _ left _ | moreArguments _ _ _ left _ =>
      obtain ⟨first, rest, rfl, starter⟩ := left
      exact ⟨first, _, rfl, starter⟩
  | unary kind _ _ =>
      refine ⟨_, _, rfl, ?_⟩
      rcases kind with kind | kind <;>
        simp [ExprPhrase.starters, kind]
  | plain _ inductionHypothesis =>
      obtain ⟨first, rest, shape, starter⟩ := inductionHypothesis
      exact ⟨first, rest, shape, ExprPhrase.mem_starters starter _⟩
  | falseWord kind | trueWord kind | nilWord kind | thisWord kind
  | name kind =>
      exact ⟨_, _, rfl,
        by simp [ExprPhrase.starters, primaryStarters, kind]⟩
  | literal kind =>
      refine ⟨_, _, rfl, ?_⟩
      rcases kind with kind | kind <;>
        simp [ExprPhrase.starters, primaryStarters, kind]
  | group kind _ _ _ =>
      exact ⟨_, _, rfl,
        by simp [ExprPhrase.starters, primaryStarters, kind]⟩

end DerivesExpr

/-- The next token, if there is one, cannot continue a call. -/
def EndsCall (tail : List Token) : Prop :=
  ∀ token rest,
    tail = token :: rest →
    token.kind ≠ .leftParen ∧ token.kind ≠ .dot

/-- The next token, if there is one, cannot continue an operation of a level
other than by an operator of that level or a looser one. -/
def EndsOperation
    (level : Nat)
    (tail : List Token) :
    Prop :=
  EndsCall tail ∧
    ∀ token rest precedence,
      tail = token :: rest →
      token.kind.precedence? = some precedence →
      precedence ≤ level

/-- Kinds of token that no expression goes on with, and no assignment either:
marks that stand behind an expression, and words that begin a statement. -/
def StopsExpression (kind : TokenKind) : Prop :=
  kind ∈ ([.rightParen, .semicolon, .comma] : List TokenKind) ∨
    Cursor.startsStatement kind = true

/-- The next token ends an expression. -/
def EndsExpression (tail : List Token) : Prop :=
  ∃ token rest,
    tail = token :: rest ∧ StopsExpression token.kind

theorem EndsExpression.of_kind
    {token : Token}
    (rest : List Token)
    (kind :
      token.kind ∈
        ([.rightParen, .semicolon, .comma] : List TokenKind)) :
    EndsExpression (token :: rest) :=
  ⟨token, rest, rfl, .inl kind⟩

/-- A word that begins a statement ends an expression in front of it. -/
theorem EndsExpression.of_starts
    {token : Token}
    (rest : List Token)
    (starts : Cursor.startsStatement token.kind = true) :
    EndsExpression (token :: rest) :=
  ⟨token, rest, rfl, .inr starts⟩

/-- The words that begin a statement. -/
theorem mem_of_startsStatement
    {kind : TokenKind}
    (starts : Cursor.startsStatement kind = true) :
    kind ∈
      ([.keyword .classWord, .keyword .funWord, .keyword .varWord,
        .keyword .forWord, .keyword .ifWord, .keyword .whileWord,
        .keyword .printWord, .keyword .returnWord] : List TokenKind) := by
  unfold Cursor.startsStatement at starts
  split at starts
  case h_9 =>
    cases starts
  all_goals simp

/-- What ends an expression is no operator, call, property or assignment. -/
theorem StopsExpression.noOperator
    {kind : TokenKind}
    (stops : StopsExpression kind) :
    kind.precedence? = none ∧
      kind ≠ .leftParen ∧
      kind ≠ .dot ∧
      kind ≠ .equal := by
  rcases stops with mark | starts
  · simp only [List.mem_cons, List.not_mem_nil, or_false] at mark
    rcases mark with rfl | rfl | rfl <;> decide
  · have word := mem_of_startsStatement starts
    simp only [List.mem_cons, List.not_mem_nil, or_false] at word
    rcases word with rfl | rfl | rfl | rfl | rfl | rfl | rfl | rfl <;> decide

/-- The operators of a level are those of its precedence. -/
theorem precedence?_eq_some_iff
    {kind : TokenKind}
    {level : Nat} :
    kind.precedence? = some level ↔ kind ∈ operatorsOf level := by
  constructor
  · intro found
    unfold TokenKind.precedence? at found
    split at found <;> cases found <;> decide
  · intro member
    unfold operatorsOf at member
    split at member <;>
      simp only [List.mem_cons, List.not_mem_nil, or_false] at member
    all_goals
      rcases member with rfl | rfl | rfl | rfl <;> rfl

/-- The operators of the two loosest levels are the logical ones. -/
theorem isLogical_of_mem
    {kind : TokenKind}
    {level : Nat}
    (member : kind ∈ operatorsOf level) :
    kind.isLogical = decide (level ≤ 1) := by
  unfold operatorsOf at member
  split at member <;>
    simp only [List.mem_cons, List.not_mem_nil, or_false] at member
  all_goals
    rcases member with rfl | rfl | rfl | rfl <;> rfl

/-- An operator of a level ends an operation of that level. -/
theorem EndsOperation.of_operator
    {level : Nat}
    {operator : Token}
    {rest : List Token}
    (member : operator.kind ∈ operatorsOf level) :
    EndsOperation level (operator :: rest) := by
  have precedence : operator.kind.precedence? = some level :=
    precedence?_eq_some_iff.mpr member
  constructor
  · intro token others shape
    cases shape
    constructor <;>
    · intro same
      simp [same, TokenKind.precedence?] at precedence
  · intro token others found shape foundKind
    cases shape
    rw [precedence] at foundKind
    cases foundKind
    exact le_rfl

/-- Joining two operands gives the tree of their level. -/
theorem join_eq_combine
    {level : Nat}
    {operator : Token}
    (member : operator.kind ∈ operatorsOf level)
    {left right : Expr} :
    Expr.join left operator right = combine level left operator right := by
  unfold Expr.join combine
  simp only [isLogical_of_mem member, decide_eq_true_eq]

/-- There is no complaint about an argument that the list has space for. -/
theorem countArgument_of_lt
    {collected : List Expr}
    (few : collected.length < longestList)
    (cursor : Cursor) :
    Expr.countArgument collected cursor = cursor := by
  unfold Expr.countArgument
  rw [if_neg]
  exact Nat.not_le_of_lt few

open Expr.Parser in
/-- What the parser does with a phrase of each kind, given a sufficient bound and
room for the constructs in the phrase. -/
def CompletesExpr :
    (phrase : ExprPhrase) → Nat → List Token → phrase.Tree → Prop
  | .expression, room, tokens, tree =>
      ∀ (fuel : Nat) (cursor : Cursor) (tail : List Token),
        cursor.depth + room ≤ Cursor.maximalDepth →
        6 * (tokens.length + tail.length) + 4 ≤ fuel →
        EndsExpression tail →
        expression fuel { cursor with rest := tokens ++ tail } =
          .done tree { cursor with rest := tail }
  | .operation level, room, tokens, tree =>
      ∀ (fuel asked : Nat) (cursor : Cursor) (tail : List Token),
        cursor.depth + room ≤ Cursor.maximalDepth →
        6 * (tokens.length + tail.length) + 3 ≤ fuel →
        asked ≤ level →
        EndsOperation level tail →
        ∃ left,
          6 * tail.length + 1 ≤ left ∧
            operation fuel asked { cursor with rest := tokens ++ tail } =
              operators left asked tree { cursor with rest := tail }
  | .operand, room, tokens, tree =>
      ∀ (fuel : Nat) (cursor : Cursor) (tail : List Token),
        cursor.depth + room ≤ Cursor.maximalDepth →
        6 * (tokens.length + tail.length) + 2 ≤ fuel →
        EndsCall tail →
        operand fuel { cursor with rest := tokens ++ tail } =
          .done tree { cursor with rest := tail }
  | .call, room, tokens, tree =>
      ∀ (fuel : Nat) (cursor : Cursor) (tail : List Token),
        cursor.depth + room ≤ Cursor.maximalDepth →
        6 * (tokens.length + tail.length) + 2 ≤ fuel →
        ∃ left,
          6 * tail.length + 1 ≤ left ∧
            operand fuel { cursor with rest := tokens ++ tail } =
              trailers left tree { cursor with rest := tail }
  | .arguments, room, tokens, trees =>
      ∀ (fuel : Nat) (collected : List Expr) (cursor : Cursor)
          (tail : List Token),
        cursor.depth + room ≤ Cursor.maximalDepth →
        6 * (tokens.length + tail.length) + 5 ≤ fuel →
        (∃ closing rest, tail = closing :: rest ∧ closing.kind = .rightParen) →
        collected.length + trees.length ≤ longestList →
        arguments fuel collected { cursor with rest := tokens ++ tail } =
          .done (collected.reverse ++ trees) { cursor with rest := tail }
  | .primary, room, tokens, tree =>
      ∀ (fuel : Nat) (cursor : Cursor) (tail : List Token),
        cursor.depth + room ≤ Cursor.maximalDepth →
        6 * (tokens.length + tail.length) + 1 ≤ fuel →
        primary fuel { cursor with rest := tokens ++ tail } =
          .done tree { cursor with rest := tail }

namespace CompletesExpr

open Expr.Parser

variable {room level : Nat} {tokens before : List Token} {tree : Expr}

/-- A token that is an expression by itself. -/
theorem single
    {token : Token}
    (shape : Expr.ofToken? token = some tree) :
    CompletesExpr .primary room [token] tree := by
  intro fuel cursor tail _ enough
  obtain ⟨fuel, rfl⟩ := Nat.exists_eq_add_of_le' (show 1 ≤ fuel by omega)
  rw [Expr.Parser.primary]
  simp only [List.singleton_append, shape]

theorem group
    {opening closing : Token}
    {inner : Expr}
    (openingKind : opening.kind = .leftParen)
    (innerCompletes : CompletesExpr .expression room tokens inner)
    (closingKind : closing.kind = .rightParen) :
    CompletesExpr .primary (room + 1) (opening :: tokens ++ [closing])
      (.group inner) := by
  intro fuel cursor tail depth enough
  obtain ⟨fuel, rfl⟩ := Nat.exists_eq_add_of_le' (show 1 ≤ fuel by omega)
  simp only [List.cons_append, List.append_assoc, List.nil_append,
    List.length_cons, List.length_append, List.length_nil] at enough ⊢
  have notSingle : Expr.ofToken? opening = none := by
    simp [Expr.ofToken?, openingKind]
  have inside :=
    innerCompletes fuel { cursor with depth := cursor.depth + 1 }
      (closing :: tail) (by simp only; omega)
      (by simp only [List.length_cons]; omega)
      (.of_kind _ (by simp [closingKind]))
  rw [Expr.Parser.primary]
  simp only [notSingle, openingKind, ↓reduceIte]
  refine Cursor.nested_of_done (by simp only; omega)
    (?_ : _ = Step.done _
      { cursor with rest := tail, depth := cursor.depth + 1 }) rfl
  simp only at inside ⊢
  rw [inside]
  simp only [Step.bind, Cursor.expect_of_kind closingKind, Step.map]

/-- Behind a primary expression the parser looks for calls. -/
theorem call_of_primary
    {first : Token}
    {rest : List Token}
    (shape : tokens = first :: rest)
    (starter : first.kind ∈ primaryStarters)
    (completes : CompletesExpr .primary room tokens tree) :
    CompletesExpr .call room tokens tree := by
  intro fuel cursor tail depth enough
  obtain ⟨fuel, rfl⟩ := Nat.exists_eq_add_of_le' (show 1 ≤ fuel by omega)
  refine ⟨fuel, by omega, ?_⟩
  have noUnary :
      ∀ kind ∈ ([.bang, .minus] : List TokenKind),
        Cursor.accept? { cursor with rest := tokens ++ tail } kind =
          none := by
    intro kind unary
    subst shape
    refine Cursor.accept?_of_ne ?_
    rintro rfl
    simp only [List.mem_cons, List.not_mem_nil, or_false] at unary
    rcases unary with same | same <;>
      simp [same, primaryStarters] at starter
  rw [Expr.Parser.operand, noUnary .bang (by simp),
    noUnary .minus (by simp)]
  simp only [Option.or_none, completes fuel cursor tail depth (by omega),
    Step.bind]

theorem callNothing
    {opening closing : Token}
    {callee : Expr}
    (calleeCompletes : CompletesExpr .call room before callee)
    (openingKind : opening.kind = .leftParen)
    (closingKind : closing.kind = .rightParen) :
    CompletesExpr .call room (before ++ [opening, closing])
      (.call callee closing []) := by
  intro fuel cursor tail depth enough
  simp only [List.length_append, List.length_cons, List.length_nil,
    List.append_assoc, List.cons_append, List.nil_append] at enough ⊢
  obtain ⟨left, leftEnough, reached⟩ :=
    calleeCompletes fuel cursor (opening :: closing :: tail) depth
      (by simp only [List.length_cons]; omega)
  simp only [List.length_cons] at leftEnough
  obtain ⟨left, rfl⟩ := Nat.exists_eq_add_of_le' (show 1 ≤ left by omega)
  refine ⟨left, by omega, ?_⟩
  rw [reached, Expr.Parser.trailers]
  simp only [Cursor.accept?_of_kind openingKind,
    Cursor.accept?_of_kind closingKind]

theorem callArguments
    {opening closing : Token}
    {callee : Expr}
    {arguments : List Expr}
    (calleeCompletes : CompletesExpr .call room before callee)
    (openingKind : opening.kind = .leftParen)
    (argumentsCompletes : CompletesExpr .arguments room tokens arguments)
    (starts :
      ∃ first rest,
        tokens = first :: rest ∧
          first.kind ∈ ExprPhrase.arguments.starters)
    (few : arguments.length ≤ longestList)
    (closingKind : closing.kind = .rightParen) :
    CompletesExpr .call room (before ++ opening :: tokens ++ [closing])
      (.call callee closing arguments) := by
  intro fuel cursor tail depth enough
  simp only [List.length_append, List.length_cons, List.length_nil,
    List.append_assoc, List.cons_append, List.nil_append] at enough ⊢
  obtain ⟨left, leftEnough, reached⟩ :=
    calleeCompletes fuel cursor (opening :: (tokens ++ closing :: tail)) depth
      (by simp only [List.length_cons, List.length_append]; omega)
  simp only [List.length_cons, List.length_append] at leftEnough
  obtain ⟨left, rfl⟩ := Nat.exists_eq_add_of_le' (show 1 ≤ left by omega)
  refine ⟨left, by omega, ?_⟩
  have notClosed :
      Cursor.accept? { cursor with rest := tokens ++ closing :: tail }
        .rightParen = none := by
    obtain ⟨first, rest, rfl, starter⟩ := starts
    refine Cursor.accept?_of_ne ?_
    intro same
    simp [same, ExprPhrase.starters, primaryStarters] at starter
  have inside :=
    argumentsCompletes left [] cursor (closing :: tail) depth
      (by simp only [List.length_cons]; omega)
      ⟨closing, tail, rfl, closingKind⟩ (by simpa using few)
  rw [reached, Expr.Parser.trailers]
  simp only [Cursor.accept?_of_kind openingKind, notClosed, inside,
    Step.bind, Cursor.expect_of_kind closingKind, List.reverse_nil,
    List.nil_append]

theorem property
    {dot name : Token}
    {object : Expr}
    (objectCompletes : CompletesExpr .call room before object)
    (dotKind : dot.kind = .dot)
    (nameKind : name.kind = .identifier) :
    CompletesExpr .call room (before ++ [dot, name])
      (.property object name) := by
  intro fuel cursor tail depth enough
  simp only [List.length_append, List.length_cons, List.length_nil,
    List.append_assoc, List.cons_append, List.nil_append] at enough ⊢
  obtain ⟨left, leftEnough, reached⟩ :=
    objectCompletes fuel cursor (dot :: name :: tail) depth
      (by simp only [List.length_cons]; omega)
  simp only [List.length_cons] at leftEnough
  obtain ⟨left, rfl⟩ := Nat.exists_eq_add_of_le' (show 1 ≤ left by omega)
  refine ⟨left, by omega, ?_⟩
  have noCall :
      Cursor.accept? { cursor with rest := dot :: name :: tail }
        .leftParen = none :=
    Cursor.accept?_of_ne (by simp [dotKind])
  rw [reached, Expr.Parser.trailers]
  simp only [noCall, Cursor.accept?_of_kind dotKind,
    Cursor.expect_of_kind nameKind, Step.bind]

/-- A call is an operand when nothing behind it continues it. -/
theorem operand_of_call
    (completes : CompletesExpr .call room tokens tree) :
    CompletesExpr .operand room tokens tree := by
  intro fuel cursor tail depth enough ends
  obtain ⟨left, leftEnough, reached⟩ :=
    completes fuel cursor tail depth enough
  obtain ⟨left, rfl⟩ := Nat.exists_eq_add_of_le' (show 1 ≤ left by omega)
  have noCall :
      Cursor.accept? { cursor with rest := tail } .leftParen = none :=
    Cursor.accept?_eq_none_iff.mpr
      fun token rest shape => (ends token rest shape).1
  have noProperty :
      Cursor.accept? { cursor with rest := tail } .dot = none :=
    Cursor.accept?_eq_none_iff.mpr
      fun token rest shape => (ends token rest shape).2
  rw [reached, Expr.Parser.trailers]
  simp only [noCall, noProperty]

theorem unary
    {operator : Token}
    {operand : Expr}
    (operatorKind : operator.kind = .bang ∨ operator.kind = .minus)
    (completes : CompletesExpr .operand room tokens operand) :
    CompletesExpr .operand (room + 1) (operator :: tokens)
      (.unary operator operand) := by
  intro fuel cursor tail depth enough ends
  obtain ⟨fuel, rfl⟩ := Nat.exists_eq_add_of_le' (show 1 ≤ fuel by omega)
  simp only [List.cons_append, List.length_cons] at enough ⊢
  have accepted :
      (Cursor.accept? { cursor with rest := operator :: (tokens ++ tail) }
          .bang).or
        (Cursor.accept? { cursor with rest := operator :: (tokens ++ tail) }
          .minus) =
        some (operator, { cursor with rest := tokens ++ tail }) := by
    rcases operatorKind with kind | kind
    · rw [Cursor.accept?_of_kind kind, Option.some_or]
    · rw [Cursor.accept?_of_ne (by simp [kind]), Option.none_or,
        Cursor.accept?_of_kind kind]
  have inside :=
    completes fuel { cursor with depth := cursor.depth + 1 } tail
      (by simp only; omega) (by omega) ends
  rw [Expr.Parser.operand]
  simp only [accepted]
  refine Cursor.nested_of_done (by simp only; omega)
    (?_ : _ = Step.done _
      { cursor with rest := tail, depth := cursor.depth + 1 }) rfl
  simp only at inside ⊢
  rw [inside]
  simp only [Step.bind, Step.map]

/-- Behind an operand the parser looks for operators, at whatever level. -/
theorem operation_of_operand
    (completes : CompletesExpr .operand room tokens tree) :
    CompletesExpr (.operation level) room tokens tree := by
  intro fuel asked cursor tail depth enough _ ends
  obtain ⟨fuel, rfl⟩ := Nat.exists_eq_add_of_le' (show 1 ≤ fuel by omega)
  refine ⟨fuel, by omega, ?_⟩
  rw [Expr.Parser.operation]
  simp only [completes fuel cursor tail depth (by omega) ends.1, Step.bind]

/-- Operators that bind less tightly than asked for are left alone. -/
theorem operators_stop
    {fuel asked : Nat}
    {left : Expr}
    {cursor : Cursor}
    (enough : 1 ≤ fuel)
    (looser :
      ∀ token rest precedence,
        cursor.rest = token :: rest →
        token.kind.precedence? = some precedence →
        precedence < asked) :
    operators fuel asked left cursor = .done left cursor := by
  obtain ⟨fuel, rfl⟩ := Nat.exists_eq_add_of_le' enough
  rw [operators]
  split
  · rfl
  · rename_i token rest shape
    split
    · rfl
    · rename_i precedence kind
      rw [if_pos (looser token rest precedence shape kind)]

theorem join
    {after : List Token}
    {operator : Token}
    {left right : Expr}
    (leftCompletes : CompletesExpr (.operation level) room before left)
    (operatorKind : operator.kind ∈ operatorsOf level)
    (rightCompletes :
      CompletesExpr (.operation (level + 1)) room after right) :
    CompletesExpr (.operation level) room (before ++ operator :: after)
      (combine level left operator right) := by
  intro fuel asked cursor tail depth enough asks ends
  simp only [List.length_append, List.length_cons, List.append_assoc,
    List.cons_append] at enough ⊢
  have precedence : operator.kind.precedence? = some level :=
    precedence?_eq_some_iff.mpr operatorKind
  obtain ⟨fuelLeft, leftEnough, reached⟩ :=
    leftCompletes fuel asked cursor (operator :: (after ++ tail)) depth
      (by simp only [List.length_append, List.length_cons]; omega)
      asks (.of_operator operatorKind)
  simp only [List.length_append, List.length_cons] at leftEnough
  obtain ⟨fuelLeft, rfl⟩ :=
    Nat.exists_eq_add_of_le' (show 1 ≤ fuelLeft by omega)
  obtain ⟨fuelRight, rightEnough, reachedRight⟩ :=
    rightCompletes fuelLeft (level + 1) cursor tail depth (by omega)
      le_rfl ⟨ends.1, fun token rest found shape kind =>
        (ends.2 token rest found shape kind).trans (Nat.le_succ level)⟩
  have stops :
      operators fuelRight (level + 1) right { cursor with rest := tail } =
        .done right { cursor with rest := tail } :=
    operators_stop (by omega) fun token rest found shape kind =>
      Nat.lt_succ_of_le (ends.2 token rest found shape kind)
  refine ⟨fuelLeft, by omega, ?_⟩
  rw [reached, operators]
  simp only [precedence, Nat.not_lt_of_le asks, ↓reduceIte, reachedRight,
    stops, Step.bind, join_eq_combine operatorKind]

theorem tighter
    (completes : CompletesExpr (.operation (level + 1)) room tokens tree) :
    CompletesExpr (.operation level) room tokens tree := by
  intro fuel asked cursor tail depth enough asks ends
  exact completes fuel asked cursor tail depth enough (by omega)
    ⟨ends.1, fun token rest found shape kind =>
      (ends.2 token rest found shape kind).trans (Nat.le_succ level)⟩

/-- An operation before a token that is no operator is read to its end. -/
theorem operation_done
    {fuel : Nat}
    {cursor : Cursor}
    {token : Token}
    {tail : List Token}
    (completes : CompletesExpr (.operation 0) room tokens tree)
    (depth : cursor.depth + room ≤ Cursor.maximalDepth)
    (enough : 6 * (tokens.length + (tail.length + 1)) + 3 ≤ fuel)
    (ends : StopsExpression token.kind ∨ token.kind = .equal) :
    operation fuel 0 { cursor with rest := tokens ++ token :: tail } =
      .done tree { cursor with rest := token :: tail } := by
  have noOperator :
      token.kind.precedence? = none ∧
        token.kind ≠ .leftParen ∧
        token.kind ≠ .dot := by
    rcases ends with stops | same
    · exact ⟨stops.noOperator.1, stops.noOperator.2.1, stops.noOperator.2.2.1⟩
    · rw [same]
      decide
  have endsOperation : EndsOperation 0 (token :: tail) := by
    constructor
    · intro first rest shape
      cases shape
      exact noOperator.2
    · intro first rest precedence shape kind
      cases shape
      rw [noOperator.1] at kind
      cases kind
  obtain ⟨left, leftEnough, reached⟩ :=
    completes fuel 0 cursor (token :: tail) depth
      (by simpa only [List.length_cons] using enough) le_rfl endsOperation
  rw [reached]
  refine operators_stop (by omega) ?_
  intro first rest precedence shape kind
  cases shape
  rw [noOperator.1] at kind
  cases kind

theorem expression_of_operation
    (completes : CompletesExpr (.operation 0) room tokens tree) :
    CompletesExpr .expression room tokens tree := by
  intro fuel cursor tail depth enough ends
  obtain ⟨fuel, rfl⟩ := Nat.exists_eq_add_of_le' (show 1 ≤ fuel by omega)
  obtain ⟨token, rest, rfl, kind⟩ := ends
  rw [expression,
    operation_done completes depth
      (by simp only [List.length_cons] at enough; omega) (.inl kind)]
  simp only [Step.bind, Cursor.accept?_of_ne kind.noOperator.2.2.2]

/-- The value behind a target makes an assignment. -/
theorem assignment
    {equals : Token}
    {target value assigned : Expr}
    (targetCompletes : CompletesExpr (.operation 0) room before target)
    (equalsKind : equals.kind = .equal)
    (valueCompletes : CompletesExpr .expression room tokens value)
    (assigns :
      ∀ cursor,
        Expr.assignTo target equals value cursor = .done assigned cursor) :
    CompletesExpr .expression room (before ++ equals :: tokens)
      assigned := by
  intro fuel cursor tail depth enough ends
  simp only [List.length_append, List.length_cons, List.append_assoc,
    List.cons_append] at enough ⊢
  obtain ⟨fuel, rfl⟩ := Nat.exists_eq_add_of_le' (show 1 ≤ fuel by omega)
  rw [expression,
    operation_done targetCompletes depth
      (by simp only [List.length_append]; omega) (.inr equalsKind)]
  simp only [Step.bind, Cursor.accept?_of_kind equalsKind,
    valueCompletes fuel cursor tail depth (by omega) ends, assigns]

theorem lastArgument
    {argument : Expr}
    (completes : CompletesExpr .expression room tokens argument) :
    CompletesExpr .arguments room tokens [argument] := by
  rintro fuel collected cursor tail depth enough ⟨closing, rest, rfl, kind⟩ few
  obtain ⟨fuel, rfl⟩ := Nat.exists_eq_add_of_le' (show 1 ≤ fuel by omega)
  simp only [List.length_singleton] at few
  rw [arguments,
    countArgument_of_lt (show collected.length < longestList by omega),
    completes fuel cursor (closing :: rest) depth (by omega)
      (.of_kind _ (by simp [kind]))]
  simp only [Step.bind,
    Cursor.accept?_of_ne (show closing.kind ≠ .comma by simp [kind]),
    List.reverse_cons]

theorem moreArguments
    {comma : Token}
    {rest : List Token}
    {argument : Expr}
    {arguments : List Expr}
    (firstCompletes : CompletesExpr .expression room tokens argument)
    (commaKind : comma.kind = .comma)
    (restCompletes : CompletesExpr .arguments room rest arguments) :
    CompletesExpr .arguments room (tokens ++ comma :: rest)
      (argument :: arguments) := by
  intro fuel collected cursor tail depth enough ends few
  simp only [List.length_append, List.length_cons, List.append_assoc,
    List.cons_append] at enough few ⊢
  obtain ⟨fuel, rfl⟩ := Nat.exists_eq_add_of_le' (show 1 ≤ fuel by omega)
  rw [Expr.Parser.arguments,
    countArgument_of_lt (show collected.length < longestList by omega),
    firstCompletes fuel cursor (comma :: (rest ++ tail)) depth
      (by simp only [List.length_cons, List.length_append]; omega)
      (.of_kind _ (by simp [commaKind]))]
  simp only [Step.bind, Cursor.accept?_of_kind commaKind,
    restCompletes fuel (argument :: collected) cursor tail depth (by omega)
      ends (by simp only [List.length_cons]; omega),
    List.reverse_cons, List.append_assoc, List.singleton_append]

end CompletesExpr

/-- Every derived phrase is parsed. -/
theorem DerivesExpr.completes
    {phrase : ExprPhrase}
    {room : Nat}
    {tokens : List Token}
    {tree : phrase.Tree}
    (derived : DerivesExpr phrase room tokens tree) :
    CompletesExpr phrase room tokens tree := by
  induction derived with
  | @assignName room name _ _ _ nameKind equalsKind _ value =>
      have target :
          CompletesExpr .primary room [name] (.reference name none) :=
        .single (by simp [Expr.ofToken?, nameKind])
      have starter : name.kind ∈ primaryStarters := by
        simp [primaryStarters, nameKind]
      exact .assignment
        (.operation_of_operand
          (.operand_of_call (.call_of_primary rfl starter target)))
        equalsKind value fun _ => rfl
  | assignProperty _ dotKind nameKind equalsKind _ object value =>
      have target := CompletesExpr.property object dotKind nameKind
      have assigned :=
        CompletesExpr.assignment
          (.operation_of_operand (.operand_of_call target))
          equalsKind value fun _ => rfl
      simpa only [List.append_assoc, List.cons_append, List.nil_append]
        using assigned
  | operation _ completes =>
      exact .expression_of_operation completes
  | join _ kind _ left right =>
      exact .join left kind right
  | tighter _ _ completes =>
      exact .tighter completes
  | tightest _ completes =>
      exact .operation_of_operand completes
  | unary kind _ completes =>
      exact .unary kind completes
  | plain _ completes =>
      exact .operand_of_call completes
  | primary derived completes =>
      obtain ⟨first, rest, shape, starter⟩ := derived.starts
      exact .call_of_primary shape starter completes
  | callNothing _ openingKind closingKind callee =>
      exact .callNothing callee openingKind closingKind
  | callArguments _ openingKind derived few closingKind callee arguments =>
      exact .callArguments callee openingKind arguments derived.starts few
        closingKind
  | property _ dotKind nameKind object =>
      exact .property object dotKind nameKind
  | lastArgument _ completes =>
      exact .lastArgument completes
  | moreArguments _ commaKind _ first rest =>
      exact .moreArguments first commaKind rest
  | falseWord kind | trueWord kind | nilWord kind | thisWord kind
  | name kind =>
      exact .single (by simp [Expr.ofToken?, kind])
  | literal kind =>
      refine .single ?_
      rcases kind with kind | kind <;> simp [Expr.ofToken?, kind]
  | group openingKind _ closingKind completes =>
      exact .group openingKind completes closingKind

end Script.Grammar
