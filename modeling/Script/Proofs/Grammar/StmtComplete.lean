import Script.Proofs.Grammar.ExprComplete
import Script.Proofs.Grammar.Statement

namespace Script.Grammar

/-!
# Every derived program is parsed

When every `else` belongs to the nearest conditional, what the grammar derives is
what the parser reads.  A statement that is dangling needs something else than an
`else` behind it.  Of declarations in a row it is shown that the parser reaches
the place behind them with their trees collected, whatever follows; so a program
can also be read in pieces.
-/

/-- No `else` comes next. -/
def NoElse (tail : List Token) : Prop :=
  ∀ token rest,
    tail = token :: rest →
    token.kind ≠ .keyword .elseWord

theorem NoElse.of_kind
    {token : Token}
    {rest : List Token}
    (kind : token.kind ≠ .keyword .elseWord) :
    NoElse (token :: rest) := by
  intro first others shape
  cases shape
  exact kind

/-- Kinds of token with which a statement begins. -/
def statementStarters : List TokenKind :=
  [.keyword .printWord, .keyword .returnWord, .keyword .whileWord,
   .keyword .forWord, .keyword .ifWord, .leftBrace] ++
    ExprPhrase.expression.starters

/-- Kinds of token with which a declaration begins. -/
def declarationStarters : List TokenKind :=
  [.keyword .classWord, .keyword .funWord, .keyword .varWord] ++
    statementStarters

/-- A derived expression before a token that ends it is parsed. -/
theorem DerivesExpr.parse
    {room : Nat}
    {tokens : List Token}
    {tree : Expr}
    (derived : DerivesExpr .expression room tokens tree)
    {cursor : Cursor}
    {tail : List Token}
    (depth : cursor.depth + room ≤ Cursor.maximalDepth)
    (ends : EndsExpression tail) :
    Expr.parse { cursor with rest := tokens ++ tail } =
      .done tree { cursor with rest := tail } := by
  unfold Expr.parse
  exact derived.completes _ cursor tail depth
    (by simp only [List.length_append]; omega) ends

namespace DerivesOptional

variable {room : Nat} {tokens : List Token} {value : Option Expr}

/-- An expression that may be absent is parsed before the token at its end. -/
theorem parse
    (derived : DerivesOptional room tokens value)
    {cursor : Cursor}
    {token : Token}
    {tail : List Token}
    {ending : TokenKind}
    (depth : cursor.depth + room ≤ Cursor.maximalDepth)
    (same : token.kind = ending)
    (ends :
      ending ∈ ([.rightParen, .semicolon] : List TokenKind)) :
    Stmt.Parser.optionalExpr ending
        { cursor with rest := tokens ++ token :: tail } =
      .done value { cursor with rest := token :: tail } := by
  unfold Stmt.Parser.optionalExpr
  cases derived with
  | nothing =>
      simp only [List.nil_append, Cursor.sees_cons, same, BEq.rfl,
        ↓reduceIte]
  | something derived =>
      have endsExpression : EndsExpression (token :: tail) := by
        refine .of_kind tail ?_
        subst same
        simp only [List.mem_cons] at ends ⊢
        tauto
      have parsed := derived.parse depth endsExpression
      obtain ⟨first, rest, rfl, starter⟩ := derived.starts
      have unseen : (first.kind == ending) = false := by
        rw [beq_eq_false_iff_ne]
        rintro rfl
        simp only [ExprPhrase.starters, primaryStarters, List.mem_cons,
          List.not_mem_nil, or_false] at ends starter
        rcases ends with end' | end' <;> simp [end'] at starter
      rw [List.cons_append] at parsed ⊢
      simp only [Cursor.sees_cons, unseen, Bool.false_eq_true, ↓reduceIte,
        parsed, Step.map, Step.bind]

end DerivesOptional

/-- The declaration of a variable is parsed behind its keyword. -/
theorem DerivesVariable.parse
    {room : Nat}
    {tokens : List Token}
    {tree : Stmt}
    (derived : DerivesVariable room tokens tree)
    {cursor : Cursor}
    (depth : cursor.depth + room ≤ Cursor.maximalDepth)
    (tail : List Token) :
    ∃ keyword rest,
      tokens = keyword :: rest ∧
        keyword.kind = .keyword .varWord ∧
        Stmt.Parser.variableDeclaration
            { cursor with rest := rest ++ tail } =
          .done tree { cursor with rest := tail } := by
  cases derived with
  | @bare keyword name semicolon keywordKind nameKind semicolonKind =>
      refine ⟨keyword, [name, semicolon], rfl, keywordKind, ?_⟩
      have noInitial : semicolon.kind ≠ .equal := by
        simp [semicolonKind]
      unfold Stmt.Parser.variableDeclaration
      simp only [List.cons_append, List.nil_append,
        Cursor.expect_of_kind nameKind, Step.bind,
        Cursor.accept?_of_ne noInitial,
        Cursor.expect_of_kind semicolonKind, Step.map]
  | @initialized keyword name equals semicolon tokens initial keywordKind
      nameKind equalsKind value semicolonKind =>
      refine ⟨keyword, name :: equals :: (tokens ++ [semicolon]), rfl,
        keywordKind, ?_⟩
      have parsed :=
        value.parse depth
          (EndsExpression.of_kind tail
            (show semicolon.kind ∈ _ by simp [semicolonKind]))
      unfold Stmt.Parser.variableDeclaration
      simp only [List.cons_append, List.append_assoc, List.nil_append,
        Cursor.expect_of_kind nameKind, Step.bind,
        Cursor.accept?_of_kind equalsKind, parsed, Step.map,
        Cursor.expect_of_kind semicolonKind]

/-- The first clause of a loop is parsed. -/
theorem DerivesInitial.parse
    {room : Nat}
    {tokens : List Token}
    {initial : Option Stmt}
    (derived : DerivesInitial room tokens initial)
    {cursor : Cursor}
    {tail : List Token}
    (depth : cursor.depth + room ≤ Cursor.maximalDepth) :
    Stmt.Parser.initialClause { cursor with rest := tokens ++ tail } =
      .done initial { cursor with rest := tail } := by
  unfold Stmt.Parser.initialClause
  cases derived with
  | nothing kind =>
      simp only [List.cons_append, List.nil_append,
        Cursor.accept?_of_kind kind]
  | declared derived =>
      obtain ⟨keyword, rest, rfl, kind, parsed⟩ :=
        derived.parse depth tail
      simp only [List.cons_append,
        Cursor.accept?_of_ne
          (show keyword.kind ≠ .semicolon by simp [kind]),
        Cursor.accept?_of_kind kind, parsed, Step.map, Step.bind]
  | @expression semicolon tokens tree derived kind =>
      have parsed :=
        derived.parse depth
          (EndsExpression.of_kind tail
            (show semicolon.kind ∈ _ by simp [kind]))
      obtain ⟨first, rest, rfl, starter⟩ := derived.starts
      have noSemicolon : first.kind ≠ .semicolon := by
        intro same
        simp [same, ExprPhrase.starters, primaryStarters] at starter
      have noVariable : first.kind ≠ .keyword .varWord := by
        intro same
        simp [same, ExprPhrase.starters, primaryStarters] at starter
      simp only [List.cons_append, List.append_assoc, List.nil_append]
        at parsed ⊢
      unfold Stmt.Parser.expressionStatement
      simp only [Cursor.accept?_of_ne noSemicolon,
        Cursor.accept?_of_ne noVariable, parsed, Step.bind, Step.map,
        Cursor.expect_of_kind kind]

/-- There is no complaint about a parameter that the list has space for. -/
theorem countParameter_of_lt
    {collected : List Token}
    (few : collected.length < longestList)
    (cursor : Cursor) :
    Stmt.Parser.countParameter collected cursor = cursor := by
  unfold Stmt.Parser.countParameter
  rw [if_neg]
  exact Nat.not_le_of_lt few

/-- Parameters are parsed behind those collected already. -/
theorem DerivesParameters.parse
    {tokens names : List Token}
    (derived : DerivesParameters tokens names)
    (fuel : Nat)
    (collected : List Token)
    (cursor : Cursor)
    {closing : Token}
    (tail : List Token)
    (enough : tokens.length ≤ fuel)
    (few : collected.length + names.length ≤ longestList)
    (closingKind : closing.kind = .rightParen) :
    Stmt.Parser.parameterNames fuel collected
        { cursor with rest := tokens ++ closing :: tail } =
      .done (collected.reverse ++ names)
        { cursor with rest := closing :: tail } := by
  induction derived generalizing fuel collected with
  | last kind =>
      simp only [List.length_singleton] at enough few
      obtain ⟨fuel, rfl⟩ := Nat.exists_eq_add_of_le' enough
      have noComma : closing.kind ≠ .comma := by
        simp [closingKind]
      rw [Stmt.Parser.parameterNames, countParameter_of_lt (by omega)]
      simp only [List.cons_append, List.nil_append,
        Cursor.expect_of_kind kind, Step.bind, Cursor.accept?_of_ne noComma,
        List.reverse_cons]
  | @more name comma tokens names kind commaKind _ inductionHypothesis =>
      simp only [List.length_cons] at enough few
      obtain ⟨fuel, rfl⟩ :=
        Nat.exists_eq_add_of_le' (show 1 ≤ fuel by omega)
      have parsed :=
        inductionHypothesis fuel (name :: collected)
          (by omega) (by simp only [List.length_cons]; omega)
      rw [Stmt.Parser.parameterNames, countParameter_of_lt (by omega)]
      simp only [List.cons_append, Cursor.expect_of_kind kind, Step.bind,
        Cursor.accept?_of_kind commaKind, parsed, List.reverse_cons,
        List.append_assoc, List.nil_append]

/-- Parameters begin with a name. -/
theorem DerivesParameters.starts
    {tokens names : List Token}
    (derived : DerivesParameters tokens names) :
    ∃ first rest, tokens = first :: rest ∧ first.kind = .identifier := by
  cases derived with
  | last kind =>
      exact ⟨_, _, rfl, kind⟩
  | more kind _ _ =>
      exact ⟨_, _, rfl, kind⟩

/-- The name and the parameters of a function are parsed. -/
theorem DerivesParameterList.parse
    {list parameters : List Token}
    (derived : DerivesParameterList list parameters)
    {name opening closing : Token}
    {tail : List Token}
    {cursor : Cursor}
    {form : FunctionForm}
    (nameKind : name.kind = .identifier)
    (openingKind : opening.kind = .leftParen)
    (closingKind : closing.kind = .rightParen) :
    Stmt.Parser.functionHead form
        { cursor with
          rest := name :: opening :: (list ++ closing :: tail) } =
      .done (name, parameters) { cursor with rest := tail } := by
  unfold Stmt.Parser.functionHead
  cases derived with
  | nothing =>
      simp only [List.nil_append, Cursor.expect_of_kind nameKind, Step.bind,
        Cursor.expect_of_kind openingKind, Cursor.sees_cons, closingKind,
        BEq.rfl, ↓reduceIte, Cursor.expect_of_kind closingKind, Step.map]
  | something derived few =>
      have parsed :=
        derived.parse ((list ++ closing :: tail).length + 1) [] cursor tail
          (by simp only [List.length_append]; omega) (by simpa using few)
          closingKind
      obtain ⟨first, rest, rfl, kind⟩ := derived.starts
      have notClosed : (first.kind == .rightParen) = false := by
        simp [kind]
      simp only [List.cons_append] at parsed ⊢
      simp only [Cursor.expect_of_kind nameKind, Step.bind,
        Cursor.expect_of_kind openingKind, Cursor.sees_cons, notClosed,
        Bool.false_eq_true, ↓reduceIte, parsed,
        Cursor.expect_of_kind closingKind, Step.map, List.reverse_nil,
        List.nil_append]

/-- The clauses of a loop are parsed. -/
theorem parse_forClauses
    {room : Nat}
    {opening semicolon closing : Token}
    {first second third tail : List Token}
    {initial : Option Stmt}
    {condition increment : Option Expr}
    {cursor : Cursor}
    (depth : cursor.depth + room ≤ Cursor.maximalDepth)
    (openingKind : opening.kind = .leftParen)
    (initialDerived : DerivesInitial room first initial)
    (conditionDerived : DerivesOptional room second condition)
    (semicolonKind : semicolon.kind = .semicolon)
    (incrementDerived : DerivesOptional room third increment)
    (closingKind : closing.kind = .rightParen) :
    Stmt.Parser.forClauses
        { cursor with
          rest :=
            opening :: (first ++ (second ++ semicolon ::
              (third ++ closing :: tail))) } =
      .done { initial, condition, increment } { cursor with rest := tail } := by
  unfold Stmt.Parser.forClauses
  simp only [Cursor.expect_of_kind openingKind, Step.bind,
    initialDerived.parse depth,
    conditionDerived.parse depth semicolonKind (by simp),
    Cursor.expect_of_kind semicolonKind,
    incrementDerived.parse depth closingKind (by simp),
    Cursor.expect_of_kind closingKind, Step.map]

/-- A condition in parentheses is parsed. -/
theorem parse_condition
    {room : Nat}
    {opening closing : Token}
    {tokens tail : List Token}
    {tree : Expr}
    {cursor : Cursor}
    {start ending : Expectation}
    (depth : cursor.depth + room ≤ Cursor.maximalDepth)
    (openingKind : opening.kind = .leftParen)
    (derived : DerivesExpr .expression room tokens tree)
    (closingKind : closing.kind = .rightParen) :
    Stmt.Parser.condition start ending
        { cursor with rest := opening :: (tokens ++ closing :: tail) } =
      .done tree { cursor with rest := tail } := by
  have ends : EndsExpression (closing :: tail) :=
    .of_kind tail (by simp [closingKind])
  unfold Stmt.Parser.condition
  simp only [Cursor.expect_of_kind openingKind, Step.bind,
    derived.parse depth ends, Cursor.expect_of_kind closingKind, Step.map]

/-- A loop that is unfolded has the tree of the grammar. -/
theorem unfold_eq_forLoop
    (initial : Option Stmt)
    (condition increment : Option Expr)
    (body : Stmt) :
    ForClauses.unfold { initial, condition, increment } body =
      forLoop initial condition increment body := by
  cases initial <;> cases increment <;> rfl

open Stmt.Parser in
/-- What the parser does with a phrase of each kind, given a sufficient bound and
room for the constructs in the phrase. -/
def Completes :
    (phrase : Phrase) → Nat → List Token → phrase.Tree → Prop
  | .declarations, room, tokens, trees =>
      ∀ (fuel : Nat) (inBlock : Bool) (collected : List Stmt)
          (cursor : Cursor) (tail : List Token),
        cursor.depth + room ≤ Cursor.maximalDepth →
        6 * (tokens.length + tail.length) + 3 ≤ fuel →
        NoElse tail →
        ∃ left,
          6 * tail.length + 3 ≤ left ∧
            declarations fuel inBlock collected
                { cursor with rest := tokens ++ tail } =
              declarations left inBlock (trees.reverse ++ collected)
                { cursor with rest := tail }
  | .declaration, room, tokens, tree =>
      ∀ (fuel : Nat) (cursor : Cursor) (tail : List Token),
        cursor.depth + room ≤ Cursor.maximalDepth →
        6 * (tokens.length + tail.length) + 2 ≤ fuel →
        NoElse tail →
        declaration fuel { cursor with rest := tokens ++ tail } =
          .done tree { cursor with rest := tail }
  | .statement dangling, room, tokens, tree =>
      ∀ (fuel : Nat) (cursor : Cursor) (tail : List Token),
        cursor.depth + room ≤ Cursor.maximalDepth →
        6 * (tokens.length + tail.length) + 1 ≤ fuel →
        (dangling = true → NoElse tail) →
        statement fuel { cursor with rest := tokens ++ tail } =
          .done tree { cursor with rest := tail }
  | .function, room, tokens, tree =>
      ∀ (fuel : Nat) (form : FunctionForm) (cursor : Cursor)
          (tail : List Token),
        cursor.depth + room ≤ Cursor.maximalDepth →
        6 * (tokens.length + tail.length) + 1 ≤ fuel →
        function fuel form { cursor with rest := tokens ++ tail } =
          .done tree { cursor with rest := tail }
  | .methods, room, tokens, trees =>
      ∀ (fuel : Nat) (collected : List FunctionDecl) (cursor : Cursor)
          (closing : Token) (tail : List Token),
        cursor.depth + room ≤ Cursor.maximalDepth →
        6 * (tokens.length + (tail.length + 1)) + 2 ≤ fuel →
        closing.kind = .rightBrace →
        methods fuel collected
            { cursor with rest := tokens ++ closing :: tail } =
          .done (collected.reverse ++ trees)
            { cursor with rest := closing :: tail }

namespace Completes

open Stmt.Parser

variable {room : Nat} {dangling : Bool} {tokens rest : List Token}

/-- The statements of a block and its closing brace are parsed. -/
theorem block_done
    {body : List Stmt}
    (completes : Completes .declarations room tokens body)
    (fuel : Nat)
    {opening closing : Token}
    (cursor : Cursor)
    (tail : List Token)
    (depth : cursor.depth + (room + 1) ≤ Cursor.maximalDepth)
    (enough : 6 * (tokens.length + (tail.length + 1)) + 4 ≤ fuel)
    (closingKind : closing.kind = .rightBrace) :
    block fuel opening { cursor with rest := tokens ++ closing :: tail } =
      .done body { cursor with rest := tail } := by
  obtain ⟨fuel, rfl⟩ := Nat.exists_eq_add_of_le' (show 1 ≤ fuel by omega)
  obtain ⟨left, leftEnough, reached⟩ :=
    completes fuel true [] { cursor with depth := cursor.depth + 1 }
      (closing :: tail) (by simp only; omega)
      (by simp only [List.length_cons]; omega)
      (.of_kind (by simp [closingKind]))
  obtain ⟨left, rfl⟩ := Nat.exists_eq_add_of_le' (show 1 ≤ left by omega)
  have collected :
      declarations (left + 1) true (body.reverse ++ [])
          { cursor with
            rest := closing :: tail
            depth := cursor.depth + 1 } =
        (body,
          { cursor with
            rest := closing :: tail
            depth := cursor.depth + 1 }) := by
    rw [declarations]
    simp [Cursor.sees_cons, closingKind]
  rw [block]
  refine Cursor.nested_of_done (by simp only; omega)
    (?_ : _ = Step.done _
      { cursor with rest := tail, depth := cursor.depth + 1 }) rfl
  simp only at reached ⊢
  rw [reached, collected]
  simp only [Cursor.expect_of_kind closingKind, Step.map, Step.bind]

theorem nothing : Completes .declarations room [] [] := by
  intro fuel inBlock collected cursor tail _ enough _
  exact ⟨fuel, by simp only [List.length_nil] at enough; omega, rfl⟩

theorem more
    {stmt : Stmt}
    {stmts : List Stmt}
    (firstCompletes : Completes .declaration room tokens stmt)
    (starts :
      ∃ first others,
        tokens = first :: others ∧ first.kind ∈ declarationStarters)
    (restCompletes : Completes .declarations room rest stmts)
    (noElse : ∀ tail, NoElse tail → NoElse (rest ++ tail)) :
    Completes .declarations room (tokens ++ rest) (stmt :: stmts) := by
  intro fuel inBlock collected cursor tail depth enough ends
  simp only [List.length_append, List.append_assoc] at enough ⊢
  obtain ⟨fuel, rfl⟩ := Nat.exists_eq_add_of_le' (show 1 ≤ fuel by omega)
  have first :=
    firstCompletes fuel cursor (rest ++ tail) depth
      (by simp only [List.length_append]; omega) (noElse tail ends)
  obtain ⟨token, others, rfl, starter⟩ := starts
  simp only [List.length_cons] at enough
  obtain ⟨left, leftEnough, reached⟩ :=
    restCompletes fuel inBlock (stmt :: collected) cursor tail depth
      (by omega) ends
  have noBrace : (token.kind == .rightBrace) = false := by
    rw [beq_eq_false_iff_ne]
    intro same
    simp [same, declarationStarters, statementStarters,
      ExprPhrase.starters, primaryStarters] at starter
  refine ⟨left, leftEnough, ?_⟩
  rw [List.cons_append] at first ⊢
  rw [declarations, first]
  simp only [List.isEmpty_cons, Cursor.sees_cons, noBrace, Bool.and_false,
    Bool.or_self, Bool.false_eq_true, ↓reduceIte, reached,
    List.reverse_cons, List.append_assoc, List.singleton_append]

theorem function
    {name opening closing openingBrace closingBrace : Token}
    {list parameters : List Token}
    {body : List Stmt}
    (nameKind : name.kind = .identifier)
    (openingKind : opening.kind = .leftParen)
    (derived : DerivesParameterList list parameters)
    (closingKind : closing.kind = .rightParen)
    (openingBraceKind : openingBrace.kind = .leftBrace)
    (bodyCompletes : Completes .declarations room tokens body)
    (closingBraceKind : closingBrace.kind = .rightBrace) :
    Completes .function (room + 1)
      (name :: opening :: list ++ closing :: openingBrace :: tokens ++
        [closingBrace])
      { name, parameters, body } := by
  intro fuel form cursor tail depth enough
  simp only [List.length_append, List.length_cons, List.length_nil,
    List.append_assoc, List.cons_append, List.nil_append] at enough ⊢
  obtain ⟨fuel, rfl⟩ := Nat.exists_eq_add_of_le' (show 1 ≤ fuel by omega)
  rw [Stmt.Parser.function,
    derived.parse nameKind openingKind closingKind]
  simp only [Step.bind, Cursor.expect_of_kind openingBraceKind,
    bodyCompletes.block_done fuel cursor tail depth (by omega)
      closingBraceKind,
    Step.map]

theorem noMethod : Completes .methods room [] [] := by
  intro fuel collected cursor closing tail _ enough closingKind
  obtain ⟨fuel, rfl⟩ := Nat.exists_eq_add_of_le' (show 1 ≤ fuel by omega)
  rw [methods]
  simp [Cursor.sees_cons, closingKind]

theorem moreMethods
    {method : FunctionDecl}
    {methods : List FunctionDecl}
    (firstCompletes : Completes .function room tokens method)
    (starts :
      ∃ first others, tokens = first :: others ∧ first.kind = .identifier)
    (restCompletes : Completes .methods room rest methods) :
    Completes .methods room (tokens ++ rest) (method :: methods) := by
  intro fuel collected cursor closing tail depth enough closingKind
  simp only [List.length_append, List.append_assoc] at enough ⊢
  obtain ⟨fuel, rfl⟩ := Nat.exists_eq_add_of_le' (show 1 ≤ fuel by omega)
  have first :=
    firstCompletes fuel .method cursor (rest ++ closing :: tail) depth
      (by simp only [List.length_append, List.length_cons]; omega)
  obtain ⟨token, others, rfl, kind⟩ := starts
  simp only [List.length_cons] at enough
  have noBrace : (token.kind == .rightBrace) = false := by
    simp [kind]
  rw [List.cons_append] at first ⊢
  rw [Stmt.Parser.methods, first]
  simp only [List.isEmpty_cons, Cursor.sees_cons, noBrace, Bool.or_self,
    Bool.false_eq_true, ↓reduceIte, Step.bind,
    restCompletes fuel (method :: collected) cursor closing tail depth
      (by omega) closingKind,
    List.reverse_cons, List.append_assoc, List.singleton_append]

theorem classDecl
    {keyword name opening closing : Token}
    {methods : List FunctionDecl}
    (keywordKind : keyword.kind = .keyword .classWord)
    (nameKind : name.kind = .identifier)
    (openingKind : opening.kind = .leftBrace)
    (methodsCompletes : Completes .methods room tokens methods)
    (closingKind : closing.kind = .rightBrace) :
    Completes .declaration room
      (keyword :: name :: opening :: tokens ++ [closing])
      (.classDecl name methods) := by
  intro fuel cursor tail depth enough _
  simp only [List.length_append, List.length_cons, List.length_nil,
    List.append_assoc, List.cons_append, List.nil_append] at enough ⊢
  obtain ⟨fuel, rfl⟩ := Nat.exists_eq_add_of_le' (show 2 ≤ fuel by omega)
  rw [declaration]
  simp only [keywordKind]
  rw [classDeclaration]
  simp only [Cursor.expect_of_kind nameKind, Step.bind,
    Cursor.expect_of_kind openingKind,
    methodsCompletes fuel [] cursor closing tail depth (by omega) closingKind,
    Cursor.expect_of_kind closingKind, Step.map, List.reverse_nil,
    List.nil_append]

theorem functionDecl
    {keyword : Token}
    {function : FunctionDecl}
    (keywordKind : keyword.kind = .keyword .funWord)
    (completes : Completes .function room tokens function) :
    Completes .declaration room (keyword :: tokens)
      (.functionDecl function) := by
  intro fuel cursor tail depth enough _
  simp only [List.length_cons, List.cons_append] at enough ⊢
  obtain ⟨fuel, rfl⟩ := Nat.exists_eq_add_of_le' (show 1 ≤ fuel by omega)
  rw [declaration]
  simp only [keywordKind, Step.map, Step.bind,
    completes fuel .function cursor tail depth (by omega)]

theorem variableDecl
    {tree : Stmt}
    (derived : DerivesVariable room tokens tree) :
    Completes .declaration room tokens tree := by
  intro fuel cursor tail depth enough _
  obtain ⟨fuel, rfl⟩ := Nat.exists_eq_add_of_le' (show 1 ≤ fuel by omega)
  obtain ⟨keyword, rest, rfl, kind, parsed⟩ := derived.parse depth tail
  rw [declaration]
  simp only [List.cons_append, kind, parsed]

/-- Behind a token that begins a statement there is a statement. -/
theorem declaration_of_starter
    {fuel : Nat}
    {first ending : Token}
    {depth : Nat}
    {reported : List Diagnostic}
    (starter : first.kind ∈ statementStarters) :
    declaration (fuel + 1)
        { rest := first :: rest, ending, depth, reported } =
      statement fuel { rest := first :: rest, ending, depth, reported } := by
  rw [declaration]
  split
  · rfl
  · rename_i token others shape
    cases shape
    split
    case h_4 =>
      rfl
    all_goals
      rename_i same
      simp [same, statementStarters, ExprPhrase.starters,
        primaryStarters] at starter

/-- A statement is a declaration. -/
theorem declaration_of_statement
    {tree : Stmt}
    (starts :
      ∃ first others,
        tokens = first :: others ∧ first.kind ∈ statementStarters)
    (completes : Completes (.statement dangling) room tokens tree) :
    Completes .declaration room tokens tree := by
  intro fuel cursor tail depth enough ends
  obtain ⟨fuel, rfl⟩ := Nat.exists_eq_add_of_le' (show 1 ≤ fuel by omega)
  have parsed := completes fuel cursor tail depth (by omega) fun _ => ends
  obtain ⟨first, others, rfl, starter⟩ := starts
  rw [List.cons_append] at parsed ⊢
  rw [declaration_of_starter starter, parsed]

/-- Behind a token that begins an expression there is an expression. -/
theorem statement_of_starter
    {fuel : Nat}
    {first ending : Token}
    {depth : Nat}
    {reported : List Diagnostic}
    (starter : first.kind ∈ ExprPhrase.expression.starters) :
    statement (fuel + 1)
        { rest := first :: rest, ending, depth, reported } =
      expressionStatement
        { rest := first :: rest, ending, depth, reported } := by
  rw [statement]
  simp only [ExprPhrase.starters, primaryStarters, List.mem_cons,
    List.not_mem_nil, or_false] at starter
  rcases starter with same | same | same | same | same | same | same | same |
    same | same <;> simp only [same]

theorem expression
    {semicolon : Token}
    {tree : Expr}
    (derived : DerivesExpr .expression room tokens tree)
    (kind : semicolon.kind = .semicolon) :
    Completes (.statement false) room (tokens ++ [semicolon])
      (.expression tree) := by
  intro fuel cursor tail depth enough _
  simp only [List.append_assoc, List.cons_append, List.nil_append]
  obtain ⟨fuel, rfl⟩ := Nat.exists_eq_add_of_le' (show 1 ≤ fuel by omega)
  have parsed :=
    derived.parse depth
      (EndsExpression.of_kind tail
        (show semicolon.kind ∈ _ by simp [kind]))
  obtain ⟨first, others, rfl, starter⟩ := derived.starts
  rw [List.cons_append] at parsed ⊢
  rw [statement_of_starter starter, expressionStatement, parsed]
  simp only [Step.bind, Cursor.expect_of_kind kind, Step.map]

theorem print
    {keyword semicolon : Token}
    {tree : Expr}
    (keywordKind : keyword.kind = .keyword .printWord)
    (derived : DerivesExpr .expression room tokens tree)
    (kind : semicolon.kind = .semicolon) :
    Completes (.statement false) room (keyword :: tokens ++ [semicolon])
      (.print tree) := by
  intro fuel cursor tail depth enough _
  simp only [List.append_assoc, List.cons_append, List.nil_append]
  obtain ⟨fuel, rfl⟩ := Nat.exists_eq_add_of_le' (show 1 ≤ fuel by omega)
  have parsed :=
    derived.parse depth
      (EndsExpression.of_kind tail
        (show semicolon.kind ∈ _ by simp [kind]))
  rw [statement]
  simp only [keywordKind, printStatement, parsed, Step.bind,
    Cursor.expect_of_kind kind, Step.map]

theorem returning
    {keyword semicolon : Token}
    {value : Option Expr}
    (keywordKind : keyword.kind = .keyword .returnWord)
    (derived : DerivesOptional room tokens value)
    (kind : semicolon.kind = .semicolon) :
    Completes (.statement false) room (keyword :: tokens ++ [semicolon])
      (.returning keyword value) := by
  intro fuel cursor tail depth enough _
  simp only [List.append_assoc, List.cons_append, List.nil_append]
  obtain ⟨fuel, rfl⟩ := Nat.exists_eq_add_of_le' (show 1 ≤ fuel by omega)
  rw [statement]
  simp only [keywordKind, returnStatement,
    derived.parse depth kind (by simp), Step.bind,
    Cursor.expect_of_kind kind, Step.map]

theorem whileLoop
    {keyword opening closing : Token}
    {condition : Expr}
    {body : Stmt}
    (keywordKind : keyword.kind = .keyword .whileWord)
    (openingKind : opening.kind = .leftParen)
    (derived : DerivesExpr .expression room tokens condition)
    (closingKind : closing.kind = .rightParen)
    (bodyCompletes : Completes (.statement dangling) room rest body) :
    Completes (.statement dangling) room
      (keyword :: opening :: tokens ++ closing :: rest)
      (.loop condition body) := by
  intro fuel cursor tail depth enough ends
  simp only [List.length_append, List.length_cons, List.append_assoc,
    List.cons_append] at enough ⊢
  obtain ⟨fuel, rfl⟩ := Nat.exists_eq_add_of_le' (show 1 ≤ fuel by omega)
  rw [statement]
  simp only [keywordKind,
    parse_condition depth openingKind derived closingKind, Step.bind,
    bodyCompletes fuel cursor tail depth (by omega) ends, Step.map]

theorem forLoop
    {keyword opening semicolon closing : Token}
    {first second third : List Token}
    {initial : Option Stmt}
    {condition increment : Option Expr}
    {body : Stmt}
    (keywordKind : keyword.kind = .keyword .forWord)
    (openingKind : opening.kind = .leftParen)
    (initialDerived : DerivesInitial room first initial)
    (conditionDerived : DerivesOptional room second condition)
    (semicolonKind : semicolon.kind = .semicolon)
    (incrementDerived : DerivesOptional room third increment)
    (closingKind : closing.kind = .rightParen)
    (bodyCompletes : Completes (.statement dangling) room rest body) :
    Completes (.statement dangling) room
      (keyword :: opening :: first ++ second ++ semicolon :: third ++
        closing :: rest)
      (Grammar.forLoop initial condition increment body) := by
  intro fuel cursor tail depth enough ends
  simp only [List.length_append, List.length_cons, List.append_assoc,
    List.cons_append] at enough ⊢
  obtain ⟨fuel, rfl⟩ := Nat.exists_eq_add_of_le' (show 1 ≤ fuel by omega)
  rw [statement]
  simp only [keywordKind,
    parse_forClauses depth openingKind initialDerived conditionDerived
      semicolonKind incrementDerived closingKind,
    Step.bind, bodyCompletes fuel cursor tail depth (by omega) ends,
    Step.map, unfold_eq_forLoop]

theorem ifThen
    {keyword opening closing : Token}
    {condition : Expr}
    {consequent : Stmt}
    (keywordKind : keyword.kind = .keyword .ifWord)
    (openingKind : opening.kind = .leftParen)
    (derived : DerivesExpr .expression room tokens condition)
    (closingKind : closing.kind = .rightParen)
    (completes : Completes (.statement dangling) room rest consequent) :
    Completes (.statement true) room
      (keyword :: opening :: tokens ++ closing :: rest)
      (.conditional condition consequent none) := by
  intro fuel cursor tail depth enough ends
  simp only [List.length_append, List.length_cons, List.append_assoc,
    List.cons_append] at enough ⊢
  obtain ⟨fuel, rfl⟩ := Nat.exists_eq_add_of_le' (show 1 ≤ fuel by omega)
  have noAlternative :
      Cursor.accept? { cursor with rest := tail } (.keyword .elseWord) =
        none :=
    Cursor.accept?_eq_none_iff.mpr (ends rfl)
  rw [statement]
  simp only [keywordKind,
    parse_condition depth openingKind derived closingKind, Step.bind,
    completes fuel cursor tail depth (by omega) fun _ => ends rfl,
    noAlternative]

theorem ifElse
    {keyword opening closing elseWord : Token}
    {after : List Token}
    {condition : Expr}
    {consequent alternative : Stmt}
    (keywordKind : keyword.kind = .keyword .ifWord)
    (openingKind : opening.kind = .leftParen)
    (derived : DerivesExpr .expression room tokens condition)
    (closingKind : closing.kind = .rightParen)
    (consequentCompletes :
      Completes (.statement false) room rest consequent)
    (elseKind : elseWord.kind = .keyword .elseWord)
    (alternativeCompletes :
      Completes (.statement dangling) room after alternative) :
    Completes (.statement dangling) room
      (keyword :: opening :: tokens ++ closing :: rest ++ elseWord :: after)
      (.conditional condition consequent (some alternative)) := by
  intro fuel cursor tail depth enough ends
  simp only [List.length_append, List.length_cons, List.append_assoc,
    List.cons_append] at enough ⊢
  obtain ⟨fuel, rfl⟩ := Nat.exists_eq_add_of_le' (show 1 ≤ fuel by omega)
  have consequentParsed :=
    consequentCompletes fuel cursor (elseWord :: (after ++ tail)) depth
      (by simp only [List.length_cons, List.length_append]; omega)
      (by simp)
  rw [statement]
  simp only [keywordKind,
    parse_condition depth openingKind derived closingKind, Step.bind,
    consequentParsed, Cursor.accept?_of_kind elseKind,
    alternativeCompletes fuel cursor tail depth (by omega) ends, Step.map]

theorem block
    {opening closing : Token}
    {body : List Stmt}
    (openingKind : opening.kind = .leftBrace)
    (completes : Completes .declarations room tokens body)
    (closingKind : closing.kind = .rightBrace) :
    Completes (.statement false) (room + 1)
      (opening :: tokens ++ [closing]) (.block body) := by
  intro fuel cursor tail depth enough _
  simp only [List.length_append, List.length_cons, List.length_nil,
    List.append_assoc, List.cons_append, List.nil_append] at enough ⊢
  obtain ⟨fuel, rfl⟩ := Nat.exists_eq_add_of_le' (show 1 ≤ fuel by omega)
  rw [statement]
  simp only [openingKind,
    completes.block_done fuel cursor tail depth (by omega) closingKind,
    Step.map, Step.bind]

end Completes

/-- Kinds of token with which a phrase begins. -/
def Phrase.starters : Phrase → List TokenKind
  | .declarations =>
      declarationStarters
  | .declaration =>
      declarationStarters
  | .statement _ =>
      statementStarters
  | .function =>
      [.identifier]
  | .methods =>
      [.identifier]

/-- Phrases that have at least one token. -/
def Phrase.isNonempty : Phrase → Bool
  | .declarations =>
      false
  | .methods =>
      false
  | _ =>
      true

namespace Derives

variable {nearest : Bool} {phrase : Phrase} {room : Nat}
  {tokens : List Token} {tree : phrase.Tree}

/-- A derived phrase has a first token if phrases of its kind do. -/
theorem nonempty
    (derived : Derives nearest phrase room tokens tree)
    (kind : phrase.isNonempty = true) :
    tokens ≠ [] := by
  induction derived with
  | nothing | more _ _ _ _ | noMethod | moreMethods _ _ _ _ =>
      simp [Phrase.isNonempty] at kind
  | statement _ inductionHypothesis =>
      exact inductionHypothesis rfl
  | variableDecl derived =>
      cases derived <;> simp
  | _ =>
      simp

/-- A derived phrase begins with one of its starters, if it begins at all. -/
theorem starts
    (derived : Derives nearest phrase room tokens tree)
    {first : Token}
    {rest : List Token}
    (shape : tokens = first :: rest) :
    first.kind ∈ phrase.starters := by
  induction derived generalizing first rest with
  | nothing | noMethod =>
      cases shape
  | more derived _ firstStarts _ =>
      obtain ⟨token, others, rfl⟩ :=
        List.exists_cons_of_ne_nil (derived.nonempty rfl)
      cases shape
      exact firstStarts rfl
  | moreMethods derived _ firstStarts _ =>
      obtain ⟨token, others, rfl⟩ :=
        List.exists_cons_of_ne_nil (derived.nonempty rfl)
      cases shape
      exact firstStarts rfl
  | statement _ inductionHypothesis =>
      exact List.mem_append_right _ (inductionHypothesis shape)
  | expression derived _ =>
      obtain ⟨token, others, rfl, starter⟩ := derived.starts
      cases shape
      exact List.mem_append_right _ starter
  | variableDecl derived =>
      cases derived <;>
      · cases shape
        simp [Phrase.starters, declarationStarters, *]
  | _ =>
      cases shape
      simp [Phrase.starters, declarationStarters, statementStarters, *]

/-- A phrase that begins with some token does not begin with `else`. -/
theorem noElse_append
    (derived : Derives nearest phrase room tokens tree)
    {tail : List Token}
    (noElse : NoElse tail) :
    NoElse (tokens ++ tail) := by
  intro token others shape
  cases tokens with
  | nil =>
      exact noElse token others shape
  | cons first rest =>
      cases shape
      have starter := derived.starts rfl
      intro same
      cases phrase <;>
        simp [same, Phrase.starters, declarationStarters, statementStarters,
          ExprPhrase.starters, primaryStarters] at starter

/-- A phrase does not begin with `else`. -/
theorem noElse (derived : Derives nearest phrase room tokens tree) :
    NoElse tokens := by
  have appended := derived.noElse_append (show NoElse [] from fun _ _ => nofun)
  rwa [List.append_nil] at appended

end Derives

/-- Every derived phrase is parsed. -/
theorem Derives.completes
    {phrase : Phrase}
    {room : Nat}
    {tokens : List Token}
    {tree : phrase.Tree}
    (derived : Derives true phrase room tokens tree) :
    Completes phrase room tokens tree := by
  induction derived with
  | nothing =>
      exact .nothing
  | more first rest firstCompletes restCompletes =>
      obtain ⟨token, others, shape⟩ :=
        List.exists_cons_of_ne_nil (first.nonempty rfl)
      exact .more firstCompletes
        ⟨token, others, shape, first.starts shape⟩ restCompletes
        fun _ noElse => rest.noElse_append noElse
  | classDecl keywordKind nameKind openingKind _ closingKind methods =>
      exact .classDecl keywordKind nameKind openingKind methods closingKind
  | functionDecl keywordKind _ function =>
      exact .functionDecl keywordKind function
  | variableDecl derived =>
      exact .variableDecl derived
  | statement derived completes =>
      obtain ⟨token, others, shape⟩ :=
        List.exists_cons_of_ne_nil (derived.nonempty rfl)
      exact .declaration_of_statement
        ⟨token, others, shape, derived.starts shape⟩ completes
  | noMethod =>
      exact .noMethod
  | moreMethods first _ firstCompletes restCompletes =>
      obtain ⟨token, others, shape⟩ :=
        List.exists_cons_of_ne_nil (first.nonempty rfl)
      exact .moreMethods firstCompletes
        ⟨token, others, shape,
          List.mem_singleton.mp (first.starts shape)⟩ restCompletes
  | function nameKind openingKind parameters closingKind openingBraceKind _
      closingBraceKind body =>
      exact .function nameKind openingKind parameters closingKind
        openingBraceKind body closingBraceKind
  | expression derived kind =>
      exact .expression derived kind
  | print keywordKind derived kind =>
      exact .print keywordKind derived kind
  | returning keywordKind derived kind =>
      exact .returning keywordKind derived kind
  | whileLoop keywordKind openingKind derived closingKind _ body =>
      exact .whileLoop keywordKind openingKind derived closingKind body
  | forLoop keywordKind openingKind initial condition semicolonKind increment
      closingKind _ body =>
      exact .forLoop keywordKind openingKind initial condition semicolonKind
        increment closingKind body
  | ifThen keywordKind openingKind derived closingKind _ consequent =>
      exact .ifThen keywordKind openingKind derived closingKind consequent
  | ifElse keywordKind openingKind derived closingKind _ closed elseKind _
      consequent alternative =>
      cases closed rfl
      exact .ifElse keywordKind openingKind derived closingKind consequent
        elseKind alternative
  | block openingKind _ closingKind body =>
      exact .block openingKind body closingKind

end Script.Grammar
