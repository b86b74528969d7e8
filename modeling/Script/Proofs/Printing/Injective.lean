import Script.Proofs.Printing.Legible
import Script.Proofs.Relabel.SExpression
import Script.Proofs.Session.Pieces

namespace Script

open Grammar

/-!
# Printed programs

A program that is parsed without problems is legible: its tokens are lexemes, so
every phrase in it is.  Two such programs that are printed alike are the same but
for the lines.
-/

namespace Token.IsLexeme

variable {token : Token}

theorem isName
    (isLexeme : token.IsLexeme)
    (kind : token.kind = .identifier) :
    token.IsName := by
  obtain ⟨isWord, noKeyword, unlined⟩ := isLexeme.name kind
  have notFound : Keyword.ofText? token.lexeme = none := by
    refine List.find?_eq_none.mpr fun word _ => ?_
    simpa using (noKeyword word).symm
  exact ⟨isWord, by rw [Expr.ofWord, notFound, unlined]⟩

theorem isOperator
    (isLexeme : token.IsLexeme)
    (kind : token.kind ∈ TokenKind.operators) :
    token.IsOperator := by
  have known :
      ∀ kind ∈ TokenKind.operators,
        kind ∈ TokenKind.marks ∨
          kind = .keyword .andWord ∨ kind = .keyword .orWord := by
    decide
  refine ⟨kind, isLexeme.fixed rfl ?_⟩
  rcases known _ kind with isMark | isAnd | isOr
  · exact .inl isMark
  · exact .inr ⟨_, isAnd⟩
  · exact .inr ⟨_, isOr⟩

theorem legible
    (isLexeme : token.IsLexeme)
    (kind : token.kind = .number ∨ token.kind = .string) :
    (Expr.literal token.literal).Legible := by
  rcases kind with isNumber | isString
  · obtain ⟨value, literal, number⟩ := isLexeme.number isNumber
    rw [literal]
    exact Expr.legible_number number
  · obtain ⟨text, literal⟩ := isLexeme.string isString
    rw [literal]
    exact Expr.legible_text text

end Token.IsLexeme

namespace Grammar

/-- The binary operators of every level. -/
theorem mem_operators
    {level : Nat}
    {kind : TokenKind}
    (member : kind ∈ operatorsOf level) :
    kind ∈ TokenKind.operators := by
  unfold operatorsOf at member
  split at member <;> revert kind <;> decide

/-- The trees of a phrase are legible. -/
def ExprPhrase.Legible : (phrase : ExprPhrase) → phrase.Tree → Prop
  | .expression, tree | .operation _, tree | .operand, tree | .call, tree
  | .primary, tree =>
      Expr.Legible tree
  | .arguments, trees =>
      ∀ tree ∈ trees, Expr.Legible tree

/-- Expressions of lexemes are legible. -/
theorem DerivesExpr.legible
    {phrase : ExprPhrase}
    {room : Nat}
    {tokens : List Token}
    {tree : phrase.Tree}
    (derived : DerivesExpr phrase room tokens tree)
    (lexemes : ∀ token ∈ tokens, token.IsLexeme) :
    phrase.Legible tree := by
  induction derived with
  | assignName nameKind _ _ value =>
      simp only [List.forall_mem_cons] at lexemes
      obtain ⟨name, -, rest⟩ := lexemes
      exact Expr.legible_assign (name.isName nameKind) (value rest)
  | assignProperty _ _ nameKind _ _ object value =>
      simp only [List.forall_mem_append, List.forall_mem_cons] at lexemes
      obtain ⟨before, -, name, -, rest⟩ := lexemes
      exact Expr.legible_setProperty (object before) (name.isName nameKind)
        (value rest)
  | operation _ inner | tighter _ _ inner | tightest _ inner | plain _ inner
  | primary _ inner =>
      exact inner lexemes
  | join _ kind _ left right =>
      simp only [List.forall_mem_append, List.forall_mem_cons] at lexemes
      obtain ⟨before, operator, after⟩ := lexemes
      have legible :=
        Expr.legible_join (operator.isOperator (mem_operators kind))
          (left before) (right after)
      rw [join_eq_combine kind] at legible
      exact legible
  | unary kind _ operand =>
      simp only [List.forall_mem_cons] at lexemes
      obtain ⟨operator, rest⟩ := lexemes
      refine Expr.legible_unary (operator.isOperator ?_) (operand rest)
      rcases kind with isBang | isMinus
      · rw [isBang]
        decide
      · rw [isMinus]
        decide
  | callNothing _ _ closingKind callee =>
      simp only [List.forall_mem_append, List.forall_mem_cons] at lexemes
      obtain ⟨before, -, closing, -⟩ := lexemes
      exact Expr.legible_call (callee before)
        (closing.fixed closingKind (.inl (by decide))) (by simp)
  | callArguments _ _ _ _ closingKind callee arguments =>
      simp only [List.forall_mem_append, List.forall_mem_cons] at lexemes
      obtain ⟨⟨before, -, inside⟩, closing, -⟩ := lexemes
      exact Expr.legible_call (callee before)
        (closing.fixed closingKind (.inl (by decide))) (arguments inside)
  | property _ _ nameKind object =>
      simp only [List.forall_mem_append, List.forall_mem_cons] at lexemes
      obtain ⟨before, -, name, -⟩ := lexemes
      exact Expr.legible_property (object before) (name.isName nameKind)
  | lastArgument _ argument =>
      simpa [ExprPhrase.Legible] using argument lexemes
  | moreArguments _ _ _ first rest =>
      simp only [List.forall_mem_append, List.forall_mem_cons] at lexemes
      obtain ⟨before, -, after⟩ := lexemes
      exact List.forall_mem_cons.mpr ⟨first before, rest after⟩
  | falseWord | trueWord =>
      exact Expr.legible_bool _
  | nilWord =>
      exact Expr.legible_nil
  | literal kind =>
      exact (lexemes _ List.mem_cons_self).legible kind
  | thisWord kind =>
      have keyword := lexemes _ List.mem_cons_self
      exact Expr.legible_receiver (keyword.fixed kind (.inr ⟨_, rfl⟩))
  | name kind =>
      exact Expr.legible_reference ((lexemes _ List.mem_cons_self).isName kind)
  | group _ _ _ inner =>
      simp only [List.forall_mem_append, List.forall_mem_cons] at lexemes
      obtain ⟨⟨-, inside⟩, -⟩ := lexemes
      exact Expr.legible_group (inner inside)

theorem DerivesParameters.areNames
    {tokens names : List Token}
    (derived : DerivesParameters tokens names)
    (lexemes : ∀ token ∈ tokens, token.IsLexeme) :
    ∀ name ∈ names, name.IsName := by
  induction derived with
  | last kind =>
      simpa using (lexemes _ List.mem_cons_self).isName kind
  | more kind _ _ rest =>
      simp only [List.forall_mem_cons] at lexemes
      obtain ⟨name, -, later⟩ := lexemes
      exact List.forall_mem_cons.mpr ⟨name.isName kind, rest later⟩

theorem DerivesParameterList.areNames
    {tokens names : List Token}
    (derived : DerivesParameterList tokens names)
    (lexemes : ∀ token ∈ tokens, token.IsLexeme) :
    ∀ name ∈ names, name.IsName := by
  cases derived with
  | nothing =>
      simp
  | something derived =>
      exact derived.areNames lexemes

theorem DerivesOptional.legible
    {room : Nat}
    {tokens : List Token}
    {value : Option Expr}
    (derived : DerivesOptional room tokens value)
    (lexemes : ∀ token ∈ tokens, token.IsLexeme) :
    ∀ expr ∈ value, expr.Legible := by
  cases derived with
  | nothing =>
      simp
  | @something _ tree derived =>
      have legible : tree.Legible := derived.legible lexemes
      simpa using legible

theorem DerivesVariable.legible
    {room : Nat}
    {tokens : List Token}
    {tree : Stmt}
    (derived : DerivesVariable room tokens tree)
    (lexemes : ∀ token ∈ tokens, token.IsLexeme) :
    tree.Legible := by
  cases derived with
  | bare _ nameKind =>
      simp only [List.forall_mem_cons] at lexemes
      obtain ⟨-, name, -⟩ := lexemes
      exact Stmt.legible_variableDecl (name.isName nameKind) (by simp)
  | @initialized _ _ _ _ _ initial _ nameKind _ derived =>
      simp only [List.forall_mem_append, List.forall_mem_cons] at lexemes
      obtain ⟨⟨-, name, -, inside⟩, -⟩ := lexemes
      have legible : initial.Legible := derived.legible inside
      exact Stmt.legible_variableDecl (name.isName nameKind)
        (by simpa using legible)

theorem DerivesInitial.legible
    {room : Nat}
    {tokens : List Token}
    {initial : Option Stmt}
    (derived : DerivesInitial room tokens initial)
    (lexemes : ∀ token ∈ tokens, token.IsLexeme) :
    ∀ stmt ∈ initial, stmt.Legible := by
  cases derived with
  | nothing =>
      simp
  | declared derived =>
      simpa using derived.legible lexemes
  | expression derived =>
      simp only [List.forall_mem_append] at lexemes
      simpa using Stmt.legible_expression (derived.legible lexemes.1)

/-- A loop put together of legible clauses is legible. -/
theorem legible_forLoop
    {initial : Option Stmt}
    {condition increment : Option Expr}
    {body : Stmt}
    (legibleInitial : ∀ stmt ∈ initial, stmt.Legible)
    (legibleCondition : ∀ expr ∈ condition, expr.Legible)
    (legibleIncrement : ∀ expr ∈ increment, expr.Legible)
    (legibleBody : body.Legible) :
    (forLoop initial condition increment body).Legible := by
  have asked : (condition.getD (.literal (.bool true))).Legible := by
    cases condition with
    | none =>
        exact Expr.legible_bool true
    | some condition =>
        exact legibleCondition condition rfl
  have loop :
      (forLoop none condition increment body).Legible := by
    refine Stmt.legible_loop asked ?_
    cases increment with
    | none =>
        exact legibleBody
    | some increment =>
        have repeated :=
          Stmt.legible_expression (legibleIncrement increment rfl)
        exact Stmt.legible_block (by simpa using ⟨legibleBody, repeated⟩)
  cases initial with
  | none =>
      exact loop
  | some initial =>
      have first := legibleInitial initial rfl
      exact Stmt.legible_block
        (List.forall_mem_cons.mpr ⟨first, List.forall_mem_singleton.mpr loop⟩)

/-- The trees of a phrase are legible. -/
def Phrase.Legible : (phrase : Phrase) → phrase.Tree → Prop
  | .declarations, trees =>
      ∀ tree ∈ trees, Stmt.Legible tree
  | .declaration, tree | .statement _, tree =>
      Stmt.Legible tree
  | .function, tree =>
      FunctionDecl.Legible tree
  | .methods, trees =>
      ∀ tree ∈ trees, FunctionDecl.Legible tree

/-- Programs of lexemes are legible. -/
theorem Derives.legible
    {nearest : Bool}
    {phrase : Phrase}
    {room : Nat}
    {tokens : List Token}
    {tree : phrase.Tree}
    (derived : Derives nearest phrase room tokens tree)
    (lexemes : ∀ token ∈ tokens, token.IsLexeme) :
    phrase.Legible tree := by
  induction derived with
  | nothing | noMethod =>
      exact fun _ member => absurd member List.not_mem_nil
  | more _ _ first rest | moreMethods _ _ first rest =>
      simp only [List.forall_mem_append] at lexemes
      exact List.forall_mem_cons.mpr ⟨first lexemes.1, rest lexemes.2⟩
  | classDecl _ nameKind _ _ _ methods =>
      simp only [List.forall_mem_append, List.forall_mem_cons] at lexemes
      obtain ⟨⟨-, name, -, inside⟩, -⟩ := lexemes
      exact Stmt.legible_classDecl (name.isName nameKind) (methods inside)
  | functionDecl _ _ function =>
      simp only [List.forall_mem_cons] at lexemes
      exact Stmt.legible_functionDecl (function lexemes.2)
  | variableDecl derived =>
      exact derived.legible lexemes
  | statement _ statement =>
      exact statement lexemes
  | function nameKind _ parameters _ _ _ _ body =>
      simp only [List.forall_mem_append, List.forall_mem_cons] at lexemes
      obtain ⟨⟨⟨name, -, list⟩, -, -, inside⟩, -⟩ := lexemes
      exact FunctionDecl.legible_of_names (name.isName nameKind)
        (parameters.areNames list) (body inside)
  | expression derived =>
      simp only [List.forall_mem_append] at lexemes
      exact Stmt.legible_expression (derived.legible lexemes.1)
  | print _ derived =>
      simp only [List.forall_mem_append, List.forall_mem_cons] at lexemes
      obtain ⟨⟨-, inside⟩, -⟩ := lexemes
      exact Stmt.legible_print (derived.legible inside)
  | returning keywordKind derived =>
      simp only [List.forall_mem_append, List.forall_mem_cons] at lexemes
      obtain ⟨⟨keyword, inside⟩, -⟩ := lexemes
      exact Stmt.legible_returning
        (keyword.fixed keywordKind (.inr ⟨_, rfl⟩)) (derived.legible inside)
  | whileLoop _ _ derived _ _ body =>
      simp only [List.forall_mem_append, List.forall_mem_cons] at lexemes
      obtain ⟨⟨-, -, inside⟩, -, behind⟩ := lexemes
      exact Stmt.legible_loop (derived.legible inside) (body behind)
  | forLoop _ _ initial condition _ increment _ _ body =>
      simp only [List.forall_mem_append, List.forall_mem_cons] at lexemes
      obtain ⟨⟨⟨⟨-, -, first⟩, second⟩, -, third⟩, -, behind⟩ := lexemes
      exact legible_forLoop (initial.legible first) (condition.legible second)
        (increment.legible third) (body behind)
  | ifThen _ _ derived _ _ consequent =>
      simp only [List.forall_mem_append, List.forall_mem_cons] at lexemes
      obtain ⟨⟨-, -, inside⟩, -, behind⟩ := lexemes
      exact Stmt.legible_conditional (derived.legible inside)
        (consequent behind) (by simp)
  | @ifElse _ _ _ _ _ _ _ _ _ _ _ _ other _ _ derived _ _ _ _ _ consequent
      alternative =>
      simp only [List.forall_mem_append, List.forall_mem_cons] at lexemes
      obtain ⟨⟨⟨-, -, inside⟩, -, before⟩, -, after⟩ := lexemes
      have legible : other.Legible := alternative after
      exact Stmt.legible_conditional (derived.legible inside)
        (consequent before) (by simpa using legible)
  | block _ _ _ body =>
      simp only [List.forall_mem_append, List.forall_mem_cons] at lexemes
      obtain ⟨⟨-, inside⟩, -⟩ := lexemes
      exact Stmt.legible_block (body inside)

end Grammar

namespace Program

/-- The statements of a program without problems are legible. -/
theorem legible_of_problems
    {source : Text}
    (silent : (ofSource source).problems = []) :
    ∀ stmt ∈ (ofSource source).statements, stmt.Legible := by
  refine (accepts_of_problems silent).derived.legible fun token member => ?_
  have inside : token ∈ (Scan.ofSource source).tokens := by
    rw [Scan.ofSource, Scan.tokens_ofSegments]
    exact List.mem_append_left _ member
  exact Scan.isLexeme_of_mem_tokens inside (Scan.kind_of_mem_lexemes member)

end Program

/-- Legible statements that are printed alike are the same but for the lines. -/
theorem Stmt.relabelAll_eq_of_sexprLines
    {stmts others : List Stmt}
    (legible : ∀ stmt ∈ stmts, stmt.Legible)
    (otherLegible : ∀ stmt ∈ others, stmt.Legible)
    (printed : sexprLines stmts = sexprLines others) :
    relabelAll Token.unlined stmts = relabelAll Token.unlined others := by
  rw [sexprLines_eq_writeLines, sexprLines_eq_writeLines] at printed
  have shapes :=
    SExpression.Shape.writeLines_inj (proper_shapes legible)
      (proper_shapes otherLegible) printed
  rw [← toStmts_shapes legible, shapes, toStmts_shapes otherLegible]

namespace Program

/-- Two programs without problems are printed as the same text exactly when their
statements are the same but for the lines of tokens. -/
theorem sexprLines_eq_iff
    {first second : Text}
    (silent : (ofSource first).problems = [])
    (otherSilent : (ofSource second).problems = []) :
    Stmt.sexprLines (ofSource first).statements =
        Stmt.sexprLines (ofSource second).statements ↔
      Stmt.relabelAll Token.unlined (ofSource first).statements =
        Stmt.relabelAll Token.unlined (ofSource second).statements := by
  constructor
  · exact Stmt.relabelAll_eq_of_sexprLines (legible_of_problems silent)
      (legible_of_problems otherSilent)
  · intro same
    rw [← Stmt.sexprLines_relabelAll Token.unlined_relabels, same,
      Stmt.sexprLines_relabelAll Token.unlined_relabels]

/-- A text with a bare return, an empty block, a number and a string that looks
like a printed tree. -/
def nearestElse : Text :=
  Text.utf8 "if (a) if (b) return; else \x7b\x7d print \") (\" + f(1.50)(x).y;"

/-- The same words with the alternative at the outer conditional. -/
def outerElse : Text :=
  Text.utf8
    "if (a) \x7b if (b) return; \x7d else \x7b\x7d\nprint \") (\" + f(1.5)(x).y;"

/-- The two texts are printed alike only if they are the same program. -/
theorem sexprLines_eq_iff_nearestElse :
    (ofSource nearestElse).problems = [] ∧
      (ofSource outerElse).problems = [] ∧
      (Stmt.sexprLines (ofSource nearestElse).statements =
          Stmt.sexprLines (ofSource outerElse).statements ↔
        Stmt.relabelAll Token.unlined (ofSource nearestElse).statements =
          Stmt.relabelAll Token.unlined (ofSource outerElse).statements) := by
  have silent : (ofSource nearestElse).problems = [] :=
    List.isEmpty_iff.mp (by decide +kernel)
  have otherSilent : (ofSource outerElse).problems = [] :=
    List.isEmpty_iff.mp (by decide +kernel)
  exact ⟨silent, otherSilent, sexprLines_eq_iff silent otherSilent⟩

end Program

end Script
