import Script.Proofs.Printing.Reading
import Script.Proofs.Relabel.ExprParser

namespace Script

/-!
# Legible trees

A tree is legible when its shape can be told from its text and is read back as
the tree itself, but for the lines.  Trees put together of legible ones in the way
of the parser are legible.
-/

open SExpression

/-! Names and operators are told from their spelling. -/

namespace SExpression.Shape

/-- A text is a word when its bytes can be seen to make one. -/
theorem isWord_of_bytes
    {text : Text}
    (plain : text.all isPlain = true)
    (first : (text.head?.any fun byte => !decide (Decimal.IsDigit byte)) = true)
    (notInfinite : text ≠ Text.utf8 "+Inf") :
    IsWord text := by
  cases text with
  | nil =>
      cases first
  | cons byte rest =>
      exact ⟨List.all_eq_true.mp plain, ⟨byte, rest, rfl, by simpa using first⟩,
        notInfinite⟩

/-- The words at the heads of lists, operators left out. -/
def heads : List String :=
  ["group", "=", "call", ".", "=.", "expr", "print", "var", "block", "if",
   "while", "fun", "return", "class"]

/-- A list of proper shapes behind its head. -/
theorem proper_headed
    {head : String}
    {items : List Shape}
    (member : head ∈ heads)
    (proper : ∀ item ∈ items, item.Proper) :
    (headed head items).Proper := by
  have isWord : IsWord (Text.utf8 head) := by
    clear proper
    apply isWord_of_bytes <;> revert head <;> decide
  refine .list fun item member => ?_
  rcases List.mem_cons.mp member with rfl | inside
  · exact .word isWord
  · exact proper item inside

end SExpression.Shape

open SExpression.Shape

/-- A name, which is read back as the name of a reference. -/
structure Token.IsName (token : Token) : Prop where
  isWord : IsWord token.lexeme
  read : Expr.ofWord token.lexeme = .reference token.unlined none

/-- An operator, which is known from its kind. -/
structure Token.IsOperator (token : Token) : Prop where
  kind : token.kind ∈ TokenKind.operators
  fixed : token.unlined = token.kind.token

namespace Token.IsOperator

variable {token : Token}

theorem lexeme (isOperator : token.IsOperator) :
    token.lexeme = Text.utf8 token.kind.name :=
  congrArg Token.lexeme isOperator.fixed

theorem isWord (isOperator : token.IsOperator) :
    IsWord token.lexeme := by
  have member := isOperator.kind
  rw [isOperator.lexeme]
  generalize token.kind = kind at member
  apply isWord_of_bytes <;> revert kind <;> decide

theorem operatorOf (isOperator : token.IsOperator) :
    Token.operatorOf token.lexeme = token.unlined := by
  have found :
      ∀ kind ∈ TokenKind.operators,
        TokenKind.operators.find?
          (fun other => Text.utf8 other.name == Text.utf8 kind.name) =
            some kind := by
    decide
  rw [isOperator.lexeme, isOperator.fixed]
  simp only [Token.operatorOf, found _ isOperator.kind, Option.getD_some]

/-- An operator is no other head of a list of expressions. -/
theorem ne_head
    (isOperator : token.IsOperator)
    {head : String}
    (member : head ∈ heads) :
    token.lexeme ≠ Text.utf8 head := by
  have apart :
      ∀ kind ∈ TokenKind.operators,
        ∀ head ∈ heads, Text.utf8 kind.name ≠ Text.utf8 head := by
    decide
  rw [isOperator.lexeme]
  exact apart _ isOperator.kind head member

end Token.IsOperator

/-! Legible expressions. -/

/-- An expression that can be told from its text, but for the lines. -/
structure Expr.Legible (expr : Expr) : Prop where
  proper : expr.shape.Proper
  read : expr.shape.toExpr = expr.relabel Token.unlined

namespace Token.IsName

variable {name : Token}

theorem proper (isName : name.IsName) :
    name.shape.Proper :=
  .word isName.isWord

theorem toExpr (isName : name.IsName) :
    name.shape.toExpr = .reference name.unlined none := by
  rw [Token.shape, Shape.toExpr, isName.read]

theorem named (isName : name.IsName) :
    name.shape.toExpr.named = name.unlined := by
  rw [isName.toExpr, Expr.named]

end Token.IsName

namespace Expr

variable
  {name operator : Token}
  {expr left right : Expr}
  {exprs : List Expr}

theorem proper_shapes (legible : ∀ expr ∈ exprs, expr.Legible) :
    ∀ shape ∈ shapes exprs, shape.Proper := by
  induction exprs with
  | nil =>
      rw [shapes]
      simp
  | cons first rest inductionHypothesis =>
      rw [shapes]
      obtain ⟨here, later⟩ := List.forall_mem_cons.mp legible
      exact List.forall_mem_cons.mpr ⟨here.proper, inductionHypothesis later⟩

theorem toExprs_shapes (legible : ∀ expr ∈ exprs, expr.Legible) :
    Shape.toExprs (shapes exprs) = relabelAll Token.unlined exprs := by
  induction exprs with
  | nil =>
      rw [shapes, Shape.toExprs, relabelAll]
  | cons first rest inductionHypothesis =>
      obtain ⟨here, later⟩ := List.forall_mem_cons.mp legible
      rw [shapes, Shape.toExprs, relabelAll, here.read,
        inductionHypothesis later]

theorem legible_nil :
    Legible (.literal .nil) where
  proper := by
    rw [shape, Literal.shape]
    exact .word (by apply isWord_of_bytes <;> decide)
  read := by
    rw [shape, Literal.shape, Shape.toExpr, relabel]
    rfl

theorem legible_bool (value : Bool) :
    Legible (.literal (.bool value)) where
  proper := by
    rw [shape, Literal.shape]
    exact .word (by apply isWord_of_bytes <;> revert value <;> decide)
  read := by
    rw [shape, Literal.shape, Shape.toExpr, relabel]
    cases value <;> rfl

theorem legible_number
    {value : Float}
    (isNumber : value.toBits.toNat ≤ Double.infiniteBits) :
    Legible (.literal (.number value)) where
  proper := by
    rw [shape, Literal.shape]
    exact .number isNumber
  read := by
    rw [shape, Literal.shape, Shape.toExpr, relabel]

theorem legible_text (value : Text) :
    Legible (.literal (.text value)) where
  proper := by
    rw [shape, Literal.shape]
    exact .string
  read := by
    rw [shape, Literal.shape, Shape.toExpr, relabel]

theorem legible_reference (isName : name.IsName) :
    Legible (.reference name none) where
  proper := by
    rw [shape]
    exact isName.proper
  read := by
    rw [shape, isName.toExpr, relabel]

theorem legible_receiver
    (fixed : name.unlined = (TokenKind.keyword .thisWord).token) :
    Legible (.receiver name none) where
  proper := by
    rw [shape]
    exact .word (by apply isWord_of_bytes <;> decide)
  read := by
    rw [shape, Shape.toExpr, relabel, fixed]
    rfl

theorem legible_group (legible : expr.Legible) :
    (group expr).Legible where
  proper := by
    rw [shape]
    exact proper_headed (by decide) (by simpa using legible.proper)
  read := by
    simp only [shape, headed, Shape.toExpr, Shape.toExprs, legible.read,
      relabel]
    rfl

theorem legible_unary
    (isOperator : operator.IsOperator)
    (legible : expr.Legible) :
    (unary operator expr).Legible where
  proper := by
    rw [shape]
    refine .list ?_
    simpa using ⟨.word isOperator.isWord, legible.proper⟩
  read := by
    simp only [shape, Token.shape, Shape.toExpr, Shape.toExprs, legible.read,
      relabel, ofList, isOperator.ne_head (show "call" ∈ heads by decide),
      isOperator.ne_head (show "group" ∈ heads by decide), if_false,
      isOperator.operatorOf]

/-- Operands are joined in one way, whatever the operator. -/
theorem shape_join :
    (join left operator right).shape =
      .list [operator.shape, left.shape, right.shape] := by
  unfold join
  split <;> rw [shape]

theorem legible_join
    (isOperator : operator.IsOperator)
    (legibleLeft : left.Legible)
    (legibleRight : right.Legible) :
    (join left operator right).Legible where
  proper := by
    rw [shape_join]
    refine .list ?_
    simpa using
      ⟨.word isOperator.isWord, legibleLeft.proper, legibleRight.proper⟩
  read := by
    simp only [shape_join, Token.shape, Shape.toExpr, Shape.toExprs,
      legibleLeft.read, legibleRight.read, ofList,
      ← join_relabel Token.unlined_relabels,
      isOperator.ne_head (show "call" ∈ heads by decide),
      isOperator.ne_head (show "=" ∈ heads by decide),
      isOperator.ne_head (show "." ∈ heads by decide), if_false,
      isOperator.operatorOf]

theorem legible_assign
    (isName : name.IsName)
    (legible : expr.Legible) :
    (assign name expr none).Legible where
  proper := by
    rw [shape]
    exact proper_headed (by decide)
      (by simpa using ⟨isName.proper, legible.proper⟩)
  read := by
    simp only [shape, headed, Shape.toExpr, Shape.toExprs, isName.toExpr,
      legible.read, relabel]
    rfl

theorem legible_call
    (legible : expr.Legible)
    (fixed : operator.unlined = TokenKind.rightParen.token)
    (legibleAll : ∀ expr ∈ exprs, expr.Legible) :
    (call expr operator exprs).Legible where
  proper := by
    rw [shape]
    exact proper_headed (by decide)
      (List.forall_mem_cons.mpr ⟨legible.proper, proper_shapes legibleAll⟩)
  read := by
    simp only [shape, headed, Shape.toExpr, Shape.toExprs, legible.read,
      toExprs_shapes legibleAll, relabel, fixed]
    rfl

theorem legible_property
    (legible : expr.Legible)
    (isName : name.IsName) :
    (property expr name).Legible where
  proper := by
    rw [shape]
    exact proper_headed (by decide)
      (by simpa using ⟨legible.proper, isName.proper⟩)
  read := by
    simp only [shape, headed, Shape.toExpr, Shape.toExprs, isName.toExpr,
      legible.read, relabel]
    rfl

theorem legible_setProperty
    (legible : left.Legible)
    (isName : name.IsName)
    (legibleValue : right.Legible) :
    (setProperty left name right).Legible where
  proper := by
    rw [shape]
    exact proper_headed (by decide)
      (by simpa using ⟨legible.proper, isName.proper, legibleValue.proper⟩)
  read := by
    simp only [shape, headed, Shape.toExpr, Shape.toExprs, isName.toExpr,
      legible.read, legibleValue.read, relabel]
    rfl

/-- An expression that may be left out is read back as such. -/
theorem read_optionalShape
    {value : Option Expr}
    (legible : ∀ expr ∈ value, expr.Legible) :
    (∀ shape ∈ optionalShape value, shape.Proper) ∧
      (optionalShape value).head?.map Shape.toExpr =
        value.map (relabel Token.unlined) := by
  cases value with
  | none =>
      simp [optionalShape]
  | some expr =>
      have here := legible expr rfl
      simp [optionalShape, here.proper, here.read]

end Expr

/-! Legible statements. -/

/-- A statement that can be told from its text, but for the lines. -/
structure Stmt.Legible (stmt : Stmt) : Prop where
  proper : stmt.shape.Proper
  read : stmt.shape.toStmt = stmt.relabel Token.unlined

/-- A function that can be told from its text, but for the lines. -/
structure FunctionDecl.Legible (function : FunctionDecl) : Prop where
  proper : function.shape.Proper
  read :
    function.shape.toStmt = .functionDecl (function.relabel Token.unlined)

namespace Stmt

variable
  {name : Token}
  {expr : Expr}
  {stmt consequent : Stmt}
  {stmts : List Stmt}
  {functions : List FunctionDecl}

theorem proper_shapes (legible : ∀ stmt ∈ stmts, stmt.Legible) :
    ∀ shape ∈ shapes stmts, shape.Proper := by
  induction stmts with
  | nil =>
      rw [shapes]
      simp
  | cons first rest inductionHypothesis =>
      rw [shapes]
      obtain ⟨here, later⟩ := List.forall_mem_cons.mp legible
      exact List.forall_mem_cons.mpr ⟨here.proper, inductionHypothesis later⟩

theorem toStmts_shapes (legible : ∀ stmt ∈ stmts, stmt.Legible) :
    Shape.toStmts (shapes stmts) = relabelAll Token.unlined stmts := by
  induction stmts with
  | nil =>
      rw [shapes, Shape.toStmts, relabelAll]
  | cons first rest inductionHypothesis =>
      obtain ⟨here, later⟩ := List.forall_mem_cons.mp legible
      rw [shapes, Shape.toStmts, relabelAll, here.read,
        inductionHypothesis later]

theorem legible_expression (legible : expr.Legible) :
    (expression expr).Legible where
  proper := by
    rw [shape]
    exact proper_headed (by decide) (by simpa using legible.proper)
  read := by
    simp only [shape, headed, Shape.toStmt, Shape.toStmts, relabel,
      ← legible.read]
    rfl

theorem legible_print (legible : expr.Legible) :
    (print expr).Legible where
  proper := by
    rw [shape]
    exact proper_headed (by decide) (by simpa using legible.proper)
  read := by
    simp only [shape, headed, Shape.toStmt, Shape.toStmts, relabel,
      ← legible.read]
    rfl

theorem legible_variableDecl
    {initial : Option Expr}
    (isName : name.IsName)
    (legible : ∀ expr ∈ initial, expr.Legible) :
    (variableDecl name initial).Legible where
  proper := by
    rw [shape]
    exact proper_headed (by decide)
      (List.forall_mem_cons.mpr
        ⟨isName.proper, (Expr.read_optionalShape legible).1⟩)
  read := by
    simp only [shape, headed, Shape.toStmt, Shape.toStmts, relabel,
      ← (Expr.read_optionalShape legible).2, ← isName.named]
    rfl

theorem legible_block (legible : ∀ stmt ∈ stmts, stmt.Legible) :
    (block stmts).Legible where
  proper := by
    rw [shape]
    exact proper_headed (by decide) (proper_shapes legible)
  read := by
    simp only [shape, headed, Shape.toStmt, relabel, ← toStmts_shapes legible]
    rfl

theorem legible_returning
    {value : Option Expr}
    (fixed : name.unlined = (TokenKind.keyword .returnWord).token)
    (legible : ∀ expr ∈ value, expr.Legible) :
    (returning name value).Legible where
  proper := by
    rw [shape]
    exact proper_headed (by decide) (Expr.read_optionalShape legible).1
  read := by
    simp only [shape, headed, Shape.toStmt, relabel,
      ← (Expr.read_optionalShape legible).2, fixed]
    rfl

theorem legible_loop
    (legible : expr.Legible)
    (legibleBody : stmt.Legible) :
    (loop expr stmt).Legible where
  proper := by
    rw [shape]
    exact proper_headed (by decide)
      (by simpa using ⟨legible.proper, legibleBody.proper⟩)
  read := by
    simp only [shape, headed, Shape.toStmt, Shape.toStmts, relabel,
      ← legible.read, ← legibleBody.read]
    rfl

theorem legible_conditional
    {alternative : Option Stmt}
    (legible : expr.Legible)
    (legibleConsequent : consequent.Legible)
    (legibleAlternative : ∀ stmt ∈ alternative, stmt.Legible) :
    (conditional expr consequent alternative).Legible where
  proper := by
    cases alternative with
    | none =>
        rw [shape]
        exact proper_headed (by decide)
          (by simpa using ⟨legible.proper, legibleConsequent.proper⟩)
    | some stmt =>
        have legibleStmt := legibleAlternative stmt rfl
        rw [shape]
        exact proper_headed (by decide)
          (by
            simpa using
              ⟨legible.proper, legibleConsequent.proper, legibleStmt.proper⟩)
  read := by
    cases alternative with
    | none =>
        simp only [shape, headed, Shape.toStmt, Shape.toStmts, relabel,
          ← legible.read, ← legibleConsequent.read]
        rfl
    | some stmt =>
        have legibleStmt := legibleAlternative stmt rfl
        simp only [shape, headed, Shape.toStmt, Shape.toStmts, relabel,
          ← legible.read, ← legibleConsequent.read, ← legibleStmt.read]
        rfl

end Stmt

namespace FunctionDecl

variable
  {name : Token}
  {parameters : List Token}
  {stmts : List Stmt}
  {functions : List FunctionDecl}

theorem legible_of_names
    (isName : name.IsName)
    (areNames : ∀ name ∈ parameters, name.IsName)
    (legible : ∀ stmt ∈ stmts, stmt.Legible) :
    ({ name, parameters, body := stmts } : FunctionDecl).Legible where
  proper := by
    rw [shape]
    refine proper_headed (by decide) (List.forall_mem_cons.mpr
      ⟨isName.proper, List.forall_mem_cons.mpr ⟨.list ?_, ?_⟩⟩)
    · intro item member
      obtain ⟨parameter, isParameter, rfl⟩ := List.mem_map.mp member
      exact (areNames parameter isParameter).proper
    · exact Stmt.proper_shapes legible
  read := by
    have namedAll :
        (parameters.map Token.shape).map (·.toExpr.named) =
          parameters.map Token.unlined := by
      rw [List.map_map]
      exact List.map_congr_left fun name member => (areNames name member).named
    simp only [shape, headed, Shape.toStmt, Shape.toStmts, relabel,
      ← isName.named, ← namedAll, ← Stmt.toStmts_shapes legible]
    rfl

theorem proper_shapes (legible : ∀ function ∈ functions, function.Legible) :
    ∀ shape ∈ shapes functions, shape.Proper := by
  induction functions with
  | nil =>
      rw [shapes]
      simp
  | cons first rest inductionHypothesis =>
      rw [shapes]
      obtain ⟨here, later⟩ := List.forall_mem_cons.mp legible
      exact List.forall_mem_cons.mpr ⟨here.proper, inductionHypothesis later⟩

theorem toStmts_shapes (legible : ∀ function ∈ functions, function.Legible) :
    (Shape.toStmts (shapes functions)).filterMap Stmt.declared? =
      relabelAll Token.unlined functions := by
  induction functions with
  | nil =>
      rw [shapes, Shape.toStmts, relabelAll]
      rfl
  | cons first rest inductionHypothesis =>
      obtain ⟨here, later⟩ := List.forall_mem_cons.mp legible
      rw [shapes, Shape.toStmts, relabelAll, here.read,
        ← inductionHypothesis later]
      rfl

end FunctionDecl

namespace Stmt

theorem legible_functionDecl
    {function : FunctionDecl}
    (legible : function.Legible) :
    (functionDecl function).Legible where
  proper := by
    rw [shape]
    exact legible.proper
  read := by
    rw [shape, relabel, legible.read]

theorem legible_classDecl
    {name : Token}
    {methods : List FunctionDecl}
    (isName : name.IsName)
    (legible : ∀ method ∈ methods, method.Legible) :
    (classDecl name methods).Legible where
  proper := by
    rw [shape]
    exact proper_headed (by decide)
      (List.forall_mem_cons.mpr
        ⟨isName.proper, FunctionDecl.proper_shapes legible⟩)
  read := by
    simp only [shape, headed, Shape.toStmt, Shape.toStmts, relabel,
      ← isName.named, ← FunctionDecl.toStmts_shapes legible]
    rfl

end Stmt

end Script
