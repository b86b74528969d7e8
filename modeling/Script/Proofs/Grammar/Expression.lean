import Script.Tree

namespace Script.Grammar

/-!
# The grammar of expressions

Which lists of tokens are expressions, and of which trees.  A phrase is derived
with some room: the number of groupings and unary operators that may be open
inside of it at once.

```text
expression → (call ".")? NAME "=" expression | operation 0
operation n → operation (n + 1) (operator-of-level-n operation (n + 1))*
operation 6 → operand
operand → ("!" | "-") operand | call
call → primary ("(" arguments? ")" | "." NAME)*
arguments → expression ("," expression)*
primary → "true" | "false" | "nil" | "this" | NUMBER | STRING | NAME
  | "(" expression ")"
```

The rules for operations and calls grow to the left, so that operators of one
level, calls and property reads group to the left; the rules for assignments
grow to the right.
-/

/-- The most arguments or parameters in one list. -/
def longestList : Nat :=
  255

/-- The most groupings, unary operators and bodies in braces that may be open at
once. -/
def deepestNesting : Nat :=
  1000

/-- The binary operators of each level, the loosest level first. -/
def operatorsOf : Nat → List TokenKind
  | 0 =>
      [.keyword .orWord]
  | 1 =>
      [.keyword .andWord]
  | 2 =>
      [.bangEqual, .equalEqual]
  | 3 =>
      [.greater, .greaterEqual, .less, .lessEqual]
  | 4 =>
      [.minus, .plus]
  | 5 =>
      [.slash, .star]
  | _ =>
      []

/-- The tree of two operands and an operator of the given level.  The two
loosest levels may leave their right operand alone. -/
def combine
    (level : Nat)
    (left : Expr)
    (operator : Token)
    (right : Expr) :
    Expr :=
  if level ≤ 1 then
    .logical left operator right
  else
    .binary left operator right

/-- The kinds of phrase in the grammar of expressions. -/
inductive ExprPhrase where
  | expression
  | operation (level : Nat)
  | operand
  | call
  | arguments
  | primary

/-- What the tree of a phrase is. -/
abbrev ExprPhrase.Tree : ExprPhrase → Type
  | .arguments =>
      List Expr
  | _ =>
      Expr

/-- `DerivesExpr phrase room tokens tree`: the tokens are such a phrase with the
given tree, and no more than `room` constructs are open in it at once. -/
inductive DerivesExpr :
    (phrase : ExprPhrase) → Nat → List Token → phrase.Tree → Prop where
  | assignName
      {room : Nat}
      {name equals : Token}
      {tokens : List Token}
      {value : Expr} :
      name.kind = .identifier →
      equals.kind = .equal →
      DerivesExpr .expression room tokens value →
      DerivesExpr .expression room (name :: equals :: tokens)
        (.assign name value none)
  | assignProperty
      {room : Nat}
      {dot name equals : Token}
      {before tokens : List Token}
      {object value : Expr} :
      DerivesExpr .call room before object →
      dot.kind = .dot →
      name.kind = .identifier →
      equals.kind = .equal →
      DerivesExpr .expression room tokens value →
      DerivesExpr .expression room (before ++ dot :: name :: equals :: tokens)
        (.setProperty object name value)
  | operation
      {room : Nat}
      {tokens : List Token}
      {tree : Expr} :
      DerivesExpr (.operation 0) room tokens tree →
      DerivesExpr .expression room tokens tree
  | join
      {level room : Nat}
      {before after : List Token}
      {operator : Token}
      {left right : Expr} :
      DerivesExpr (.operation level) room before left →
      operator.kind ∈ operatorsOf level →
      DerivesExpr (.operation (level + 1)) room after right →
      DerivesExpr (.operation level) room (before ++ operator :: after)
        (combine level left operator right)
  | tighter
      {level room : Nat}
      {tokens : List Token}
      {tree : Expr} :
      level < 6 →
      DerivesExpr (.operation (level + 1)) room tokens tree →
      DerivesExpr (.operation level) room tokens tree
  | tightest
      {room : Nat}
      {tokens : List Token}
      {tree : Expr} :
      DerivesExpr .operand room tokens tree →
      DerivesExpr (.operation 6) room tokens tree
  | unary
      {room : Nat}
      {operator : Token}
      {tokens : List Token}
      {operand : Expr} :
      operator.kind = .bang ∨ operator.kind = .minus →
      DerivesExpr .operand room tokens operand →
      DerivesExpr .operand (room + 1) (operator :: tokens)
        (.unary operator operand)
  | plain
      {room : Nat}
      {tokens : List Token}
      {tree : Expr} :
      DerivesExpr .call room tokens tree →
      DerivesExpr .operand room tokens tree
  | primary
      {room : Nat}
      {tokens : List Token}
      {tree : Expr} :
      DerivesExpr .primary room tokens tree →
      DerivesExpr .call room tokens tree
  | callNothing
      {room : Nat}
      {opening closing : Token}
      {before : List Token}
      {callee : Expr} :
      DerivesExpr .call room before callee →
      opening.kind = .leftParen →
      closing.kind = .rightParen →
      DerivesExpr .call room (before ++ [opening, closing])
        (.call callee closing [])
  | callArguments
      {room : Nat}
      {opening closing : Token}
      {before tokens : List Token}
      {callee : Expr}
      {arguments : List Expr} :
      DerivesExpr .call room before callee →
      opening.kind = .leftParen →
      DerivesExpr .arguments room tokens arguments →
      arguments.length ≤ longestList →
      closing.kind = .rightParen →
      DerivesExpr .call room (before ++ opening :: tokens ++ [closing])
        (.call callee closing arguments)
  | property
      {room : Nat}
      {dot name : Token}
      {before : List Token}
      {object : Expr} :
      DerivesExpr .call room before object →
      dot.kind = .dot →
      name.kind = .identifier →
      DerivesExpr .call room (before ++ [dot, name])
        (.property object name)
  | lastArgument
      {room : Nat}
      {tokens : List Token}
      {argument : Expr} :
      DerivesExpr .expression room tokens argument →
      DerivesExpr .arguments room tokens [argument]
  | moreArguments
      {room : Nat}
      {comma : Token}
      {first rest : List Token}
      {argument : Expr}
      {arguments : List Expr} :
      DerivesExpr .expression room first argument →
      comma.kind = .comma →
      DerivesExpr .arguments room rest arguments →
      DerivesExpr .arguments room (first ++ comma :: rest)
        (argument :: arguments)
  | falseWord
      {room : Nat}
      {token : Token} :
      token.kind = .keyword .falseWord →
      DerivesExpr .primary room [token] (.literal (.bool false))
  | trueWord
      {room : Nat}
      {token : Token} :
      token.kind = .keyword .trueWord →
      DerivesExpr .primary room [token] (.literal (.bool true))
  | nilWord
      {room : Nat}
      {token : Token} :
      token.kind = .keyword .nilWord →
      DerivesExpr .primary room [token] (.literal .nil)
  | literal
      {room : Nat}
      {token : Token} :
      token.kind = .number ∨ token.kind = .string →
      DerivesExpr .primary room [token] (.literal token.literal)
  | thisWord
      {room : Nat}
      {token : Token} :
      token.kind = .keyword .thisWord →
      DerivesExpr .primary room [token] (.receiver token none)
  | name
      {room : Nat}
      {token : Token} :
      token.kind = .identifier →
      DerivesExpr .primary room [token] (.reference token none)
  | group
      {room : Nat}
      {opening closing : Token}
      {tokens : List Token}
      {inner : Expr} :
      opening.kind = .leftParen →
      DerivesExpr .expression room tokens inner →
      closing.kind = .rightParen →
      DerivesExpr .primary (room + 1) (opening :: tokens ++ [closing])
        (.group inner)

end Script.Grammar
