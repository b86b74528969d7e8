import Script.Proofs.Grammar.Expression

namespace Script.Grammar

/-!
# The grammar of programs

```text
program → declaration*
declaration → "class" NAME "{" function* "}" | "fun" function
  | "var" NAME ("=" expression)? ";" | statement
function → NAME "(" parameters? ")" "{" declaration* "}"
statement → expression ";" | "print" expression ";"
  | "return" expression? ";" | "while" "(" expression ")" statement
  | "for" "(" (variable | expression ";" | ";") expression? ";"
      expression? ")" statement
  | "if" "(" expression ")" statement ("else" statement)?
  | "{" declaration* "}"
```

This grammar is ambiguous in one way: an `else` may belong to any of several
open conditionals.  A statement is *dangling* when it ends in a conditional that
has no `else`, so that one behind it could still belong to it.  The relation
`Derives` has a parameter that says whether an `else` must belong to the nearest
conditional; it may then not follow a dangling consequent.
-/

/-- The trees of the clauses of a `for` loop around its body, missing clauses
left out. -/
def forLoop
    (initial : Option Stmt)
    (condition increment : Option Expr)
    (body : Stmt) :
    Stmt :=
  let repeated :=
    match increment with
    | some increment =>
        .block [body, .expression increment]
    | none =>
        body
  let loop := .loop (condition.getD (.literal (.bool true))) repeated
  match initial with
  | some initial =>
      .block [initial, loop]
  | none =>
      loop

/-- Names divided by commas. -/
inductive DerivesParameters : List Token → List Token → Prop where
  | last
      {name : Token} :
      name.kind = .identifier →
      DerivesParameters [name] [name]
  | more
      {name comma : Token}
      {tokens names : List Token} :
      name.kind = .identifier →
      comma.kind = .comma →
      DerivesParameters tokens names →
      DerivesParameters (name :: comma :: tokens) (name :: names)

/-- A list of parameters between its parentheses, which may be empty. -/
inductive DerivesParameterList : List Token → List Token → Prop where
  | nothing :
      DerivesParameterList [] []
  | something
      {tokens names : List Token} :
      DerivesParameters tokens names →
      names.length ≤ longestList →
      DerivesParameterList tokens names

/-- An expression or nothing. -/
inductive DerivesOptional
    (room : Nat) :
    List Token → Option Expr → Prop where
  | nothing :
      DerivesOptional room [] none
  | something
      {tokens : List Token}
      {tree : Expr} :
      DerivesExpr .expression room tokens tree →
      DerivesOptional room tokens (some tree)

/-- The declaration of a variable. -/
inductive DerivesVariable
    (room : Nat) :
    List Token → Stmt → Prop where
  | bare
      {keyword name semicolon : Token} :
      keyword.kind = .keyword .varWord →
      name.kind = .identifier →
      semicolon.kind = .semicolon →
      DerivesVariable room [keyword, name, semicolon]
        (.variableDecl name none)
  | initialized
      {keyword name equals semicolon : Token}
      {tokens : List Token}
      {initial : Expr} :
      keyword.kind = .keyword .varWord →
      name.kind = .identifier →
      equals.kind = .equal →
      DerivesExpr .expression room tokens initial →
      semicolon.kind = .semicolon →
      DerivesVariable room
        (keyword :: name :: equals :: tokens ++ [semicolon])
        (.variableDecl name (some initial))

/-- The first clause of a `for` loop. -/
inductive DerivesInitial
    (room : Nat) :
    List Token → Option Stmt → Prop where
  | nothing
      {semicolon : Token} :
      semicolon.kind = .semicolon →
      DerivesInitial room [semicolon] none
  | declared
      {tokens : List Token}
      {tree : Stmt} :
      DerivesVariable room tokens tree →
      DerivesInitial room tokens (some tree)
  | expression
      {semicolon : Token}
      {tokens : List Token}
      {tree : Expr} :
      DerivesExpr .expression room tokens tree →
      semicolon.kind = .semicolon →
      DerivesInitial room (tokens ++ [semicolon]) (some (.expression tree))

/-- The kinds of phrase in the grammar of programs. -/
inductive Phrase where
  | declarations
  | declaration
  | statement (dangling : Bool)
  | function
  | methods

/-- What the tree of a phrase is. -/
abbrev Phrase.Tree : Phrase → Type
  | .declarations =>
      List Stmt
  | .function =>
      FunctionDecl
  | .methods =>
      List FunctionDecl
  | _ =>
      Stmt

/-- `Derives nearest phrase room tokens tree`: the tokens are such a phrase with
the given tree, and no more than `room` constructs are open in it at once. -/
inductive Derives
    (nearest : Bool) :
    (phrase : Phrase) → Nat → List Token → phrase.Tree → Prop where
  | nothing
      {room : Nat} :
      Derives nearest .declarations room [] []
  | more
      {room : Nat}
      {first rest : List Token}
      {stmt : Stmt}
      {stmts : List Stmt} :
      Derives nearest .declaration room first stmt →
      Derives nearest .declarations room rest stmts →
      Derives nearest .declarations room (first ++ rest) (stmt :: stmts)
  | classDecl
      {room : Nat}
      {keyword name opening closing : Token}
      {tokens : List Token}
      {methods : List FunctionDecl} :
      keyword.kind = .keyword .classWord →
      name.kind = .identifier →
      opening.kind = .leftBrace →
      Derives nearest .methods room tokens methods →
      closing.kind = .rightBrace →
      Derives nearest .declaration room
        (keyword :: name :: opening :: tokens ++ [closing])
        (.classDecl name methods)
  | functionDecl
      {room : Nat}
      {keyword : Token}
      {tokens : List Token}
      {function : FunctionDecl} :
      keyword.kind = .keyword .funWord →
      Derives nearest .function room tokens function →
      Derives nearest .declaration room (keyword :: tokens)
        (.functionDecl function)
  | variableDecl
      {room : Nat}
      {tokens : List Token}
      {tree : Stmt} :
      DerivesVariable room tokens tree →
      Derives nearest .declaration room tokens tree
  | statement
      {dangling : Bool}
      {room : Nat}
      {tokens : List Token}
      {tree : Stmt} :
      Derives nearest (.statement dangling) room tokens tree →
      Derives nearest .declaration room tokens tree
  | noMethod
      {room : Nat} :
      Derives nearest .methods room [] []
  | moreMethods
      {room : Nat}
      {first rest : List Token}
      {method : FunctionDecl}
      {methods : List FunctionDecl} :
      Derives nearest .function room first method →
      Derives nearest .methods room rest methods →
      Derives nearest .methods room (first ++ rest) (method :: methods)
  | function
      {room : Nat}
      {name opening closing openingBrace closingBrace : Token}
      {list tokens : List Token}
      {parameters : List Token}
      {body : List Stmt} :
      name.kind = .identifier →
      opening.kind = .leftParen →
      DerivesParameterList list parameters →
      closing.kind = .rightParen →
      openingBrace.kind = .leftBrace →
      Derives nearest .declarations room tokens body →
      closingBrace.kind = .rightBrace →
      Derives nearest .function (room + 1)
        (name :: opening :: list ++ closing :: openingBrace :: tokens ++
          [closingBrace])
        { name, parameters, body }
  | expression
      {room : Nat}
      {semicolon : Token}
      {tokens : List Token}
      {tree : Expr} :
      DerivesExpr .expression room tokens tree →
      semicolon.kind = .semicolon →
      Derives nearest (.statement false) room (tokens ++ [semicolon])
        (.expression tree)
  | print
      {room : Nat}
      {keyword semicolon : Token}
      {tokens : List Token}
      {tree : Expr} :
      keyword.kind = .keyword .printWord →
      DerivesExpr .expression room tokens tree →
      semicolon.kind = .semicolon →
      Derives nearest (.statement false) room
        (keyword :: tokens ++ [semicolon]) (.print tree)
  | returning
      {room : Nat}
      {keyword semicolon : Token}
      {tokens : List Token}
      {value : Option Expr} :
      keyword.kind = .keyword .returnWord →
      DerivesOptional room tokens value →
      semicolon.kind = .semicolon →
      Derives nearest (.statement false) room
        (keyword :: tokens ++ [semicolon]) (.returning keyword value)
  | whileLoop
      {dangling : Bool}
      {room : Nat}
      {keyword opening closing : Token}
      {tokens rest : List Token}
      {condition : Expr}
      {body : Stmt} :
      keyword.kind = .keyword .whileWord →
      opening.kind = .leftParen →
      DerivesExpr .expression room tokens condition →
      closing.kind = .rightParen →
      Derives nearest (.statement dangling) room rest body →
      Derives nearest (.statement dangling) room
        (keyword :: opening :: tokens ++ closing :: rest)
        (.loop condition body)
  | forLoop
      {dangling : Bool}
      {room : Nat}
      {keyword opening semicolon closing : Token}
      {first second third rest : List Token}
      {initial : Option Stmt}
      {condition increment : Option Expr}
      {body : Stmt} :
      keyword.kind = .keyword .forWord →
      opening.kind = .leftParen →
      DerivesInitial room first initial →
      DerivesOptional room second condition →
      semicolon.kind = .semicolon →
      DerivesOptional room third increment →
      closing.kind = .rightParen →
      Derives nearest (.statement dangling) room rest body →
      Derives nearest (.statement dangling) room
        (keyword :: opening :: first ++ second ++ semicolon :: third ++
          closing :: rest)
        (forLoop initial condition increment body)
  | ifThen
      {dangling : Bool}
      {room : Nat}
      {keyword opening closing : Token}
      {tokens rest : List Token}
      {condition : Expr}
      {consequent : Stmt} :
      keyword.kind = .keyword .ifWord →
      opening.kind = .leftParen →
      DerivesExpr .expression room tokens condition →
      closing.kind = .rightParen →
      Derives nearest (.statement dangling) room rest consequent →
      Derives nearest (.statement true) room
        (keyword :: opening :: tokens ++ closing :: rest)
        (.conditional condition consequent none)
  | ifElse
      {openEnd dangling : Bool}
      {room : Nat}
      {keyword opening closing elseWord : Token}
      {tokens before after : List Token}
      {condition : Expr}
      {consequent alternative : Stmt} :
      keyword.kind = .keyword .ifWord →
      opening.kind = .leftParen →
      DerivesExpr .expression room tokens condition →
      closing.kind = .rightParen →
      Derives nearest (.statement openEnd) room before consequent →
      (nearest = true → openEnd = false) →
      elseWord.kind = .keyword .elseWord →
      Derives nearest (.statement dangling) room after alternative →
      Derives nearest (.statement dangling) room
        (keyword :: opening :: tokens ++ closing :: before ++
          elseWord :: after)
        (.conditional condition consequent (some alternative))
  | block
      {room : Nat}
      {opening closing : Token}
      {tokens : List Token}
      {body : List Stmt} :
      opening.kind = .leftBrace →
      Derives nearest .declarations room tokens body →
      closing.kind = .rightBrace →
      Derives nearest (.statement false) (room + 1)
        (opening :: tokens ++ [closing]) (.block body)

end Script.Grammar
