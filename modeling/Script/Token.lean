import Script.Number.Format
import Script.Text.Quoted

namespace Script

/-!
# Tokens

A token is a lexeme with its kind, the line on which it ends and, for numbers
and strings, the literal it denotes.
-/

/-- Words that are no names. -/
inductive Keyword where
  | andWord
  | classWord
  | elseWord
  | falseWord
  | funWord
  | forWord
  | ifWord
  | nilWord
  | orWord
  | printWord
  | returnWord
  | thisWord
  | trueWord
  | varWord
  | whileWord
  deriving Repr, DecidableEq, Inhabited

namespace Keyword

/-- Every keyword, in the order of the kinds of token. -/
def all : List Keyword :=
  [.andWord, .classWord, .elseWord, .falseWord, .funWord, .forWord, .ifWord,
   .nilWord, .orWord, .printWord, .returnWord, .thisWord, .trueWord, .varWord,
   .whileWord]

/-- How a keyword is written. -/
def spelling : Keyword → String
  | .andWord =>
      "and"
  | .classWord =>
      "class"
  | .elseWord =>
      "else"
  | .falseWord =>
      "false"
  | .funWord =>
      "fun"
  | .forWord =>
      "for"
  | .ifWord =>
      "if"
  | .nilWord =>
      "nil"
  | .orWord =>
      "or"
  | .printWord =>
      "print"
  | .returnWord =>
      "return"
  | .thisWord =>
      "this"
  | .trueWord =>
      "true"
  | .varWord =>
      "var"
  | .whileWord =>
      "while"

/-- The keyword that a text spells. -/
def ofText? (text : Text) : Option Keyword :=
  all.find? fun word => Text.utf8 word.spelling == text

end Keyword

/-- The kinds of token.  The scanner makes all of them but `unknown`, which a
token made elsewhere may have. -/
inductive TokenKind where
  | leftParen
  | rightParen
  | leftBrace
  | rightBrace
  | comma
  | dot
  | minus
  | plus
  | semicolon
  | slash
  | star
  | bang
  | bangEqual
  | equal
  | equalEqual
  | greater
  | greaterEqual
  | less
  | lessEqual
  | identifier
  | string
  | number
  | keyword (word : Keyword)
  | endOfInput
  | unknown
  deriving Repr, DecidableEq, Inhabited

namespace TokenKind

/-- Every known kind, in the order of their numbers. -/
def all : List TokenKind :=
  [.leftParen, .rightParen, .leftBrace, .rightBrace, .comma, .dot, .minus,
   .plus, .semicolon, .slash, .star, .bang, .bangEqual, .equal, .equalEqual,
   .greater, .greaterEqual, .less, .lessEqual, .identifier, .string,
   .number] ++ Keyword.all.map keyword ++ [.endOfInput]

/-- The kind with a given number. -/
def ofNumber : Int → TokenKind
  | .ofNat index =>
      all[index]?.getD .unknown
  | .negSucc _ =>
      .unknown

/-- The name of a kind: for a punctuation mark or a keyword its spelling. -/
def name : TokenKind → String
  | .leftParen =>
      "("
  | .rightParen =>
      ")"
  | .leftBrace =>
      "\x7b"
  | .rightBrace =>
      "\x7d"
  | .comma =>
      ","
  | .dot =>
      "."
  | .minus =>
      "-"
  | .plus =>
      "+"
  | .semicolon =>
      ";"
  | .slash =>
      "/"
  | .star =>
      "*"
  | .bang =>
      "!"
  | .bangEqual =>
      "!="
  | .equal =>
      "="
  | .equalEqual =>
      "=="
  | .greater =>
      ">"
  | .greaterEqual =>
      ">="
  | .less =>
      "<"
  | .lessEqual =>
      "<="
  | .identifier =>
      "identifier"
  | .string =>
      "string"
  | .number =>
      "number"
  | .keyword word =>
      word.spelling
  | .endOfInput =>
      "EOF"
  | .unknown =>
      "unknown"

/-- The kind with a given name. -/
def ofName (name : String) : TokenKind :=
  (all.find? (·.name == name)).getD .unknown

end TokenKind

/-- What a literal denotes.  A token that carries no literal carries `nil`; a
host may also hand over a `foreign` literal, which the language has no value
for. -/
inductive Literal where
  | nil
  | bool (value : Bool)
  | number (value : Float)
  | text (value : Text)
  | foreign
  deriving Repr, DecidableEq, Inhabited

/-- A lexeme with its kind, its literal and the line on which it ends. -/
structure Token where
  kind : TokenKind
  lexeme : Text
  literal : Literal
  line : Int
  deriving Repr, DecidableEq, Inhabited

/-- The text of a truth value. -/
def Text.ofBool (value : Bool) : Text :=
  utf8 (if value then "true" else "false")

namespace Literal

/-- The text of a literal in the description of a token; `nil` has none. -/
def describe? : Literal → Option Text
  | .nil =>
      none
  | .bool value =>
      some (Text.ofBool value)
  | .number value =>
      some (NumberFormat.token.write value)
  | .text value =>
      some value
  | .foreign =>
      some (Text.utf8 "1")

end Literal

namespace Token

/-- The token that ends a program on the given line. -/
def endAt (line : Int) : Token where
  kind := .endOfInput
  lexeme := []
  literal := .nil
  line := line

/-- A name on the given line. -/
def nameAt
    (name : Text)
    (line : Int) :
    Token where
  kind := .identifier
  lexeme := name
  literal := .nil
  line := line

/-- The line, kind and quoted lexeme of a token, and its literal if it has one. -/
def describe (token : Token) : Text :=
  let parts :=
    [Text.ofInt token.line, Text.utf8 token.kind.name, token.lexeme.quote] ++
      token.literal.describe?.toList
  List.intercalate [Text.byte ' '] parts

end Token

end Script
