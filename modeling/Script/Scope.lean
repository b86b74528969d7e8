import Script.Diagnostic
import Script.Tree

namespace Script

/-!
# Scopes

A block, a function body and a class each open a scope; the global names are in
none.  A site is a place in a program as scope analysis sees it: the scopes
around it, the innermost one first, and what kind of function and whether a
class it is in.  The site behind a statement has the names that the statement
declares.
-/

/-- The names of a scope, the latest one first.  A name is ready once its
initializer has been passed. -/
abbrev Scope :=
  List (Text × Bool)

/-- The kind of function that is around a place. -/
inductive Enclosure where
  | topLevel
  | function
  | method
  | initializer
  deriving Repr, DecidableEq

/-- A place in a program as scope analysis sees it. -/
structure Site where
  scopes : List Scope
  enclosure : Enclosure
  inClass : Bool
  deriving Repr, DecidableEq

namespace Scope

/-- Whether a scope has a name. -/
def declares
    (scope : Scope)
    (name : Text) :
    Bool :=
  (scope.lookup name).isSome

end Scope

namespace Site

/-- The place before a program. -/
def outermost : Site where
  scopes := []
  enclosure := .topLevel
  inClass := false

/-- The name of the method that initializes an instance. -/
def initializerName : Text :=
  Text.utf8 "init"

/-- The name under which a class scope has the receiver. -/
def receiverName : Text :=
  Text.utf8 "this"

/-- The number of scopes between a place and the nearest one with a name. -/
def distance?
    (site : Site)
    (name : Text) :
    Option Nat :=
  site.scopes.findIdx? (·.declares name)

/-- The distance of the receiver, which only a class provides. -/
def receiverDistance? (site : Site) : Option Nat :=
  if site.inClass then
    site.distance? receiverName
  else
    none

/-- Give a name to the innermost scope; at the top level there is none. -/
def bind
    (site : Site)
    (name : Text)
    (ready : Bool) :
    Site :=
  match site.scopes with
  | [] =>
      site
  | scope :: outer =>
      { site with scopes := ((name, ready) :: scope) :: outer }

/-- Whether the innermost scope already has a name. -/
def hasInnermost
    (site : Site)
    (name : Text) :
    Bool :=
  match site.scopes with
  | [] =>
      false
  | scope :: _ =>
      scope.declares name

/-- Whether the innermost scope has a name that is not ready yet. -/
def isPending
    (site : Site)
    (name : Text) :
    Bool :=
  match site.scopes with
  | [] =>
      false
  | scope :: _ =>
      scope.lookup name == some false

/-- Enter a scope with the given names, all of them ready. -/
def enter
    (site : Site)
    (scope : Scope) :
    Site :=
  { site with scopes := scope :: site.scopes }

/-- The body of a function: a scope that has the parameters. -/
def inFunction
    (site : Site)
    (enclosure : Enclosure)
    (parameters : List Token) :
    Site :=
  parameters.foldl
    (fun site parameter => site.bind parameter.lexeme true)
    { site.enter [] with enclosure }

/-- The methods of a class: a scope that has the receiver. -/
def inClassBody (site : Site) : Site :=
  { site.enter [(receiverName, true)] with inClass := true }

/-- The kind of function that a method is. -/
def methodEnclosure (method : FunctionDecl) : Enclosure :=
  if method.name.lexeme = initializerName then
    .initializer
  else
    .method

/-- The place behind a statement. -/
def after
    (site : Site) :
    Stmt → Site
  | .variableDecl name _ =>
      site.bind name.lexeme true
  | .functionDecl function =>
      site.bind function.name.lexeme true
  | .classDecl name _ =>
      site.bind name.lexeme true
  | .conditional _ consequent none =>
      site.after consequent
  | .conditional _ consequent (some alternative) =>
      (site.after consequent).after alternative
  | .loop _ body =>
      site.after body
  | _ =>
      site

end Site

end Script
