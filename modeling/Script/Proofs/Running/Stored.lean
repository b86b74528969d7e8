import Script.Machine.Evaluate
import Script.Proofs.Lexical.Heap
import Script.Scope.Distance

namespace Script

/-!
# What a machine stores

A machine can come back to the functions that its global names lead to: through
the frames of functions, the methods of classes and the fields of objects.
`Machine.Stores` follows these ways.  A region is a choice of frames and objects
that no such way leads out of, so that running a program stays in it; what is new
belongs to every region.
-/

mutual

/-- Whether there is a loop in a statement, in a function that it declares too. -/
def Stmt.hasLoop : Stmt → Bool
  | .expression _ =>
      false
  | .print _ =>
      false
  | .variableDecl _ _ =>
      false
  | .block body =>
      Stmt.anyLoop body
  | .conditional _ consequent none =>
      consequent.hasLoop
  | .conditional _ consequent (some alternative) =>
      consequent.hasLoop || alternative.hasLoop
  | .loop _ _ =>
      true
  | .functionDecl function =>
      function.hasLoop
  | .returning _ _ =>
      false
  | .classDecl _ methods =>
      FunctionDecl.anyLoop methods
  | .missing =>
      false

/-- Whether there is a loop in one of some statements. -/
def Stmt.anyLoop : List Stmt → Bool
  | [] =>
      false
  | first :: rest =>
      first.hasLoop || Stmt.anyLoop rest

/-- Whether there is a loop in the body of a function. -/
def FunctionDecl.hasLoop : FunctionDecl → Bool
  | { body, .. } =>
      Stmt.anyLoop body

/-- Whether there is a loop in the body of one of some functions. -/
def FunctionDecl.anyLoop : List FunctionDecl → Bool
  | [] =>
      false
  | first :: rest =>
      first.hasLoop || FunctionDecl.anyLoop rest

end

theorem FunctionDecl.anyLoop_body (function : FunctionDecl) :
    Stmt.anyLoop function.body = function.hasLoop := by
  cases function
  rw [FunctionDecl.hasLoop]

mutual

/-- Scope analysis brings no loops into a program. -/
theorem Stmt.hasLoop_resolveStmt
    (site : Site) :
    (stmt : Stmt) → (site.resolveStmt stmt).hasLoop = stmt.hasLoop
  | .expression _ | .print _ | .variableDecl _ _ | .returning _ _ | .missing => by
      simp [Site.resolveStmt, Stmt.hasLoop]
  | .block body => by
      simp [Site.resolveStmt, Stmt.hasLoop, Stmt.anyLoop_resolveStmts _ body]
  | .conditional _ consequent none => by
      simp [Site.resolveStmt, Stmt.hasLoop, consequent.hasLoop_resolveStmt site]
  | .conditional _ consequent (some alternative) => by
      simp [Site.resolveStmt, Stmt.hasLoop, consequent.hasLoop_resolveStmt site,
        alternative.hasLoop_resolveStmt (site.after consequent)]
  | .loop _ _ => by
      simp [Site.resolveStmt, Stmt.hasLoop]
  | .functionDecl function => by
      simp [Site.resolveStmt, Stmt.hasLoop,
        FunctionDecl.hasLoop_resolveFunction _ _ function]
  | .classDecl _ methods => by
      simp [Site.resolveStmt, Stmt.hasLoop,
        FunctionDecl.anyLoop_resolveMethods _ methods]

theorem Stmt.anyLoop_resolveStmts
    (site : Site) :
    (stmts : List Stmt) →
    Stmt.anyLoop (site.resolveStmts stmts) = Stmt.anyLoop stmts
  | [] => by
      simp [Site.resolveStmts, Stmt.anyLoop]
  | first :: rest => by
      simp [Site.resolveStmts, Stmt.anyLoop, first.hasLoop_resolveStmt site,
        Stmt.anyLoop_resolveStmts (site.after first) rest]

theorem FunctionDecl.hasLoop_resolveFunction
    (site : Site)
    (enclosure : Enclosure) :
    (function : FunctionDecl) →
    (site.resolveFunction enclosure function).hasLoop = function.hasLoop
  | { name, parameters, body } => by
      simp [Site.resolveFunction, FunctionDecl.hasLoop,
        Stmt.anyLoop_resolveStmts _ body]

theorem FunctionDecl.anyLoop_resolveMethods
    (site : Site) :
    (methods : List FunctionDecl) →
    FunctionDecl.anyLoop (site.resolveMethods methods) =
      FunctionDecl.anyLoop methods
  | [] => by
      simp [Site.resolveMethods, FunctionDecl.anyLoop]
  | first :: rest => by
      simp [Site.resolveMethods, FunctionDecl.anyLoop,
        first.hasLoop_resolveFunction site,
        FunctionDecl.anyLoop_resolveMethods site rest]

end

/-- What a machine keeps. -/
inductive Stored where
  | frame (number : Nat)
  | value (value : Value)
  | closure (closure : Closure)

/-- What can be reached from the global names and the current frame of a
machine. -/
inductive Machine.Stores (machine : Machine) : Stored → Prop where
  | globals :
      Stores machine (.frame globals)
  | current :
      Stores machine (.frame machine.current)
  | around
      {frame parent : Nat}
      (inner : Stores machine (.frame frame))
      (isParent : machine.frames.parent? frame = some parent) :
      Stores machine (.frame parent)
  | bound
      {frame : Nat}
      {name : Text}
      {value : Value}
      (inside : Stores machine (.frame frame))
      (found : machine.frames.local? frame name = some value) :
      Stores machine (.value value)
  | field
      {object : Object}
      {bindings : Bindings}
      {name : Text}
      {value : Value}
      (owner : Stores machine (.value (.object object)))
      (stored : machine.fields[object.identity]? = some bindings)
      (found : bindings.lookup name = some value) :
      Stores machine (.value value)
  | function
      {closure : Closure}
      (isValue : Stores machine (.value (.function closure))) :
      Stores machine (.closure closure)
  | method
      {members : ClassValue}
      {name : Text}
      {closure : Closure}
      (isValue : Stores machine (.value (.classValue members)))
      (found : members.method? name = some closure) :
      Stores machine (.closure closure)
  | objectMethod
      {object : Object}
      {name : Text}
      {closure : Closure}
      (isValue : Stores machine (.value (.object object)))
      (found : object.members.method? name = some closure) :
      Stores machine (.closure closure)
  | home
      {closure : Closure}
      (isClosure : Stores machine (.closure closure)) :
      Stores machine (.frame closure.frame)

/-- No function and no method that a machine stores has a loop in it. -/
def Machine.StoresNoLoop (machine : Machine) : Prop :=
  ∀ closure, machine.Stores (.closure closure) → closure.function.hasLoop = false

/-- Some frames and some objects. -/
structure Region where
  frames : Nat → Prop
  objects : Nat → Prop

namespace Region

variable (region : Region)

/-- A function without loops that was declared in a region. -/
structure KnowsClosure (closure : Closure) : Prop where
  home : region.frames closure.frame
  loopFree : closure.function.hasLoop = false

/-- The methods of a class are known. -/
def KnowsMembers (members : ClassValue) : Prop :=
  ∀ name method, members.method? name = some method → region.KnowsClosure method

/-- Nothing that a value leads to is outside of a region or has loops. -/
def Knows : Value → Prop
  | .function closure =>
      region.KnowsClosure closure
  | .classValue members =>
      region.KnowsMembers members
  | .object object =>
      region.objects object.identity ∧ region.KnowsMembers object.members
  | _ =>
      True

/-- The callable that a known value is. -/
def KnowsCallable : Callable → Prop
  | .function closure =>
      region.KnowsClosure closure
  | .classValue members =>
      region.KnowsMembers members
  | .native _ =>
      True

/-- A machine runs in a region: nothing that it binds in the region leads out of
the region, and what it will make belongs to the region. -/
structure Covers (machine : Machine) : Prop where
  globals : region.frames Machine.globals
  current : region.frames machine.current
  newFrames : ∀ frame, machine.frames.size ≤ frame → region.frames frame
  newObjects : ∀ object, machine.fields.size ≤ object → region.objects object
  around :
    ∀ frame parent,
      region.frames frame →
      machine.frames.parent? frame = some parent →
      region.frames parent
  bound :
    ∀ frame name value,
      region.frames frame →
      machine.frames.local? frame name = some value →
      region.Knows value
  fields :
    ∀ object bindings name value,
      region.objects object →
      machine.fields[object]? = some bindings →
      bindings.lookup name = some value →
      region.Knows value

variable {region : Region} {machine : Machine}

/-- What a machine stores belongs to every region in which it runs. -/
theorem Covers.knows_of_stores
    (covers : region.Covers machine)
    {stored : Stored}
    (stores : machine.Stores stored) :
    match stored with
    | .frame number => region.frames number
    | .value value => region.Knows value
    | .closure closure => region.KnowsClosure closure := by
  induction stores with
  | globals =>
      exact covers.globals
  | current =>
      exact covers.current
  | around _ isParent inner =>
      exact covers.around _ _ inner isParent
  | bound _ found inside =>
      exact covers.bound _ _ _ inside found
  | field _ stored found owner =>
      exact covers.fields _ _ _ _ owner.1 stored found
  | function _ isValue =>
      exact isValue
  | method _ found isValue =>
      exact isValue _ _ found
  | objectMethod _ found isValue =>
      exact isValue.2 _ _ found
  | home _ isClosure =>
      exact isClosure.home

theorem Covers.storesNoLoop (covers : region.Covers machine) :
    machine.StoresNoLoop :=
  fun _ stores => (covers.knows_of_stores stores).loopFree

/-- The least region in which a machine runs. -/
def ofMachine (machine : Machine) : Region where
  frames frame :=
    machine.Stores (.frame frame) ∨ machine.frames.size ≤ frame
  objects object :=
    (∃ members, machine.Stores (.value (.object { identity := object, members }))) ∨
      machine.fields.size ≤ object

/-- A machine that stores no loops runs in a region. -/
theorem ofMachine_covers (loopFree : machine.StoresNoLoop) :
    (ofMachine machine).Covers machine := by
  have knows
      (value : Value)
      (stores : machine.Stores (.value value)) :
      (ofMachine machine).Knows value := by
    cases value with
    | function closure =>
        have isClosure := stores.function
        exact ⟨.inl isClosure.home, loopFree closure isClosure⟩
    | classValue members =>
        intro name method found
        have isClosure := stores.method found
        exact ⟨.inl isClosure.home, loopFree method isClosure⟩
    | object object =>
        refine ⟨.inl ⟨object.members, stores⟩, fun name method found => ?_⟩
        have isClosure := stores.objectMethod found
        exact ⟨.inl isClosure.home, loopFree method isClosure⟩
    | nil | bool | number | text | native =>
        trivial
  exact
    { globals := .inl .globals
      current := .inl .current
      newFrames := fun _ new => .inr new
      newObjects := fun _ new => .inr new
      around := fun frame parent inside isParent => by
        rcases inside with stores | new
        · exact .inl (stores.around isParent)
        · exact absurd (Frames.lt_size_of_parent? isParent) (not_lt.mpr new)
      bound := fun frame name value inside found => by
        rcases inside with stores | new
        · exact knows value (stores.bound found)
        · exact absurd (Frames.lt_size_of_local? found) (not_lt.mpr new)
      fields := fun object bindings name value inside stored found => by
        rcases inside with ⟨members, stores⟩ | new
        · exact knows value (stores.field stored found)
        · rw [Array.getElem?_eq_none new] at stored
          cases stored }

namespace Covers

/-- A value is bound to a name in some frame. -/
theorem define
    (covers : region.Covers machine)
    (frame : Nat)
    (name : Text)
    {value : Value}
    (known : region.Knows value) :
    region.Covers
      { machine with frames := machine.frames.define frame name value } where
  globals := covers.globals
  current := covers.current
  newFrames := by
    simpa using covers.newFrames
  newObjects := covers.newObjects
  around := by
    simpa using covers.around
  bound other otherName found inside shape := by
    rw [Frames.local?_define] at shape
    split at shape
    · cases shape
      exact known
    · exact covers.bound other otherName found inside shape
  fields := covers.fields

/-- A frame is made in a frame of the region. -/
theorem push
    (covers : region.Covers machine)
    {parent : Nat}
    {bindings : Bindings}
    (inside : region.frames parent)
    (known :
      ∀ name value, bindings.lookup name = some value → region.Knows value) :
    region.Covers
      { machine with frames := machine.frames.push (some parent) bindings } where
  globals := covers.globals
  current := covers.current
  newFrames frame new := by
    rw [Frames.size_push] at new
    exact covers.newFrames frame (by omega)
  newObjects := covers.newObjects
  around frame outer isInside isParent := by
    rw [Frames.parent?_push] at isParent
    split at isParent
    · cases isParent
      exact inside
    · exact covers.around frame outer isInside isParent
  bound frame name value isInside found := by
    rw [Frames.local?_push] at found
    split at found
    · exact known name value found
    · exact covers.bound frame name value isInside found
  fields := covers.fields

/-- Another frame of the region becomes the current one. -/
theorem goTo
    (covers : region.Covers machine)
    {current : Nat}
    (inside : region.frames current) :
    region.Covers { machine with current } :=
  { covers with current := inside }

/-- Other numbers than those of frames and objects do not matter. -/
theorem adjust
    (covers : region.Covers machine)
    (identities depth : Nat)
    (printed : List Text) :
    region.Covers { machine with identities, depth, printed } :=
  { covers with }

theorem makeObject
    (covers : region.Covers machine)
    (members : ClassValue) :
    region.Covers (machine.makeObject members).2 where
  globals := covers.globals
  current := covers.current
  newFrames := covers.newFrames
  newObjects object new := by
    simp only [Machine.makeObject, Array.size_push] at new
    exact covers.newObjects object (by omega)
  around := covers.around
  bound := covers.bound
  fields object bindings name value inside stored found := by
    simp only [Machine.makeObject, Array.getElem?_push] at stored
    split at stored
    · cases stored
      cases found
    · exact covers.fields object bindings name value inside stored found

theorem setField
    (covers : region.Covers machine)
    (object : Object)
    (name : Text)
    {value : Value}
    (known : region.Knows value) :
    region.Covers (machine.setField object name value) where
  globals := covers.globals
  current := covers.current
  newFrames := covers.newFrames
  newObjects := by
    simpa [Machine.setField] using covers.newObjects
  around := covers.around
  bound := covers.bound
  fields other bindings otherName old inside stored found := by
    simp only [Machine.setField, Array.getElem?_modify] at stored
    split at stored
    · obtain ⟨before, isBefore, rfl⟩ := Option.map_eq_some_iff.mp stored
      rw [Bindings.lookup_set] at found
      split at found
      · cases found
        exact known
      · exact covers.fields other before otherName old inside isBefore found
    · exact covers.fields other bindings otherName old inside stored found

/-- Binding a method gives a known function. -/
theorem bindMethod
    (covers : region.Covers machine)
    {method : Closure}
    {receiver : Object}
    (knownMethod : region.KnowsClosure method)
    (knownReceiver : region.Knows (.object receiver)) :
    region.Covers (machine.bindMethod method receiver).2 ∧
      region.KnowsClosure (machine.bindMethod method receiver).1 := by
  have knownBindings :
      ∀ name value,
        [(Text.utf8 "this", Value.object receiver)].lookup name =
            some value →
          region.Knows value := by
    intro name value found
    rw [List.lookup_cons] at found
    split at found
    · cases found
      exact knownReceiver
    · cases found
  exact ⟨(covers.push knownMethod.home knownBindings).adjust _ _ _,
    covers.newFrames _ le_rfl, knownMethod.loopFree⟩

/-- The frames around a frame of the region belong to it. -/
theorem chainUpTo
    (covers : region.Covers machine)
    {steps frame holder : Nat}
    (inside : region.frames frame)
    (member : holder ∈ machine.frames.chainUpTo steps frame) :
    region.frames holder := by
  induction steps generalizing frame with
  | zero =>
      cases member
  | succ steps inductionHypothesis =>
      rw [Frames.chainUpTo] at member
      split at member
      · rename_i parent isParent
        rcases List.mem_cons.mp member with rfl | further
        · exact inside
        · exact inductionHypothesis
            (covers.around frame parent inside isParent) further
      · rw [List.mem_singleton.mp member]
        exact inside

/-- A frame that is found by going outwards belongs to the region. -/
theorem ancestor
    (covers : region.Covers machine)
    {frame distance found : Nat}
    (inside : region.frames frame)
    (walked :
      machine.frames.ancestor? (some frame) distance = some (some found)) :
    region.frames found := by
  induction distance generalizing frame with
  | zero =>
      cases walked
      exact inside
  | succ distance inductionHypothesis =>
      rw [Frames.ancestor?] at walked
      cases isParent : machine.frames.parent? frame with
      | none =>
          rw [isParent] at walked
          cases distance <;> simp [Frames.ancestor?] at walked
      | some parent =>
          rw [isParent] at walked
          exact inductionHypothesis
            (covers.around frame parent inside isParent) walked

/-- What a name is bound to in a frame of the region, or `nil`, is known. -/
theorem knows_getD
    (covers : region.Covers machine)
    {frame : Nat}
    (inside : region.frames frame)
    (name : Text) :
    region.Knows ((machine.frames.local? frame name).getD .nil) := by
  cases found : machine.frames.local? frame name with
  | none =>
      trivial
  | some value =>
      exact covers.bound frame name value inside found

/-- A global name has a known value. -/
theorem knows_global
    (covers : region.Covers machine)
    {name : Text}
    {value : Value}
    (found : machine.frames.get? Machine.globals name = some value) :
    region.Knows value := by
  obtain ⟨holder, isHolder, isBound⟩ := Option.bind_eq_some_iff.mp found
  exact covers.bound holder name value
    (covers.chainUpTo covers.globals (List.mem_of_find?_eq_some isHolder))
    isBound

/-- The methods made of functions without loops are known. -/
theorem makeMethods
    (covers : region.Covers machine)
    {functions : List FunctionDecl}
    (loopFree : FunctionDecl.anyLoop functions = false) :
    region.Covers (machine.makeMethods functions).2 ∧
      ∀ entry ∈ (machine.makeMethods functions).1,
        region.KnowsClosure entry.2 := by
  induction functions generalizing machine with
  | nil =>
      exact ⟨covers, fun _ member => nomatch member⟩
  | cons function rest inductionHypothesis =>
      rw [FunctionDecl.anyLoop, Bool.or_eq_false_iff] at loopFree
      obtain ⟨later, known⟩ :=
        inductionHypothesis
          (covers.adjust (machine.identities + 1) machine.depth machine.printed)
          loopFree.2
      refine ⟨later, fun entry member => ?_⟩
      rcases List.mem_cons.mp member with rfl | further
      · exact ⟨covers.current, loopFree.1⟩
      · exact known entry further

theorem declareFunction
    (covers : region.Covers machine)
    {function : FunctionDecl}
    (loopFree : function.hasLoop = false) :
    region.Covers (machine.declareFunction function) :=
  (covers.adjust (machine.identities + 1) machine.depth machine.printed).define
    machine.current function.name.lexeme
    (show region.Knows (.function (machine.makeClosure function false).1) from
      ⟨covers.current, loopFree⟩)

theorem declareClass
    (covers : region.Covers machine)
    (name : Token)
    {functions : List FunctionDecl}
    (loopFree : FunctionDecl.anyLoop functions = false) :
    region.Covers (machine.declareClass name functions) := by
  obtain ⟨later, known⟩ := covers.makeMethods loopFree
  refine (later.adjust ((machine.makeMethods functions).2.identities + 1) _
    _).define _ name.lexeme fun methodName method found => ?_
  obtain ⟨before, after, whole, -⟩ := List.lookup_eq_some_iff.mp found
  exact known (methodName, method)
    (List.mem_reverse.mp (whole ▸ List.mem_append_right _ List.mem_cons_self))

end Covers

end Region

end Script
