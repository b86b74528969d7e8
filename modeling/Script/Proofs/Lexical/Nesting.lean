import Script.Proofs.Lexical.Position

namespace Script.Lexical

/-!
# Scopes inside of each other

What the text of a program alone says about the scopes around a position.  A
scope further inside has a longer path, so no two of them are the same; a scope
for a receiver declares the receiver and nothing else; and code other than a
method never stands right inside of such a scope, so nothing is declared in it.
-/

namespace Position

/-- The innermost scope around a position is not one for a receiver. -/
def IsInBody (position : Position) : Prop :=
  ∀ level ∈ position.levels.head?, level.label.form ≠ .receiver

/-- The scopes around a position are as the text has them. -/
structure Nested (position : Position) : Prop where
  receivers :
    ∀ level ∈ position.levels,
      level.label.form = .receiver →
      level.names = [receiverName] ∧ level.pending = none
  paths :
    (position.path.length ::
      position.levels.map fun level => level.label.path.length).Pairwise
        (· > ·)

/-- Only scopes for a receiver declare its name. -/
def Unshadowed (position : Position) : Prop :=
  ∀ level ∈ position.levels,
    receiverName ∈ level.names →
    level.label.form = .receiver

/-- The number of scopes between a position and the nearest one for a
receiver. -/
def receiverDistance? (position : Position) : Option Nat :=
  position.levels.findIdx? (·.label.form = .receiver)

section Moves

variable {position : Position}

theorem IsInBody.declare
    (inBody : position.IsInBody)
    (name : Text) :
    (position.declare name).IsInBody := by
  unfold Position.declare
  split
  · exact inBody
  · rename_i level outer levels
    intro changed isHead
    obtain rfl := Option.mem_some_iff.mp isHead
    exact inBody level (by simp [levels])

theorem IsInBody.declaring
    (inBody : position.IsInBody)
    (stmt : Stmt) :
    (position.declaring stmt).IsInBody := by
  unfold Position.declaring
  split
  · exact inBody.declare _
  · exact inBody

theorem IsInBody.initializing
    (inBody : position.IsInBody)
    (name : Text) :
    (position.initializing name).IsInBody := by
  unfold Position.initializing
  split
  · exact inBody
  · rename_i level outer levels
    intro changed isHead
    obtain rfl := Option.mem_some_iff.mp isHead
    exact inBody level (by simp [levels])

theorem IsInBody.next (inBody : position.IsInBody) : position.next.IsInBody := by
  unfold IsInBody
  rw [levels_next]
  exact inBody

/-- A block and a function are bodies. -/
theorem isInBody_enter
    (position : Position)
    {form : ScopeForm}
    (ordinary : form ≠ .receiver)
    (names : List Text) :
    (position.enter form names).IsInBody := by
  intro level isHead
  obtain rfl := Option.mem_some_iff.mp isHead
  exact ordinary

theorem length_path_next (position : Position) :
    position.next.path.length = position.path.length := by
  unfold Position.next
  split
  · rfl
  · rename_i path
    simp [path]

namespace Nested

/-- Another innermost scope with the same label. -/
theorem change
    (nested : position.Nested)
    (inBody : position.IsInBody)
    {level changed : Level}
    {outer : List Level}
    (levels : position.levels = level :: outer)
    (label : changed.label = level.label) :
    Nested { position with levels := changed :: outer } where
  receivers := by
    intro other member isReceiver
    rcases List.mem_cons.mp member with rfl | member
    · rw [label] at isReceiver
      exact (inBody level (by simp [levels]) isReceiver).elim
    · exact nested.receivers other (by simp [levels, member]) isReceiver
  paths := by
    have paths := nested.paths
    rw [levels] at paths
    simpa [label] using paths

theorem declare
    (nested : position.Nested)
    (inBody : position.IsInBody)
    (name : Text) :
    (position.declare name).Nested := by
  unfold Position.declare
  split
  · exact nested
  · rename_i levels
    exact nested.change inBody levels rfl

theorem declaring
    (nested : position.Nested)
    (inBody : position.IsInBody)
    (stmt : Stmt) :
    (position.declaring stmt).Nested := by
  unfold Position.declaring
  split
  · exact nested.declare inBody _
  · exact nested

theorem initializing
    (nested : position.Nested)
    (inBody : position.IsInBody)
    (name : Text) :
    (position.initializing name).Nested := by
  unfold Position.initializing
  split
  · exact nested
  · rename_i levels
    exact nested.change inBody levels rfl

theorem next (nested : position.Nested) : position.next.Nested where
  receivers := by
    rw [levels_next]
    exact nested.receivers
  paths := by
    rw [levels_next, length_path_next]
    exact nested.paths

theorem inside
    (nested : position.Nested)
    (part : Nat) :
    (position.inside part).Nested where
  receivers := nested.receivers
  paths := by
    obtain ⟨outside, inOrder⟩ := List.pairwise_cons.mp nested.paths
    refine List.pairwise_cons.mpr ⟨fun length member => ?_, inOrder⟩
    have shorter := outside length member
    simp only [Position.inside, List.length_cons]
    omega

theorem enter
    (nested : position.Nested)
    {form : ScopeForm}
    {names : List Text}
    (receiver : form = .receiver → names = [receiverName]) :
    (position.enter form names).Nested where
  receivers := by
    intro level member isReceiver
    rcases List.mem_cons.mp member with rfl | member
    · exact ⟨receiver isReceiver, rfl⟩
    · exact nested.receivers level member isReceiver
  paths := by
    have outside := (List.pairwise_cons.mp nested.paths).1
    refine List.pairwise_cons.mpr ⟨fun length member => ?_, nested.paths⟩
    rcases List.mem_cons.mp member with rfl | member
    · simp [Position.enter]
    · have shorter := outside length member
      simp only [Position.enter, List.length_cons]
      omega

/-- No two scopes around a position are the same. -/
theorem nodup_labels (nested : position.Nested) :
    (position.levels.map Level.label).Nodup := by
  have inOrder := (List.pairwise_cons.mp nested.paths).2
  rw [List.pairwise_map] at inOrder
  refine List.pairwise_map.mpr (inOrder.imp fun longer same => ?_)
  rw [same] at longer
  exact Nat.lt_irrefl _ longer

end Nested

namespace Unshadowed

theorem of_levels
    {other : Position}
    (unshadowed : position.Unshadowed)
    (levels : other.levels = position.levels) :
    other.Unshadowed := by
  unfold Unshadowed
  rw [levels]
  exact unshadowed

theorem declare
    (unshadowed : position.Unshadowed)
    {name : Text}
    (ordinary : name ≠ receiverName) :
    (position.declare name).Unshadowed := by
  unfold Position.declare
  split
  · exact unshadowed
  · rename_i first outer levels
    intro level member declared
    rcases List.mem_cons.mp member with rfl | member
    · rcases List.mem_cons.mp declared with same | declared
      · exact (ordinary same.symm).elim
      · exact unshadowed first (by simp [levels]) declared
    · exact unshadowed level (by simp [levels, member]) declared

theorem declaring
    (unshadowed : position.Unshadowed)
    {stmt : Stmt}
    (ordinary :
      ∀ name ∈ stmt.declaredName?, name.lexeme ≠ receiverName) :
    (position.declaring stmt).Unshadowed := by
  unfold Position.declaring
  split
  · rename_i name declares
    exact unshadowed.declare (ordinary name declares)
  · exact unshadowed

theorem initializing
    (unshadowed : position.Unshadowed)
    (name : Text) :
    (position.initializing name).Unshadowed := by
  unfold Position.initializing
  split
  · exact unshadowed
  · rename_i first outer levels
    intro level member declared
    rcases List.mem_cons.mp member with rfl | member
    · exact unshadowed first (by simp [levels]) declared
    · exact unshadowed level (by simp [levels, member]) declared

theorem enter
    (unshadowed : position.Unshadowed)
    {form : ScopeForm}
    {names : List Text}
    (ordinary : receiverName ∈ names → form = .receiver) :
    (position.enter form names).Unshadowed := by
  intro level member declared
  rcases List.mem_cons.mp member with rfl | member
  · exact ordinary declared
  · exact unshadowed level member declared

/-- The nearest declaration of the receiver is the nearest scope for one. -/
theorem nearest?_receiverName
    (unshadowed : position.Unshadowed)
    (nested : position.Nested)
    (ready : ∀ level ∈ position.levels, level.pending ≠ some receiverName) :
    position.nearest? receiverName = position.receiverDistance? := by
  have agree :
      ∀ level ∈ position.levels,
        level.declares receiverName =
          decide (level.label.form = .receiver) := by
    intro level member
    have notPending := ready level member
    by_cases isReceiver : level.label.form = .receiver
    · obtain ⟨names, -⟩ := nested.receivers level member isReceiver
      simp [Level.declares, names, isReceiver]
    · have undeclared : receiverName ∉ level.names :=
        fun declared => isReceiver (unshadowed level member declared)
      simp [Level.declares, undeclared, notPending, isReceiver]
  unfold Position.nearest? receiverDistance?
  generalize position.levels = levels at agree
  induction levels with
  | nil =>
      rfl
  | cons level outer inductionHypothesis =>
      rw [List.findIdx?_cons, List.findIdx?_cons,
        agree level List.mem_cons_self,
        inductionHypothesis fun level member =>
          agree level (List.mem_cons_of_mem _ member)]

end Unshadowed

end Moves

end Position

/-- Only functions and methods may stand right inside of a scope for a
receiver. -/
def StandsInBody (position : Position) : Code → Prop
  | .function _ =>
      True
  | .methods _ =>
      True
  | _ =>
      position.IsInBody

/-- The scopes around the code of a tree are as the text has them. -/
theorem Occurs.nested
    {position : Position}
    {code : Code}
    (occurs : Occurs position code) :
    position.Nested ∧ StandsInBody position code := by
  induction occurs with
  | program origin =>
      exact ⟨⟨by simp [Position.top], by simp [Position.top]⟩,
        by simp [StandsInBody, Position.IsInBody, Position.top]⟩
  | firstStatement _ whole =>
      exact whole
  | @laterStatements _ first _ _ whole =>
      obtain ⟨nested, inBody⟩ := whole
      exact ⟨(nested.declaring inBody first).next,
        (Position.IsInBody.declaring inBody first).next⟩
  | @initializer _ name _ _ whole =>
      obtain ⟨nested, inBody⟩ := whole
      exact ⟨nested.initializing inBody name.lexeme,
        Position.IsInBody.initializing inBody name.lexeme⟩
  | blockBody _ whole =>
      exact ⟨whole.1.enter (by simp),
        Position.isInBody_enter _ (by simp) []⟩
  | consequent _ whole | loopBody _ whole =>
      exact ⟨whole.1.inside 0, whole.2⟩
  | alternative _ whole =>
      exact ⟨whole.1.inside 1, whole.2⟩
  | @functionDecl _ function _ whole =>
      exact ⟨whole.1.declare whole.2 function.name.lexeme, trivial⟩
  | functionBody _ whole =>
      exact ⟨whole.1.enter (by simp),
        Position.isInBody_enter _ (by simp) _⟩
  | @classMethods _ name _ _ whole =>
      exact ⟨(whole.1.declare whole.2 name.lexeme).enter fun _ => rfl,
        trivial⟩
  | firstMethod _ whole =>
      exact ⟨whole.1, trivial⟩
  | laterMethods _ whole =>
      exact ⟨whole.1.next, trivial⟩
  | expressionValue _ whole | printValue _ whole | condition _ whole
  | loopCondition _ whole | returnValue _ whole | grouped _ whole
  | unaryOperand _ whole | binaryLeft _ whole | binaryRight _ whole
  | logicalLeft _ whole | logicalRight _ whole | assigned _ whole
  | callee _ whole | argument _ _ whole | propertyObject _ whole
  | fieldObject _ whole | fieldValue _ whole =>
      exact whole

end Script.Lexical
