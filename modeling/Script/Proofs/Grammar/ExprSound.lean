import Script.Proofs.Grammar.ExprComplete
import Script.Proofs.Grammar.Reading

namespace Script.Grammar

/-!
# Every parsed expression is derived

What the parser reads without a problem, the grammar derives, with the tree
that was built.  The bound of six calls for each token is enough: every function
that is called at the place of its caller needs one call less, and every other
one is called behind a token at least.
-/

namespace DerivesExpr

variable {room : Nat}

/-- An operation that binds more tightly is one that binds less tightly. -/
theorem looser
    {level bound : Nat}
    {tokens : List Token}
    {tree : Expr}
    (order : level ≤ bound)
    (tight : bound ≤ 6)
    (derived : DerivesExpr (.operation bound) room tokens tree) :
    DerivesExpr (.operation level) room tokens tree := by
  induction bound, order using Nat.le_induction with
  | base =>
      exact derived
  | succ bound order inductionHypothesis =>
      exact inductionHypothesis (by omega) (.tighter (by omega) derived)

/-- What the tokens of a tree look like that may stand before an equals sign. -/
def TargetShape
    (room : Nat)
    (tokens : List Token)
    (tree : Expr) :
    Prop :=
  (∀ name distance,
    tree = .reference name distance →
    name.kind = .identifier ∧ tokens = [name]) ∧
  (∀ object name,
    tree = .property object name →
    ∃ before dot,
      DerivesExpr .call room before object ∧
        dot.kind = .dot ∧
        name.kind = .identifier ∧
        tokens = before ++ [dot, name])

/-- The statement about targets for the phrases that may stand before an equals
sign. -/
def TargetsOf :
    (phrase : ExprPhrase) → Nat → List Token → phrase.Tree → Prop
  | .operation _, room, tokens, tree
  | .operand, room, tokens, tree
  | .call, room, tokens, tree
  | .primary, room, tokens, tree =>
      TargetShape room tokens tree
  | .expression, _, _, _
  | .arguments, _, _, _ =>
      True

theorem targetsOf
    {phrase : ExprPhrase}
    {tokens : List Token}
    {tree : phrase.Tree}
    (derived : DerivesExpr phrase room tokens tree) :
    TargetsOf phrase room tokens tree := by
  induction derived with
  | assignName | assignProperty | operation | lastArgument | moreArguments =>
      trivial
  | tighter _ _ shape | tightest _ shape | plain _ shape
  | primary _ shape =>
      exact shape
  | join =>
      constructor <;> intro _ _ same <;> unfold combine at same <;>
        split at same <;> cases same
  | property object dotKind nameKind _ =>
      constructor
      · intro _ _ same
        cases same
      · rintro object name ⟨⟩
        exact ⟨_, _, object, dotKind, nameKind, rfl⟩
  | name kind =>
      constructor
      · rintro name distance ⟨⟩
        exact ⟨kind, rfl⟩
      · intro _ _ same
        cases same
  | _ =>
      constructor <;> intro _ _ same <;> cases same

end DerivesExpr

/-- The next token, if there is one, is no operator that binds more tightly than
operators of the level do. -/
def StopsAbove
    (level : Nat)
    (tail : List Token) :
    Prop :=
  ∀ token rest precedence,
    tail = token :: rest →
    token.kind.precedence? = some precedence →
    precedence ≤ level

section

open Expr.Parser

/-- Where the loop over the operators of a level stops, no operator of the level
is left. -/
theorem operators_stop
    {fuel level : Nat}
    {left value : Expr}
    {cursor after : Cursor}
    (parsed : operators fuel (level + 1) left cursor = .done value after) :
    StopsAbove level after.rest := by
  induction fuel generalizing left cursor with
  | zero =>
      rw [operators] at parsed
      cases parsed
  | succ fuel inductionHypothesis =>
      rw [operators] at parsed
      intro token rest precedence tokens found
      split at parsed
      · rename_i shape
        cases parsed
        rw [shape] at tokens
        cases tokens
      · rename_i operator others shape
        split at parsed
        · rename_i none
          cases parsed
          rw [shape] at tokens
          cases tokens
          rw [none] at found
          cases found
        · rename_i asked some
          split at parsed
          · rename_i small
            cases parsed
            rw [shape] at tokens
            cases tokens
            rw [some] at found
            cases found
            omega
          · cases right : operation fuel (asked + 1)
                { cursor with rest := others } with
            | failed stopped =>
                rw [right] at parsed
                cases parsed
            | done rightTree afterRight =>
                rw [right] at parsed
                exact inductionHypothesis parsed token rest precedence
                  tokens found

theorem operation_stop
    {fuel level : Nat}
    {value : Expr}
    {cursor after : Cursor}
    (parsed : operation fuel (level + 1) cursor = .done value after) :
    StopsAbove level after.rest := by
  cases fuel with
  | zero =>
      rw [operation] at parsed
      cases parsed
  | succ fuel =>
      rw [operation] at parsed
      cases left : operand fuel cursor with
      | failed stopped =>
          rw [left] at parsed
          cases parsed
      | done leftTree afterLeft =>
          rw [left] at parsed
          exact operators_stop parsed

end

/-- What the functions for expressions read within a sufficient bound. -/
structure SoundExpr (fuel : Nat) : Prop where
  expression :
    ∀ cursor : Cursor,
      6 * cursor.rest.length + 4 ≤ fuel →
      (Expr.Parser.expression fuel cursor).Reads cursor 1
        (DerivesExpr .expression cursor.room)
  operation :
    ∀ (level : Nat) (cursor : Cursor),
      level ≤ 6 →
      6 * cursor.rest.length + 3 ≤ fuel →
      (Expr.Parser.operation fuel level cursor).Reads cursor 1
        (DerivesExpr (.operation level) cursor.room)
  operators :
    ∀ (level : Nat) (left : Expr) (cursor : Cursor),
      6 * cursor.rest.length + 1 ≤ fuel →
      (Expr.Parser.operators fuel level left cursor).Reads cursor 0
        fun read value =>
          ∀ before bound,
            level ≤ bound →
            bound ≤ 6 →
            StopsAbove bound cursor.rest →
            DerivesExpr (.operation bound) cursor.room before left →
            DerivesExpr (.operation level) cursor.room (before ++ read) value
  operand :
    ∀ cursor : Cursor,
      6 * cursor.rest.length + 2 ≤ fuel →
      (Expr.Parser.operand fuel cursor).Reads cursor 1
        (DerivesExpr .operand cursor.room)
  trailers :
    ∀ (callee : Expr) (cursor : Cursor),
      6 * cursor.rest.length + 1 ≤ fuel →
      (Expr.Parser.trailers fuel callee cursor).Reads cursor 0
        fun read value =>
          ∀ before,
            DerivesExpr .call cursor.room before callee →
            DerivesExpr .call cursor.room (before ++ read) value
  arguments :
    ∀ (collected : List Expr) (cursor : Cursor),
      6 * cursor.rest.length + 5 ≤ fuel →
      (Expr.Parser.arguments fuel collected cursor).Reads cursor 1
        fun read values =>
          ∃ arguments,
            values = collected.reverse ++ arguments ∧
              collected.length + arguments.length ≤ longestList ∧
              DerivesExpr .arguments cursor.room read arguments
  primary :
    ∀ cursor : Cursor,
      6 * cursor.rest.length + 1 ≤ fuel →
      (Expr.Parser.primary fuel cursor).Reads cursor 1
        (DerivesExpr .primary cursor.room)

section

open Expr.Parser

variable {fuel : Nat}

/-- An assignment to anything but a name or a property is a problem. -/
theorem assignTo_reads
    {equals : Token}
    (equalsKind : equals.kind = .equal)
    (room : Nat)
    (target value : Expr)
    (cursor : Cursor) :
    (Expr.assignTo target equals value cursor).Reads cursor 0
      fun read result =>
        ∀ targetTokens valueTokens,
          DerivesExpr (.operation 0) room targetTokens target →
          DerivesExpr .expression room valueTokens value →
          DerivesExpr .expression room
            (targetTokens ++ equals :: (valueTokens ++ read)) result := by
  unfold Expr.assignTo
  split
  · refine .done fun targetTokens valueTokens targetDerived valueDerived => ?_
    obtain ⟨nameKind, rfl⟩ := targetDerived.targetsOf.1 _ _ rfl
    simpa using DerivesExpr.assignName nameKind equalsKind valueDerived
  · refine .done fun targetTokens valueTokens targetDerived valueDerived => ?_
    obtain ⟨before, dot, objectDerived, dotKind, nameKind, rfl⟩ :=
      targetDerived.targetsOf.2 _ _ rfl
    simpa using DerivesExpr.assignProperty objectDerived dotKind nameKind
      equalsKind valueDerived
  · exact .doneLoudly value equals .invalidTarget

theorem expression_reads
    (smaller : SoundExpr fuel)
    (cursor : Cursor)
    (enough : 6 * cursor.rest.length + 4 ≤ fuel + 1) :
    (expression (fuel + 1) cursor).Reads cursor 1
      (DerivesExpr .expression cursor.room) := by
  rw [Expr.Parser.expression]
  refine (smaller.operation 0 cursor (by omega) (by omega)).bind
    fun target afterTarget _ leads length => ?_
  split
  · refine .done fun targetTokens _ targetDerived => ?_
    simpa using DerivesExpr.operation targetDerived
  · rename_i equals afterEquals accepted
    have equalsKind := (Cursor.accept?_eq_some_iff.mp accepted).1
    have shorter := Cursor.length_accept? accepted
    have sameRoom :=
      (leads.trans (Cursor.leads_accept? accepted)).room_eq
    refine (Step.Reads.afterAccepted accepted ?_).loosen
    refine (smaller.expression afterEquals (by omega)).loosen.bind
      fun value afterValue _ _ _ => ?_
    refine (assignTo_reads equalsKind cursor.room target value
      afterValue).weaken le_rfl ?_
    intro read result assigned valueTokens _ valueDerived targetTokens _
      targetDerived
    exact assigned targetTokens valueTokens targetDerived
      (sameRoom ▸ valueDerived)

theorem operation_reads
    (smaller : SoundExpr fuel)
    (level : Nat)
    (cursor : Cursor)
    (tight : level ≤ 6)
    (enough : 6 * cursor.rest.length + 3 ≤ fuel + 1) :
    (operation (fuel + 1) level cursor).Reads cursor 1
      (DerivesExpr (.operation level) cursor.room) := by
  rw [Expr.Parser.operation]
  refine (smaller.operand cursor (by omega)).bind
    fun left afterLeft _ leads length => ?_
  refine (smaller.operators level left afterLeft (by omega)).weaken le_rfl ?_
  intro read value grouped leftTokens _ leftDerived
  rw [leads.room_eq] at grouped
  refine grouped leftTokens 6 tight le_rfl ?_ (.tightest leftDerived)
  intro token rest precedence _ found
  unfold TokenKind.precedence? at found
  split at found <;> cases found <;> decide

theorem operators_reads
    (smaller : SoundExpr fuel)
    (level : Nat)
    (left : Expr)
    (cursor : Cursor)
    (enough : 6 * cursor.rest.length + 1 ≤ fuel + 1) :
    (operators (fuel + 1) level left cursor).Reads cursor 0
      fun read value =>
        ∀ before bound,
          level ≤ bound →
          bound ≤ 6 →
          StopsAbove bound cursor.rest →
          DerivesExpr (.operation bound) cursor.room before left →
          DerivesExpr (.operation level) cursor.room
            (before ++ read) value := by
  have finished :
      (Step.done left cursor).Reads cursor 0 fun read value =>
        ∀ before bound,
          level ≤ bound →
          bound ≤ 6 →
          StopsAbove bound cursor.rest →
          DerivesExpr (.operation bound) cursor.room before left →
          DerivesExpr (.operation level) cursor.room
            (before ++ read) value := by
    refine .done fun before bound order tight _ derived => ?_
    simpa using derived.looser order tight
  rw [Expr.Parser.operators]
  split
  · exact finished
  · rename_i operator rest shape
    split
    · exact finished
    · rename_i precedence found
      have member := precedence?_eq_some_iff.mp found
      have loose : precedence + 1 ≤ 6 := by
        unfold TokenKind.precedence? at found
        split at found <;> cases found <;> decide
      split
      · exact finished
      · rename_i asked
        have shorter : rest.length + 1 = cursor.rest.length := by
          rw [shape, List.length_cons]
        refine (Step.Reads.afterToken (cursor.leads_rest shape) shape rfl
          ?_).loosen
        refine (smaller.operation (precedence + 1) { cursor with rest }
          loose (by simp only; omega)).loosen.bind
          fun right afterRight parsedRight leads _ => ?_
        have shorterRight := leads.length_le
        have sameRoom : afterRight.room = cursor.room := leads.room_eq
        refine (smaller.operators level (Expr.join left operator right)
          afterRight (by simp only at shorterRight; omega)).weaken le_rfl ?_
        intro read value grouped rightTokens _ rightDerived before bound order
          tight stops leftDerived
        rw [sameRoom] at grouped
        have loosened :=
          leftDerived.looser (stops operator rest precedence shape found)
            tight
        have joined := DerivesExpr.join loosened member rightDerived
        rw [← join_eq_combine member] at joined
        simpa using grouped _ precedence (by omega) (by omega)
          (operation_stop parsedRight) joined

/-- A unary operator stands before an operand that has one level less room. -/
theorem operand_reads
    (smaller : SoundExpr fuel)
    (cursor : Cursor)
    (enough : 6 * cursor.rest.length + 2 ≤ fuel + 1) :
    (operand (fuel + 1) cursor).Reads cursor 1
      (DerivesExpr .operand cursor.room) := by
  rw [Expr.Parser.operand]
  split
  · rename_i operator after accepted
    obtain ⟨kind, unary, acceptedKind⟩ :
        ∃ kind,
          (kind = .bang ∨ kind = .minus) ∧
            cursor.accept? kind = some (operator, after) := by
      rcases Option.or_eq_some_iff.mp accepted with bang | ⟨-, minus⟩
      · exact ⟨.bang, .inl rfl, bang⟩
      · exact ⟨.minus, .inr rfl, minus⟩
    have operatorKind :=
      (Cursor.accept?_eq_some_iff.mp acceptedKind).1
    have shorter := Cursor.length_accept? acceptedKind
    have sameRoom := (Cursor.leads_accept? acceptedKind).room_eq
    refine .afterAccepted acceptedKind ?_
    have inside :
        (after.nested operator fun inner =>
            (operand fuel inner).map (Expr.unary operator)).Reads after 1
          fun read value =>
            ∃ room,
              after.room = room + 1 ∧
                ∃ operand,
                  value = Expr.unary operator operand ∧
                    DerivesExpr .operand room read operand := by
      refine Cursor.nested_reads fun inner innerRest => ?_
      have innerLength := congrArg List.length innerRest
      refine (smaller.operand inner (by omega)).map ?_
      intro read operand derived
      exact ⟨operand, rfl, derived⟩
    refine inside.weaken (Nat.zero_le 1) ?_
    rintro read value ⟨room, roomShape, operand, rfl, derived⟩
    rw [← sameRoom, roomShape]
    exact .unary (operatorKind ▸ unary) derived
  · refine (smaller.primary cursor (by omega)).bind
      fun callee afterCallee _ leads length => ?_
    refine (smaller.trailers callee afterCallee (by omega)).weaken le_rfl ?_
    intro read value extended calleeTokens _ calleeDerived
    rw [leads.room_eq] at extended
    exact .plain (extended calleeTokens (.primary calleeDerived))

theorem trailers_reads
    (smaller : SoundExpr fuel)
    (callee : Expr)
    (cursor : Cursor)
    (enough : 6 * cursor.rest.length + 1 ≤ fuel + 1) :
    (trailers (fuel + 1) callee cursor).Reads cursor 0
      fun read value =>
        ∀ before,
          DerivesExpr .call cursor.room before callee →
          DerivesExpr .call cursor.room (before ++ read) value := by
  rw [Expr.Parser.trailers]
  split
  · rename_i opening afterOpening accepted
    have openingKind := (Cursor.accept?_eq_some_iff.mp accepted).1
    have shorter := Cursor.length_accept? accepted
    have leads := Cursor.leads_accept? accepted
    refine (Step.Reads.afterAccepted accepted ?_).loosen
    split
    · rename_i closing afterClosing closed
      have closingKind := (Cursor.accept?_eq_some_iff.mp closed).1
      have shorterClosing := Cursor.length_accept? closed
      have sameRoom :=
        (leads.trans (Cursor.leads_accept? closed)).room_eq
      refine (Step.Reads.afterAccepted closed ?_).loosen
      refine (smaller.trailers (.call callee closing []) afterClosing
        (by omega)).weaken le_rfl ?_
      intro read value extended before calleeDerived
      rw [sameRoom] at extended
      simpa using
        extended _ (.callNothing calleeDerived openingKind closingKind)
    · refine (smaller.arguments [] afterOpening
        (by omega)).loosen.bind
        fun arguments afterArguments _ leadsArguments _ => ?_
      have shorterArguments := leadsArguments.length_le
      refine (afterArguments.expect_reads .rightParen
        .argumentsEnd).loosen.bind fun closing afterClosing _ leadsClosing _ => ?_
      have shorterClosing := leadsClosing.length_le
      have sameRoom :=
        (leads.trans (leadsArguments.trans leadsClosing)).room_eq
      refine (smaller.trailers (.call callee closing arguments) afterClosing
        (by omega)).weaken le_rfl ?_
      rintro read value extended _ - ⟨rfl, closingKind⟩ argumentTokens -
        ⟨_, rfl, few, argumentsDerived⟩ before calleeDerived
      rw [sameRoom] at extended
      rw [leads.room_eq] at argumentsDerived
      simpa using
        extended _ (.callArguments calleeDerived openingKind argumentsDerived
          (by simpa using few) closingKind)
  · split
    · rename_i dot afterDot accepted
      have dotKind := (Cursor.accept?_eq_some_iff.mp accepted).1
      have shorter := Cursor.length_accept? accepted
      have leads := Cursor.leads_accept? accepted
      refine (Step.Reads.afterAccepted accepted ?_).loosen
      refine (afterDot.expect_reads .identifier
        .propertyName).loosen.bind fun name afterName _ leadsName _ => ?_
      have shorterName := leadsName.length_le
      have sameRoom := (leads.trans leadsName).room_eq
      refine (smaller.trailers (.property callee name) afterName
        (by omega)).weaken le_rfl ?_
      rintro read value extended _ - ⟨rfl, nameKind⟩ before calleeDerived
      rw [sameRoom] at extended
      simpa using
        extended _ (.property calleeDerived dotKind nameKind)
    · refine .done fun before derived => ?_
      simpa using derived

theorem arguments_reads
    (smaller : SoundExpr fuel)
    (collected : List Expr)
    (cursor : Cursor)
    (enough : 6 * cursor.rest.length + 5 ≤ fuel + 1) :
    (arguments (fuel + 1) collected cursor).Reads cursor 1
      fun read values =>
        ∃ arguments,
          values = collected.reverse ++ arguments ∧
            collected.length + arguments.length ≤ longestList ∧
            DerivesExpr .arguments cursor.room read arguments := by
  rw [Expr.Parser.arguments]
  unfold Expr.countArgument
  generalize count :
    (if Cursor.maximalArguments ≤ collected.length then
      cursor.report cursor.peek .tooManyArguments
    else
      cursor) = counted
  refine Cursor.reads_unless count fun sameRest sameRoom => ?_
  have sameLength := congrArg List.length sameRest
  refine (smaller.expression counted (by omega)).bind
    fun argument afterArgument _ leads length => ?_
  rw [sameRoom]
  split
  · rename_i comma afterComma accepted
    have commaKind := (Cursor.accept?_eq_some_iff.mp accepted).1
    have shorter := Cursor.length_accept? accepted
    have laterRoom :=
      (leads.trans (Cursor.leads_accept? accepted)).room_eq
    refine (Step.Reads.afterAccepted accepted ?_).loosen
    refine (smaller.arguments (argument :: collected) afterComma
      (by omega)).weaken (Nat.zero_le 1) ?_
    rintro read values ⟨arguments, rfl, few, argumentsDerived⟩ first -
      argumentDerived -
    rw [laterRoom, sameRoom] at argumentsDerived
    refine ⟨argument :: arguments, by simp, ?_,
      .moreArguments argumentDerived commaKind argumentsDerived⟩
    simp only [List.length_cons] at few ⊢
    omega
  · refine .done fun first _ argumentDerived space => ?_
    refine ⟨[argument], by simp, Nat.lt_of_not_le space, ?_⟩
    simpa using DerivesExpr.lastArgument argumentDerived

/-- A token that is an expression by itself. -/
theorem derives_single
    {room : Nat}
    {token : Token}
    {tree : Expr}
    (shape : Expr.ofToken? token = some tree) :
    DerivesExpr .primary room [token] tree := by
  unfold Expr.ofToken? at shape
  split at shape <;> cases shape
  case h_1 kind =>
    exact .falseWord kind
  case h_2 kind =>
    exact .trueWord kind
  case h_3 kind =>
    exact .nilWord kind
  case h_4 kind =>
    exact .literal (.inl kind)
  case h_5 kind =>
    exact .literal (.inr kind)
  case h_6 kind =>
    exact .thisWord kind
  case h_7 kind =>
    exact .name kind

theorem primary_reads
    (smaller : SoundExpr fuel)
    (cursor : Cursor)
    (enough : 6 * cursor.rest.length + 1 ≤ fuel + 1) :
    (primary (fuel + 1) cursor).Reads cursor 1
      (DerivesExpr .primary cursor.room) := by
  rw [Expr.Parser.primary]
  split
  · exact .failed _ _
  · rename_i token rest shape
    have shorter : rest.length + 1 = cursor.rest.length := by
      rw [shape, List.length_cons]
    split
    · rename_i tree single
      exact .afterToken (cursor.leads_rest shape) shape rfl
        (.done (derives_single single))
    · split
      · rename_i openingKind
        refine .afterToken (cursor.leads_rest shape) shape rfl ?_
        have inside :
            (Cursor.nested { cursor with rest } token fun inner =>
                (expression fuel inner).bind fun tree after =>
                  (after.expect .rightParen .groupEnd).map
                    fun _ => .group tree).Reads { cursor with rest } 1
              fun read value =>
                ∃ room,
                  cursor.room = room + 1 ∧
                    DerivesExpr .primary (room + 1) (token :: read)
                      value := by
          refine Cursor.nested_reads fun inner innerRest => ?_
          have innerLength := congrArg List.length innerRest
          simp only at innerLength
          refine (smaller.expression inner (by omega)).bind
            fun tree after _ _ _ => ?_
          refine (after.expect_reads .rightParen .groupEnd).loosen.map ?_
          rintro _ closing ⟨rfl, closingKind⟩ innerTokens - innerDerived
          exact .group openingKind innerDerived closingKind
        refine inside.weaken (Nat.zero_le 1) ?_
        rintro read value ⟨room, roomShape, derived⟩
        rw [roomShape]
        exact derived
      · exact .failed _ _

end

/-- Within a sufficient bound all functions for expressions read what the
grammar derives. -/
theorem soundExpr (fuel : Nat) : SoundExpr fuel := by
  induction fuel with
  | zero =>
      constructor <;> intros <;> omega
  | succ fuel inductionHypothesis =>
      exact
        { expression := expression_reads inductionHypothesis
          operation := operation_reads inductionHypothesis
          operators := operators_reads inductionHypothesis
          operand := operand_reads inductionHypothesis
          trailers := trailers_reads inductionHypothesis
          arguments := arguments_reads inductionHypothesis
          primary := primary_reads inductionHypothesis }

/-- A parsed expression is derived. -/
theorem parse_reads (cursor : Cursor) :
    (Expr.parse cursor).Reads cursor 1
      (DerivesExpr .expression cursor.room) :=
  (soundExpr _).expression cursor (by omega)

end Script.Grammar
