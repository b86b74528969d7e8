import Script.Proofs.Grammar.StmtSound
import Script.Tree.Program

namespace Script.Grammar

/-!
# The language of the parser

The parser accepts a list of tokens exactly when the grammar derives it, and the
statements it gives are the only trees in which every `else` belongs to the
nearest conditional.  That rule chooses between derivations but rejects nothing:
an `else` that a derivation gives to an outer conditional can be handed to the
nearest one.
-/

namespace Derives

variable {room : Nat}

/-- A derivation in which every `else` belongs to the nearest conditional is a
derivation. -/
theorem relax
    {nearest : Bool}
    {phrase : Phrase}
    {tokens : List Token}
    {tree : phrase.Tree}
    (derived : Derives nearest phrase room tokens tree) :
    Derives false phrase room tokens tree := by
  induction derived with
  | nothing =>
      exact .nothing
  | more _ _ first rest =>
      exact .more first rest
  | classDecl keyword name opening _ closing methods =>
      exact .classDecl keyword name opening methods closing
  | functionDecl keyword _ function =>
      exact .functionDecl keyword function
  | variableDecl derived =>
      exact .variableDecl derived
  | statement _ statement =>
      exact .statement statement
  | noMethod =>
      exact .noMethod
  | moreMethods _ _ first rest =>
      exact .moreMethods first rest
  | function name opening list closing openingBrace _ closingBrace body =>
      exact .function name opening list closing openingBrace body closingBrace
  | expression value semicolon =>
      exact .expression value semicolon
  | print keyword value semicolon =>
      exact .print keyword value semicolon
  | returning keyword value semicolon =>
      exact .returning keyword value semicolon
  | whileLoop keyword opening condition closing _ body =>
      exact .whileLoop keyword opening condition closing body
  | forLoop keyword opening initial condition semicolon increment closing _
      body =>
      exact .forLoop keyword opening initial condition semicolon increment
        closing body
  | ifThen keyword opening condition closing _ consequent =>
      exact .ifThen keyword opening condition closing consequent
  | ifElse keyword opening condition closing _ _ elseWord _ consequent
      alternative =>
      exact .ifElse keyword opening condition closing consequent (by simp)
        elseWord alternative
  | block opening _ closing body =>
      exact .block opening body closing

/-- Declarations may follow other declarations. -/
theorem append
    {nearest : Bool}
    {first second : List Token}
    {trees others : List Stmt}
    (derived : Derives nearest .declarations room first trees)
    (otherDerived : Derives nearest .declarations room second others) :
    Derives nearest .declarations room (first ++ second) (trees ++ others) := by
  induction trees generalizing first with
  | nil =>
      cases derived
      exact otherDerived
  | cons stmt rest inductionHypothesis =>
      cases derived with
      | more here later =>
          rw [List.append_assoc]
          exact .more here (inductionHypothesis later)

/-- An `else` with its statement behind a dangling statement belongs to the
nearest conditional in it. -/
theorem attach
    {phrase : Phrase}
    {before after : List Token}
    {tree : phrase.Tree}
    {elseWord : Token}
    {dangling : Bool}
    {alternative : Stmt}
    (derived : Derives true phrase room before tree)
    (isDangling : phrase = .statement true)
    (elseKind : elseWord.kind = .keyword .elseWord)
    (alternativeDerived :
      Derives true (.statement dangling) room after alternative) :
    ∃ openEnd whole,
      Derives true (.statement openEnd) room
        (before ++ elseWord :: after) whole := by
  induction derived with
  | whileLoop keyword opening condition closing _ inductionHypothesis =>
      obtain ⟨openEnd, body, bodyDerived⟩ :=
        inductionHypothesis isDangling alternativeDerived
      have loop :=
        Derives.whileLoop keyword opening condition closing bodyDerived
      exact ⟨openEnd, _, by simpa using loop⟩
  | forLoop keyword opening initial condition semicolon increment closing _
      inductionHypothesis =>
      obtain ⟨openEnd, body, bodyDerived⟩ :=
        inductionHypothesis isDangling alternativeDerived
      have loop :=
        Derives.forLoop keyword opening initial condition semicolon increment
          closing bodyDerived
      exact ⟨openEnd, _, by simpa using loop⟩
  | @ifThen innerEnd _ _ _ _ _ _ _ _ keyword opening condition closing
      consequent inductionHypothesis =>
      cases innerEnd with
      | false =>
          have conditional :=
            Derives.ifElse keyword opening condition closing consequent
              (fun _ => rfl) elseKind alternativeDerived
          exact ⟨dangling, _, by simpa using conditional⟩
      | true =>
          obtain ⟨openEnd, inner, innerDerived⟩ :=
            inductionHypothesis rfl alternativeDerived
          have conditional :=
            Derives.ifThen keyword opening condition closing innerDerived
          exact ⟨true, _, by simpa using conditional⟩
  | ifElse keyword opening condition closing consequent closed innerElse _ _
      inductionHypothesis =>
      obtain ⟨openEnd, inner, innerDerived⟩ :=
        inductionHypothesis isDangling alternativeDerived
      have conditional :=
        Derives.ifElse keyword opening condition closing consequent closed
          innerElse innerDerived
      exact ⟨openEnd, _, by simpa using conditional⟩
  | _ =>
      cases isDangling

/-- The tokens of a phrase have a derivation in which every `else` belongs to the
nearest conditional. -/
def Regroups :
    Phrase → Nat → List Token → Prop
  | .statement _, room, tokens =>
      ∃ dangling tree, Derives true (.statement dangling) room tokens tree
  | phrase, room, tokens =>
      ∃ tree, Derives true phrase room tokens tree

theorem regroups
    {nearest : Bool}
    {phrase : Phrase}
    {tokens : List Token}
    {tree : phrase.Tree}
    (derived : Derives nearest phrase room tokens tree) :
    Regroups phrase room tokens := by
  induction derived with
  | nothing =>
      exact ⟨_, .nothing⟩
  | more _ _ first rest =>
      obtain ⟨stmt, first⟩ := first
      obtain ⟨stmts, rest⟩ := rest
      exact ⟨_, .more first rest⟩
  | classDecl keyword name opening _ closing methods =>
      obtain ⟨methods, derived⟩ := methods
      exact ⟨_, .classDecl keyword name opening derived closing⟩
  | functionDecl keyword _ function =>
      obtain ⟨function, derived⟩ := function
      exact ⟨_, .functionDecl keyword derived⟩
  | variableDecl derived =>
      exact ⟨_, .variableDecl derived⟩
  | statement _ statement =>
      obtain ⟨dangling, tree, derived⟩ := statement
      exact ⟨_, .statement derived⟩
  | noMethod =>
      exact ⟨_, .noMethod⟩
  | moreMethods _ _ first rest =>
      obtain ⟨method, first⟩ := first
      obtain ⟨methods, rest⟩ := rest
      exact ⟨_, .moreMethods first rest⟩
  | function name opening list closing openingBrace _ closingBrace body =>
      obtain ⟨body, derived⟩ := body
      exact ⟨_, .function name opening list closing openingBrace derived
        closingBrace⟩
  | expression value semicolon =>
      exact ⟨_, _, .expression value semicolon⟩
  | print keyword value semicolon =>
      exact ⟨_, _, .print keyword value semicolon⟩
  | returning keyword value semicolon =>
      exact ⟨_, _, .returning keyword value semicolon⟩
  | whileLoop keyword opening condition closing _ body =>
      obtain ⟨dangling, body, derived⟩ := body
      exact ⟨_, _, .whileLoop keyword opening condition closing derived⟩
  | forLoop keyword opening initial condition semicolon increment closing _
      body =>
      obtain ⟨dangling, body, derived⟩ := body
      exact ⟨_, _, .forLoop keyword opening initial condition semicolon
        increment closing derived⟩
  | ifThen keyword opening condition closing _ consequent =>
      obtain ⟨dangling, consequent, derived⟩ := consequent
      exact ⟨_, _, .ifThen keyword opening condition closing derived⟩
  | ifElse keyword opening condition closing _ _ elseWord _ consequent
      alternative =>
      obtain ⟨openEnd, consequent, consequentDerived⟩ := consequent
      obtain ⟨dangling, alternative, alternativeDerived⟩ := alternative
      cases openEnd with
      | false =>
          exact ⟨_, _, .ifElse keyword opening condition closing
            consequentDerived (fun _ => rfl) elseWord alternativeDerived⟩
      | true =>
          -- The `else` goes to a conditional inside the consequent.
          obtain ⟨innerEnd, inner, innerDerived⟩ :=
            consequentDerived.attach rfl elseWord alternativeDerived
          have conditional :=
            Derives.ifThen keyword opening condition closing innerDerived
          exact ⟨true, _, by simpa using conditional⟩
  | block opening _ closing body =>
      obtain ⟨body, derived⟩ := body
      exact ⟨_, _, .block opening derived closing⟩

end Derives

section Program

variable {tokens : List Token} {ending : Token}

/-- The tokens before the first end of the input are those to be read. -/
theorem start_of_ending
    {beyond : List Token}
    (noEnding : ∀ token ∈ tokens, token.kind ≠ .endOfInput)
    (endingKind : ending.kind = .endOfInput) :
    Cursor.start (tokens ++ ending :: beyond) =
      { rest := tokens, ending, depth := 0, reported := [] } := by
  have taken :
      (tokens ++ ending :: beyond).takeWhile (!·.kind == .endOfInput) =
        tokens := by
    rw [List.takeWhile_append_of_pos (by simpa using noEnding)]
    simp [endingKind]
  have found :
      (tokens ++ ending :: beyond).find? (·.kind == .endOfInput) =
        some ending := by
    rw [List.find?_append, List.find?_eq_none.mpr (by simpa using noEnding)]
    simp [endingKind]
  simp only [Cursor.start, taken, found, Option.getD_some]

/-- Derived tokens are a program without problems. -/
theorem ofTokens_of_derives
    {trees : List Stmt}
    (noEnding : ∀ token ∈ tokens, token.kind ≠ .endOfInput)
    (endingKind : ending.kind = .endOfInput)
    (derived : Derives true .declarations deepestNesting tokens trees) :
    Program.ofTokens (tokens ++ [ending]) =
      { statements := trees, problems := [] } := by
  obtain ⟨left, leftEnough, reached⟩ :=
    derived.completes (6 * tokens.length + 6) false []
      { rest := tokens, ending, depth := 0, reported := [] } []
      (by simp [deepestNesting, Cursor.maximalDepth])
      (by simp only [List.length_nil]; omega)
      (by intro token rest shape; cases shape)
  obtain ⟨left, rfl⟩ := Nat.exists_eq_add_of_le' (show 1 ≤ left by omega)
  simp only [List.append_nil] at reached
  unfold Program.ofTokens
  simp only [start_of_ending noEnding endingKind, reached]
  simp [Stmt.Parser.declarations]

/-- A program without problems is derived. -/
theorem derives_of_ofTokens
    (noEnding : ∀ token ∈ tokens, token.kind ≠ .endOfInput)
    (endingKind : ending.kind = .endOfInput)
    (silent : (Program.ofTokens (tokens ++ [ending])).problems = []) :
    Derives true .declarations deepestNesting tokens
      (Program.ofTokens (tokens ++ [ending])).statements := by
  unfold Program.ofTokens at silent ⊢
  simp only [start_of_ending noEnding endingKind] at silent ⊢
  cases parsed :
      Stmt.Parser.declarations (6 * tokens.length + 6) false []
        { rest := tokens, ending, depth := 0, reported := [] } with
  | mk statements after =>
      rw [parsed] at silent
      obtain ⟨-, -, relates⟩ :=
        (sound _).declarations false [] _ statements after
          (by simp only; omega) parsed
      obtain ⟨read, -, ⟨trees, rfl, derived⟩, whole⟩ :=
        relates (by simpa using silent)
      obtain rfl : tokens = read := whole rfl
      have roomy :
          Derives true .declarations deepestNesting tokens statements :=
        derived
      simpa using roomy

/-- Parsing a list of tokens finds no problem exactly when the list is derived.
The statements are then those trees, and only those, in which every `else`
belongs to the nearest conditional. -/
theorem ofTokens_iff_derives
    (noEnding : ∀ token ∈ tokens, token.kind ≠ .endOfInput)
    (endingKind : ending.kind = .endOfInput) :
    ((Program.ofTokens (tokens ++ [ending])).problems = [] ↔
        ∃ trees, Derives false .declarations deepestNesting tokens trees) ∧
      ((Program.ofTokens (tokens ++ [ending])).problems = [] →
        ∀ trees,
          Derives true .declarations deepestNesting tokens trees ↔
            trees = (Program.ofTokens (tokens ++ [ending])).statements) := by
  refine ⟨⟨fun silent => ?_, ?_⟩, fun silent trees => ⟨fun derived => ?_, ?_⟩⟩
  · exact ⟨_, (derives_of_ofTokens noEnding endingKind silent).relax⟩
  · rintro ⟨trees, derived⟩
    obtain ⟨regrouped, regroupedDerived⟩ := derived.regroups
    rw [ofTokens_of_derives noEnding endingKind regroupedDerived]
  · rw [ofTokens_of_derives noEnding endingKind derived]
  · rintro rfl
    exact derives_of_ofTokens noEnding endingKind silent

end Program

/-- Tokens on one line that have nothing but their kinds. -/
def tokensOf (kinds : List TokenKind) : List Token :=
  kinds.map fun kind => { kind, lexeme := [], literal := .nil, line := 1 }

/-- A conditional inside another one, with one `else`. -/
def nestedConditional : List Token :=
  tokensOf
    [.keyword .ifWord, .leftParen, .identifier, .rightParen,
     .keyword .ifWord, .leftParen, .identifier, .rightParen,
     .identifier, .semicolon, .keyword .elseWord, .identifier, .semicolon]

/-- The conditional inside another one is parsed as it is derived. -/
theorem ofTokens_iff_derives_nestedConditional :
    (∀ token ∈ nestedConditional, token.kind ≠ .endOfInput) ∧
      (Token.endAt 1).kind = .endOfInput ∧
      (Program.ofTokens (nestedConditional ++ [.endAt 1])).problems = [] ∧
      ((Program.ofTokens (nestedConditional ++ [.endAt 1])).problems = [] ↔
        ∃ trees,
          Derives false .declarations deepestNesting nestedConditional trees) ∧
      ((Program.ofTokens (nestedConditional ++ [.endAt 1])).problems = [] →
        ∀ trees,
          Derives true .declarations deepestNesting nestedConditional trees ↔
            trees =
              (Program.ofTokens
                (nestedConditional ++ [.endAt 1])).statements) :=
  ⟨by decide, rfl, List.isEmpty_iff.mp (by decide +kernel),
    ofTokens_iff_derives (by decide) rfl⟩

end Script.Grammar
