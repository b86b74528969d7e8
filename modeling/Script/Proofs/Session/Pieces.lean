import Script.Session
import Script.Proofs.Grammar.Language
import Script.Proofs.Grammar.StmtCut
import Script.Proofs.Relabel.Evaluate
import Script.Proofs.Relabel.Scope
import Script.Proofs.Token.Layout

namespace Script

open Grammar

/-!
# Programs in pieces

A program without problems that is cut behind a line feed either stops in the
middle of a construct there, or it is two programs without problems.  Running the
two programs one after the other is then running the whole program, except for
the lines that the functions of the second one have.
-/

namespace Site

/-- Top-level declarations are in no scope. -/
theorem after_outermost :
    (stmt : Stmt) → outermost.after stmt = outermost
  | .expression _ | .print _ | .block _ | .returning _ _ | .missing => by
      simp [after]
  | .variableDecl _ _ | .functionDecl _ | .classDecl _ _ => by
      simp [after, bind, outermost]
  | .conditional _ consequent none => by
      simp [after, after_outermost consequent]
  | .conditional _ consequent (some alternative) => by
      simp [after, after_outermost consequent, after_outermost alternative]
  | .loop _ body => by
      simp [after, after_outermost body]

theorem resolveStmts_append (first second : List Stmt) :
    outermost.resolveStmts (first ++ second) =
      outermost.resolveStmts first ++ outermost.resolveStmts second := by
  induction first with
  | nil =>
      simp [resolveStmts]
  | cons stmt rest inductionHypothesis =>
      simp [resolveStmts, after_outermost, inductionHypothesis]

theorem stmtsProblems_append (first second : List Stmt) :
    outermost.stmtsProblems (first ++ second) =
      outermost.stmtsProblems first ++ outermost.stmtsProblems second := by
  induction first with
  | nil =>
      simp [stmtsProblems]
  | cons stmt rest inductionHypothesis =>
      simp [stmtsProblems, after_outermost, inductionHypothesis]

end Site

namespace Machine

theorem interpret_append
    (fuel : Nat)
    (first second : List Stmt)
    (machine : Machine) :
    interpret fuel (first ++ second) machine =
      (interpret fuel first machine).bind fun _ machine =>
        interpret fuel second machine := by
  induction first generalizing machine with
  | nil =>
      rfl
  | cons stmt rest inductionHypothesis =>
      simp only [List.cons_append, interpret]
      cases execute fuel stmt machine with
      | done flow after =>
          exact inductionHypothesis after
      | _ =>
          rfl

end Machine

/-- A source text without lexical and syntax problems, and its statements. -/
structure Program.Accepts
    (source : Text)
    (trees : List Stmt) :
    Prop where
  sound : ∀ segment ∈ Segment.split source, segment.IsSound
  derived :
    Derives true .declarations deepestNesting
      (Scan.lexemes 1 (Segment.split source)) trees

namespace Program

variable {source : Text}

/-- A source text is read as its lexemes and the end of the input. -/
theorem ofSource_eq (source : Text) :
    ofSource source =
      { statements :=
          (ofTokens
            (Scan.lexemes 1 (Segment.split source) ++
              [.endAt (Scan.lastLine 1 (Segment.split source))])).statements
        problems :=
          (Scan.ofSegments 1 (Segment.split source)).problems ++
            (ofTokens
              (Scan.lexemes 1 (Segment.split source) ++
                [.endAt
                  (Scan.lastLine 1 (Segment.split source))])).problems } := by
  rw [ofSource, Scan.ofSource, Scan.tokens_ofSegments]

theorem accepts_of_problems (silent : (ofSource source).problems = []) :
    Accepts source (ofSource source).statements := by
  rw [ofSource_eq] at silent ⊢
  obtain ⟨scanned, parsed⟩ := List.append_eq_nil_iff.mp silent
  exact ⟨(Scan.problems_eq_nil_iff 1 _).mp scanned,
    derives_of_ofTokens (fun _ => Scan.kind_of_mem_lexemes) rfl parsed⟩

theorem Accepts.ofSource
    {trees : List Stmt}
    (accepts : Accepts source trees) :
    ofSource source = { statements := trees, problems := [] } := by
  have parsed (line : Int) :
      ofTokens (Scan.lexemes 1 (Segment.split source) ++ [.endAt line]) =
        { statements := trees, problems := [] } :=
    ofTokens_of_derives (fun _ => Scan.kind_of_mem_lexemes) rfl accepts.derived
  have scanned :=
    (Scan.problems_eq_nil_iff 1 (Segment.split source)).mpr accepts.sound
  simp only [ofSource_eq, parsed, scanned, List.append_nil]

/-- Input stops in the middle of a construct when it has problems and all of them
can be mended. -/
theorem needsMore_iff :
    needsMore source = true ↔
      (ofSource source).problems ≠ [] ∧
        ∀ problem ∈ (ofSource source).problems, problem.incomplete = true := by
  simp [needsMore]

/-- The statements of white space. -/
theorem statements_of_isBlank (blank : source.isBlank = true) :
    (Program.ofSource source).statements = [] := by
  rw [ofSource_eq]
  simp only [Scan.lexemes_of_isBlank blank, List.nil_append]
  rfl

/-- The problems of white space are not about its end. -/
theorem needsMore_of_isBlank (blank : source.isBlank = true) :
    needsMore source = false := by
  have nothing :
      (ofTokens [.endAt (Scan.lastLine 1 (Segment.split source))]).problems =
        [] := by
    rfl
  simp only [needsMore, ofSource_eq, Scan.lexemes_of_isBlank blank,
    List.nil_append, nothing, List.append_nil]
  cases found : (Scan.ofSegments 1 (Segment.split source)).problems with
  | nil =>
      rfl
  | cons problem others =>
      obtain ⟨segment, segmentMember, last, isProblem⟩ :=
        Scan.mem_problems (found ▸ List.mem_cons_self)
      obtain ⟨first, firstMember, rest, rfl⟩ :=
        Segment.front_of_mem_splitAfter segmentMember
      have lasting :=
        Segment.incomplete_of_isBlank
          (List.all_eq_true.mp blank first firstMember) isProblem
      simp [lasting]

section Lines

variable {line rest : Text} {trees : List Stmt}

/-- A line of a source text is cut apart from what is behind it. -/
theorem cutsApart_line (line rest : Text) :
    Segment.split (line ++ Text.newline :: rest) =
        Segment.split (line ++ [Text.newline]) ++ Segment.split rest ∨
      ∃ before inner,
        Segment.split (line ++ [Text.newline]) =
            before ++ [.openString inner] ∧
          before <+: Segment.split (line ++ Text.newline :: rest) := by
  have apart : Segment.CutsApart (Glyph.decode (line ++ [Text.newline]))
      (Glyph.decode rest) := by
    refine Segment.cutsApart _ _ fun last found => ?_
    simpa [Glyph.decode_line, eq_comm] using found
  rwa [Segment.CutsApart, ← Glyph.decode_newline, ← Segment.split,
    ← Segment.split, ← Segment.split] at apart

/-- More input could still mend every problem of the lines with which a program
without problems begins. -/
theorem Accepts.incomplete
    (accepts : Accepts (line ++ Text.newline :: rest) trees)
    (problem : Diagnostic)
    (member :
      problem ∈ (Program.ofSource (line ++ [Text.newline])).problems) :
    problem.incomplete = true := by
  rw [ofSource_eq] at member
  have parsed
      {before after : List Segment}
      (whole :
        Segment.split (line ++ Text.newline :: rest) = before ++ after)
      (last : Int)
      (found :
        problem ∈
          (ofTokens (Scan.lexemes 1 before ++ [.endAt last])).problems) :
      problem.incomplete = true := by
    refine incomplete_of_derives (fun _ => Scan.kind_of_mem_lexemes) rfl
      accepts.derived ?_ problem found
    rw [whole, Scan.lexemes_append]
    exact List.prefix_append _ _
  rcases cutsApart_line line rest with apart | ⟨before, inner, opened, goesOn⟩
  · rcases List.mem_append.mp member with scanned | found
    · obtain ⟨segment, segmentMember, last, isProblem⟩ :=
        Scan.mem_problems scanned
      have sound :=
        accepts.sound segment (apart ▸ List.mem_append_left _ segmentMember)
      rw [sound.problem?] at isProblem
      cases isProblem
    · exact parsed apart _ found
  · obtain ⟨after, whole⟩ := goesOn
    rw [opened] at member
    rcases List.mem_append.mp member with scanned | found
    · obtain ⟨segment, segmentMember, last, isProblem⟩ :=
        Scan.mem_problems scanned
      rcases List.mem_append.mp segmentMember with early | atEnd
      · have sound :=
          accepts.sound segment (whole ▸ List.mem_append_left _ early)
        rw [sound.problem?] at isProblem
        cases isProblem
      · rw [List.mem_singleton.mp atEnd] at isProblem
        cases isProblem
        rfl
    · have noToken (line : Nat) :
          Scan.lexemes line [.openString inner] = [] :=
        rfl
      rw [Scan.lexemes_append, noToken, List.append_nil] at found
      exact parsed whole.symm _ found

/-- When a program without problems is read up to a line feed, or not at all,
either there is no problem yet, or more input could still mend all of them. -/
theorem silent_or_needsMore
    {start more : Text}
    (whole : start = [] ∨ start.getLast? = some Text.newline)
    (silent : (ofSource (start ++ more)).problems = []) :
    (∀ problem ∈ (ofSource start).problems, problem.incomplete = true) ∧
      ((ofSource start).problems = [] ∨ needsMore start = true) := by
  have incomplete :
      ∀ problem ∈ (ofSource start).problems, problem.incomplete = true := by
    rcases whole with rfl | ends
    · have nothing : (ofSource []).problems = [] := by
        decide
      simp [nothing]
    · obtain ⟨line, rfl⟩ := List.getLast?_eq_some_iff.mp ends
      rw [List.append_assoc, List.singleton_append] at silent
      exact (accepts_of_problems silent).incomplete
  refine ⟨incomplete, ?_⟩
  by_cases found : (ofSource start).problems = []
  · exact .inl found
  · exact .inr (needsMore_iff.mpr ⟨found, incomplete⟩)

/-- A string that goes on behind a line is such a case. -/
theorem silent_or_needsMore_openString :
    (Text.utf8 "print \"one\n").getLast? = some Text.newline ∧
      (ofSource (Text.utf8 "print \"one\n" ++ Text.utf8 "two\";")).problems =
        [] ∧
      needsMore (Text.utf8 "print \"one\n") = true := by
  have ends : (Text.utf8 "print \"one\n").getLast? = some Text.newline := by
    decide
  have silent :
      (ofSource (Text.utf8 "print \"one\n" ++ Text.utf8 "two\";")).problems =
        [] :=
    List.isEmpty_iff.mp (by decide +kernel)
  refine ⟨ends, silent, ?_⟩
  refine (silent_or_needsMore (.inr ends) silent).2.resolve_left ?_
  exact mt List.isEmpty_iff.mpr (by decide +kernel)

/-- A program without problems that begins with whole lines of one goes on with
another one, on later lines. -/
theorem Accepts.remainder
    {first : List Stmt}
    (accepts : Accepts (line ++ Text.newline :: rest) trees)
    (start : Accepts (line ++ [Text.newline]) first)
    (noElse :
      Segment.NoElseBeginsLine
        (Segment.split (line ++ Text.newline :: rest))) :
    ∃ lines second,
      trees = first ++ second ∧
        Accepts rest (Stmt.relabelAll (Token.shift lines) second) ∧
          Segment.NoElseBeginsLine (Segment.split rest) := by
  rcases cutsApart_line line rest with apart | ⟨before, inner, opened, -⟩
  · obtain ⟨sound, derived⟩ := accepts
    have soundRest : ∀ segment ∈ Segment.split rest, segment.IsSound :=
      fun segment member => sound segment (apart ▸ List.mem_append_right _ member)
    have counted :
        Scan.lexemes (Scan.lastLine 1 (Segment.split (line ++ [Text.newline])))
            (Segment.split rest) =
          (Scan.lexemes 1 (Segment.split rest)).map
            (Token.shift
              (Scan.lastLine 0 (Segment.split (line ++ [Text.newline])))) := by
      rw [Scan.lastLine_eq, Scan.lexemes_shift]
    rw [apart] at noElse derived
    rw [Scan.lexemes_append, counted] at derived
    rw [Segment.split, Glyph.decode_line, Segment.split] at noElse
    have noElseRest :=
      noElse.noElse soundRest
        (Scan.lastLine 1 (Segment.split (line ++ [Text.newline])))
    rw [← Segment.split, counted] at noElseRest
    obtain ⟨second, whole, later⟩ :=
      derived.rest start.derived noElseRest
    refine ⟨-Scan.lastLine 0 (Segment.split (line ++ [Text.newline])), second,
      whole, ⟨soundRest, ?_⟩, noElse.behind⟩
    have back := later.relabel (Token.shift_relabels
      (-Scan.lastLine 0 (Segment.split (line ++ [Text.newline]))))
    rw [List.map_map, Token.shift_comp_shift, Int.add_right_neg,
      Token.shift_zero, List.map_id] at back
    exact back
  · have open_sound :=
      start.sound (.openString inner) (by rw [opened]; simp)
    cases open_sound

end Lines

end Program

end Script
