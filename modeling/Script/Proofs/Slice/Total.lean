import Script.Proofs.Grammar.Language
import Script.Proofs.Slice.Statement
import Mathlib.Data.List.TakeWhile

namespace Script

/-!
# Parsing any slice of tokens

Every slice of tokens is parsed to its end: the parser by index stays inside of
the slice, a bound on its calls suffices that only depends on the length of the
slice, and it comes to the program that the parser on cursors makes.  What is
behind the first end of the input does not matter.
-/

namespace Slice

variable {tokens : List Token}

/-! The start of a slice. -/

/-- The end of the input for a list that has none. -/
def missingEnd (tokens : List Token) : Token :=
  .endAt ((tokens.getLast?.map Token.line).getD 1)

/-- A list without an end of the input is given one. -/
theorem start_of_endless
    (noEnding : ∀ token ∈ tokens, token.kind ≠ .endOfInput) :
    Cursor.start tokens =
      { rest := tokens, ending := missingEnd tokens, depth := 0,
        reported := [] } := by
  have taken : tokens.takeWhile (!·.kind == .endOfInput) = tokens :=
    List.takeWhile_eq_self_iff.mpr (by simpa using noEnding)
  have missing : tokens.find? (·.kind == .endOfInput) = none :=
    List.find?_eq_none.mpr (by simpa using noEnding)
  simp only [Cursor.start, taken, missing, Option.getD_none, missingEnd]

/-- A list has a first end of the input, or none at all. -/
theorem endless_or_split (tokens : List Token) :
    (∀ token ∈ tokens, token.kind ≠ .endOfInput) ∨
      ∃ before ending beyond,
        tokens = before ++ ending :: beyond ∧
          (∀ token ∈ before, token.kind ≠ .endOfInput) ∧
          ending.kind = .endOfInput := by
  cases found : tokens.find? (·.kind == .endOfInput) with
  | none =>
      exact .inl (by simpa using List.find?_eq_none.mp found)
  | some ending =>
      obtain ⟨isEnding, before, beyond, split, noEnding⟩ :=
        List.find?_eq_some_iff_append.mp found
      exact .inr ⟨before, ending, beyond, split, by simpa using noEnding,
        by simpa using isEnding⟩

/-- One more end of the input changes nothing: it is the one that a list
without any is given, or stands behind the first one. -/
theorem start_append_missingEnd (tokens : List Token) :
    Cursor.start (tokens ++ [missingEnd tokens]) = Cursor.start tokens := by
  obtain noEnding | ⟨before, ending, beyond, rfl, noEnding, endingKind⟩ :=
    endless_or_split tokens
  · rw [start_of_endless noEnding, Grammar.start_of_ending noEnding rfl]
  · rw [List.append_assoc, List.cons_append,
      Grammar.start_of_ending noEnding endingKind,
      Grammar.start_of_ending noEnding endingKind]

/-- Closing a slice adds nothing to one that ends the input. -/
theorem closed_eq (tokens : List Token) :
    closed tokens = tokens ∧
        (∃ last ∈ tokens, last.kind = .endOfInput) ∨
      closed tokens = tokens ++ [missingEnd tokens] := by
  unfold closed missingEnd
  cases found : tokens.getLast? with
  | none =>
      exact .inr (by simp [List.getLast?_eq_none_iff.mp found])
  | some last =>
      simp only [Option.map_some, Option.getD_some]
      split
      · rename_i ends
        exact .inl ⟨rfl, last, List.mem_of_getLast? found, ends⟩
      · exact .inr rfl

/-- The start of a closed slice shows the cursor at the start. -/
theorem start_shows (tokens : List Token) :
    Place.Shows (closed tokens)
      { current := 0, depth := 0, reported := [] }
      (Cursor.start tokens) := by
  obtain noEnding | ⟨before, ending, beyond, rfl, noEnding, endingKind⟩ :=
    endless_or_split tokens
  · rw [start_of_endless noEnding]
    obtain ⟨-, last, member, ends⟩ | closes := closed_eq tokens
    · exact (noEnding last member ends).elim
    · exact ⟨⟨[], closes⟩, noEnding, rfl, rfl, rfl⟩
  · rw [Grammar.start_of_ending noEnding endingKind]
    obtain ⟨closes, -⟩ | closes := closed_eq (before ++ ending :: beyond)
    · exact ⟨⟨beyond, closes⟩, noEnding, endingKind, rfl, rfl⟩
    · refine ⟨⟨beyond ++ [missingEnd (before ++ ending :: beyond)], ?_⟩,
        noEnding, endingKind, rfl, rfl⟩
      rw [closes, List.drop_zero, List.append_assoc, List.cons_append]

theorem length_start_le (tokens : List Token) :
    (Cursor.start tokens).rest.length ≤ tokens.length :=
  (List.takeWhile_sublist _).length_le

/-! The whole slice. -/

/-- Parsing a slice comes to what parsing on cursors comes to. -/
theorem parse_shows_start
    {fuel : Nat}
    (enough : 6 * tokens.length + 7 ≤ fuel) :
    let parsed :=
      Stmt.Parser.declarations
        (6 * (Cursor.start tokens).rest.length + 6) false []
        (Cursor.start tokens)
    (parse fuel tokens).Shows (closed tokens) (.done parsed.1 parsed.2) := by
  intro parsed
  have shows := start_shows tokens
  have few := length_start_le tokens
  by_cases nothing : (Cursor.start tokens).rest = []
  · -- Nothing is read, and there is no token to look back at.
    obtain ⟨fuel, rfl⟩ := exists_smaller (show 0 + 1 ≤ fuel by omega)
    have ends := endsBody_apply shows false
    rw [nothing] at ends
    have still : parsed = ([], Cursor.start tokens) := by
      simp [parsed, Stmt.Parser.declarations, nothing]
    rw [still, parse, declarations, bind_of_done _ ends]
    exact shows.done _
  · have begins :
        ∀ first ∈ (closed tokens).head?, first.kind ≠ .endOfInput := by
      obtain ⟨token, rest, shape⟩ := List.exists_cons_of_ne_nil nothing
      obtain ⟨beyond, behind⟩ := shows.behind
      rw [List.drop_zero, shape] at behind
      intro first isFirst
      rw [behind] at isFirst
      obtain rfl : token = first := by simpa using isFirst
      exact shows.notEnd token (shape ▸ List.mem_cons_self)
    exact (stmtShows begins fuel).declarations _ false [] _ _ shows
      (by omega) (by omega)

/-- Parsing a slice comes to the program of the slice, inside of the slice. -/
theorem parse_done
    {fuel : Nat}
    (enough : 6 * tokens.length + 7 ≤ fuel) :
    ∃ place,
      parse fuel tokens = .done (Program.ofTokens tokens).statements place ∧
        place.reported.reverse = (Program.ofTokens tokens).problems ∧
        place.current < (closed tokens).length := by
  have shows := parse_shows_start enough
  cases parsed : parse fuel tokens with
  | done statements place =>
      rw [parsed] at shows
      obtain ⟨rfl, shows⟩ := shows
      exact ⟨place, rfl, congrArg List.reverse shows.reported, shows.inside⟩
  | failed | outside | exhausted =>
      rw [parsed] at shows
      exact shows.elim

end Slice

/-- Every slice of tokens is parsed, whatever it has.  The parser by index does
not look outside of it, needs no more calls than its length allows, stops inside
of it and comes to the program of the slice.  A declaration that fails where
tokens remain is followed by progress.  What is behind the first end of the
input does not matter, and a missing end is one on the line of the last token. -/
theorem Program.ofTokens_total :
    (∀ (tokens : List Token) (fuel : Nat),
      6 * tokens.length + 7 ≤ fuel →
      ∃ place,
        Slice.parse fuel tokens = .done (ofTokens tokens).statements place ∧
          place.reported.reverse = (ofTokens tokens).problems ∧
          place.current < (Slice.closed tokens).length) ∧
      (∀ (bound : Nat) (cursor after : Cursor),
        cursor.rest ≠ [] →
        Stmt.Parser.declaration bound cursor = .failed after →
        after.synchronize.rest.length < cursor.rest.length) ∧
      (∀ (before beyond : List Token) (ending : Token),
        (∀ token ∈ before, token.kind ≠ .endOfInput) →
        ending.kind = .endOfInput →
        ofTokens (before ++ ending :: beyond) =
          ofTokens (before ++ [ending])) ∧
      ∀ tokens : List Token,
        ofTokens tokens =
          ofTokens
            (tokens ++ [.endAt ((tokens.getLast?.map Token.line).getD 1)]) := by
  refine ⟨fun tokens fuel => Slice.parse_done, fun bound cursor after => ?_,
    fun before beyond ending noEnding endingKind => ?_, fun tokens => ?_⟩
  · exact Slice.length_synchronize_lt
  · unfold ofTokens
    rw [Grammar.start_of_ending noEnding endingKind,
      Grammar.start_of_ending noEnding endingKind]
  · unfold ofTokens
    rw [← Slice.start_append_missingEnd, Slice.missingEnd]

/-- Tokens in no sensible order, an end of the input among them. -/
def oddSlice : List Token :=
  Grammar.tokensOf
    [.rightBrace, .keyword .classWord, .leftBrace, .endOfInput, .dot]

/-- The start of the odd slice after its first token has been refused. -/
def oddFailure : Cursor :=
  (Cursor.start oddSlice).report (Cursor.start oddSlice).peek
    (.expected .expression)

theorem Program.ofTokens_total_oddSlice :
    (∃ place,
      Slice.parse 37 oddSlice = .done (ofTokens oddSlice).statements place ∧
        place.reported.reverse = (ofTokens oddSlice).problems ∧
        place.current < (Slice.closed oddSlice).length) ∧
      (Stmt.Parser.declaration 20 (Cursor.start oddSlice) =
          .failed oddFailure ∧
        oddFailure.synchronize.rest.length <
          (Cursor.start oddSlice).rest.length) ∧
      ofTokens oddSlice = ofTokens (oddSlice.take 3 ++ [.endAt 1]) ∧
      ofTokens oddSlice = ofTokens (oddSlice ++ [.endAt 1]) := by
  obtain ⟨total, progress, cut, missing⟩ := ofTokens_total
  exact ⟨total oddSlice 37 (by decide),
    ⟨rfl, progress 20 (Cursor.start oddSlice) oddFailure (by decide) rfl⟩,
    cut (oddSlice.take 3) (oddSlice.drop 4) (.endAt 1) (by decide) rfl,
    missing oddSlice⟩

end Script
