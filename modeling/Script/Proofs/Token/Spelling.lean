import Script.Token.Scan
import Script.Proofs.Token.Lines

namespace Script

/-!
# How words are spelled

A token that the scanner makes is a keyword exactly when its lexeme spells one;
so no name is spelled like a keyword, and a keyword is spelled in only one way.
-/

/-- Names spell no keyword, and keywords spell themselves. -/
structure TokenKind.Spells
    (kind : TokenKind)
    (lexeme : Text) :
    Prop where
  name : kind = .identifier → Keyword.ofText? lexeme = none
  keyword :
    ∀ word, kind = .keyword word → Keyword.ofText? lexeme = some word

namespace TokenKind.Spells

/-- A kind that is neither that of names nor that of a keyword. -/
theorem of_mark
    {kind : TokenKind}
    {lexeme : Text}
    (notName : kind ≠ .identifier)
    (notKeyword : ∀ word, kind ≠ .keyword word) :
    kind.Spells lexeme where
  name isName := (notName isName).elim
  keyword word isKeyword := (notKeyword word isKeyword).elim

end TokenKind.Spells

namespace Keyword

/-- A text that spells a keyword is its spelling. -/
theorem eq_spelling_of_ofText?
    {text : Text}
    {word : Keyword}
    (found : ofText? text = some word) :
    text = Text.utf8 word.spelling := by
  have same := List.find?_some found
  exact (eq_of_beq same).symm

end Keyword

namespace Segment

/-- The lexeme of a segment spells what its kind says, which is not the end of
the input. -/
def IsSpelled : Segment → Prop
  | .lexeme kind _ glyphs =>
      kind.Spells (Glyph.bytes glyphs) ∧ kind ≠ .endOfInput
  | _ =>
      True

theorem mark_spelled
    {glyph : Glyph}
    {kind : TokenKind}
    (found : glyph.mark? = some kind)
    (lexeme : Text) :
    kind.Spells lexeme ∧ kind ≠ .endOfInput := by
  unfold Glyph.mark? at found
  split at found <;> cases found <;>
    exact ⟨.of_mark (by simp) (by simp), by simp⟩

theorem joining_spelled
    {glyph : Glyph}
    {kinds : TokenKind × TokenKind}
    (found : glyph.joining? = some kinds)
    (lexeme : Text) :
    (kinds.1.Spells lexeme ∧ kinds.1 ≠ .endOfInput) ∧
      kinds.2.Spells lexeme ∧ kinds.2 ≠ .endOfInput := by
  unfold Glyph.joining? at found
  split at found <;> cases found <;>
    exact ⟨⟨.of_mark (by simp) (by simp), by simp⟩,
      .of_mark (by simp) (by simp), by simp⟩

theorem word_spelled
    (first : Glyph)
    (rest : List Glyph) :
    (word first rest).IsSpelled := by
  unfold word
  simp only
  split
  · rename_i keyword found
    exact ⟨⟨by simp, fun word same => by cases same; exact found⟩, by simp⟩
  · rename_i found
    exact ⟨⟨fun _ => found, by simp⟩, by simp⟩

theorem front_spelled
    (first : Glyph)
    (rest : List Glyph) :
    (front first rest).IsSpelled := by
  unfold front
  split
  · rename_i kind _ _ found
    exact mark_spelled found _
  · rename_i kinds _ found
    unfold joined
    split
    · split
      · exact (joining_spelled found _).2
      · exact (joining_spelled found _).1
    · exact (joining_spelled found _).1
  · split
    · unfold slash
      split
      · split
        · trivial
        · exact ⟨.of_mark (by simp) (by simp), by simp⟩
      · exact ⟨.of_mark (by simp) (by simp), by simp⟩
    · split
      · trivial
      · split
        · unfold string
          simp only
          split
          · exact ⟨.of_mark (by simp) (by simp), by simp⟩
          · trivial
        · split
          · exact ⟨.of_mark (by simp) (by simp), by simp⟩
          · split
            · exact word_spelled first rest
            · trivial

theorem splitAfter_spelled
    (skipped : Nat)
    (glyphs : List Glyph)
    (segment : Segment)
    (member : segment ∈ splitAfter skipped glyphs) :
    segment.IsSpelled := by
  obtain ⟨first, -, rest, rfl⟩ := front_of_mem_splitAfter member
  exact front_spelled first rest

end Segment

namespace Scan

theorem ofSegments_spelled
    (line : Nat)
    (segments : List Segment)
    (spelled : ∀ segment ∈ segments, segment.IsSpelled)
    (token : Token)
    (member : token ∈ (ofSegments line segments).tokens) :
    token.kind.Spells token.lexeme := by
  induction segments generalizing line with
  | nil =>
      obtain rfl := List.mem_singleton.mp member
      exact .of_mark (by simp [Token.endAt]) (by simp [Token.endAt])
  | cons segment rest inductionHypothesis =>
      have first := spelled segment List.mem_cons_self
      simp only [ofSegments, List.mem_append] at member
      rcases member with member | member
      · cases segment with
        | lexeme kind literal glyphs =>
            simp only [Segment.token?, Option.toList_some,
              List.mem_singleton] at member
            subst member
            exact first.1
        | blank | comment | stray | openString =>
            cases member
      · exact inductionHypothesis _
          (fun later laterMember =>
            spelled later (List.mem_cons_of_mem _ laterMember))
          member

/-- Every token of a source text is spelled as its kind says. -/
theorem ofSource_spelled
    (source : Text)
    (token : Token)
    (member : token ∈ (ofSource source).tokens) :
    token.kind.Spells token.lexeme :=
  ofSegments_spelled 1 _ (Segment.splitAfter_spelled 0 _) token member

end Scan

end Script
