import Script.Console.ScriptFile
import Script.Proofs.Token.Counted
import Script.Proofs.Token.Joined

namespace Script

/-!
# The first line of a script

A script file may begin with a line that names its interpreter.  What is read
from the file is scanned as if that line were a comment, and its lines are those
of the file, because the line feed behind the first line is kept.
-/

namespace Text

/-- A text is its first line and what comes from the first line feed on. -/
theorem firstLine_append (text : Text) :
    ∃ line rest,
      text = line ++ rest ∧
        rest = text.dropWhile (· != newline) ∧
        newlines line = 0 ∧
        (rest = [] ∨ ∃ more, rest = newline :: more) := by
  refine ⟨text.takeWhile (· != newline), _,
    List.takeWhile_append_dropWhile.symm, rfl, ?_, ?_⟩
  · refine List.count_eq_zero.mpr fun member => ?_
    simpa using List.mem_takeWhile_imp member
  · have stops := List.head?_dropWhile_not (· != newline) text
    cases dropped : text.dropWhile (· != newline) with
    | nil =>
        exact .inl rfl
    | cons first more =>
        rw [dropped] at stops
        obtain rfl : first = newline := by simpa using stops
        exact .inr ⟨more, rfl⟩

end Text

namespace Glyph

/-- Reading two slashes. -/
theorem decode_slashes (line : Text) :
    decode (Text.utf8 "//" ++ line) =
      ofByte (Text.byte '/') :: ofByte (Text.byte '/') :: decode line :=
  rfl

/-- A text without line feeds is read as glyphs that are none. -/
theorem not_lineFeed_of_mem_decode
    {line : Text}
    {glyph : Glyph}
    (oneLine : Text.newlines line = 0)
    (member : glyph ∈ decode line) :
    glyph.is '\n' = false := by
  have read : ∀ inside ∈ decode line, inside.IsRead := fun _ =>
    isRead_of_mem_decode
  have none := newlines_bytes read
  rw [bytes_decode, oneLine, eq_comm, List.countP_eq_zero] at none
  simpa using none glyph member

end Glyph

namespace Segment

/-- Two slashes and the rest of their line are one comment. -/
theorem split_slashes
    {line : Text}
    (oneLine : Text.newlines line = 0) :
    split (Text.utf8 "//" ++ line) =
      [.comment (Glyph.decode (Text.utf8 "//" ++ line))] := by
  have whole :
      (Glyph.decode line).takeWhile (!·.is '\n') = Glyph.decode line := by
    refine List.takeWhile_eq_self_iff.mpr fun glyph member => ?_
    simpa using Glyph.not_lineFeed_of_mem_decode oneLine member
  have atFront :
      front (.ofByte (Text.byte '/'))
          (.ofByte (Text.byte '/') :: Glyph.decode line) =
        .comment (.ofByte (Text.byte '/') :: .ofByte (Text.byte '/') ::
          (Glyph.decode line).takeWhile (!·.is '\n')) :=
    rfl
  rw [split, Glyph.decode_slashes, splitAfter, atFront, whole,
    splitAfter_eq_drop]
  simp [glyphs, splitAfter]

/-- Two slashes in front of a text make a comment of its first line. -/
theorem split_slashes_append
    {line rest : Text}
    (oneLine : Text.newlines line = 0)
    (stops : rest = [] ∨ ∃ more, rest = Text.newline :: more) :
    split (Text.utf8 "//" ++ line ++ rest) =
      .comment (Glyph.decode (Text.utf8 "//" ++ line)) :: split rest := by
  rcases stops with rfl | ⟨more, rfl⟩
  · rw [List.append_nil, split_slashes oneLine]
    rfl
  · have closed :
        ∀ segment ∈ split (Text.utf8 "//" ++ line), segment.IsClosed := by
      rw [split_slashes oneLine]
      exact List.forall_mem_singleton.mpr trivial
    have nothing : ∀ segment ∈ split [], segment.IsClosed :=
      List.forall_mem_nil _
    have alone : split (Text.newline :: more) = .blank .lineFeed :: split more :=
      split_join nothing more
    rw [split_join closed, split_slashes oneLine, alone]
    rfl

end Segment

section Behind

variable {content script : Text} {firstLine segments : List Segment}
  {earlier : Nat}

/-- What a script file has in front of the script: nothing, or one line that is
no lexeme and no problem. -/
structure IsFirstLine
    (firstLine : List Segment)
    (content script : Text) :
    Prop where
  whole : content = firstLine.flatMap Segment.bytes ++ script
  oneLine : Text.newlines (firstLine.flatMap Segment.bytes) = 0
  isComment : ∀ segment ∈ firstLine, ∃ glyphs, segment = .comment glyphs

/-- Nothing is in front of the script when the whole file is the script. -/
theorem isFirstLine_nothing (content : Text) :
    IsFirstLine [] content content where
  whole := rfl
  oneLine := rfl
  isComment := List.forall_mem_nil _

theorem isFirstLine_comment
    {line : Text}
    (oneLine : Text.newlines line = 0)
    (script : Text) :
    IsFirstLine [.comment (Glyph.decode line)] (line ++ script) script := by
  have bytes :
      [Segment.comment (Glyph.decode line)].flatMap Segment.bytes = line := by
    simpa [Segment.bytes, Segment.glyphs] using Glyph.bytes_decode line
  exact ⟨by rw [bytes], by rw [bytes, oneLine],
    List.forall_mem_singleton.mpr ⟨_, rfl⟩⟩

namespace IsFirstLine

variable (isFirst : IsFirstLine firstLine content script)

include isFirst

/-- The file has as many lines up to some place as the script has up to there. -/
theorem newlines_append (text : Text) :
    Text.newlines (firstLine.flatMap Segment.bytes ++ text) =
      Text.newlines text := by
  have oneLine := isFirst.oneLine
  simp only [Text.newlines, List.count_append] at oneLine ⊢
  rw [oneLine, Nat.zero_add]

/-- A comment is not among what is counted. -/
theorem countP_append
    {counted : Segment → Bool}
    (notCounted : ∀ glyphs, counted (.comment glyphs) = false)
    (before : List Segment) :
    (firstLine ++ before).countP counted = before.countP counted := by
  have none : firstLine.countP counted = 0 := by
    refine List.countP_eq_zero.mpr fun segment member => ?_
    obtain ⟨glyphs, rfl⟩ := isFirst.isComment segment member
    rw [notCounted]
    exact Bool.false_ne_true
  rw [List.countP_append, none, Nat.zero_add]

/-- A token of the script is one of the file, on the same line. -/
theorem token
    {token : Token}
    (counted : token.IsCounted script segments earlier) :
    token.IsCounted content (firstLine ++ segments) earlier := by
  obtain ⟨before, kind, literal, glyphs, after, parts, count, split, isKind,
    isLiteral, isLexeme, line⟩ := counted
  refine ⟨firstLine ++ before, kind, literal, glyphs, after, ?_, ?_, ?_, isKind,
    isLiteral, isLexeme, ?_⟩
  · rw [parts, List.append_assoc]
  · rw [isFirst.countP_append fun _ => rfl, count]
  · rw [isFirst.whole, split, List.flatMap_append]
    simp only [List.append_assoc]
  · rw [List.flatMap_append, List.append_assoc, isFirst.newlines_append, line]

/-- A problem of the script is one of the file, on the same line. -/
theorem problem
    {problem : Diagnostic}
    (counted : problem.IsCounted script segments earlier) :
    problem.IsCounted content (firstLine ++ segments) earlier := by
  obtain ⟨before, segment, after, parts, count, shape⟩ := counted
  refine ⟨firstLine ++ before, segment, after, ?_, ?_, ?_⟩
  · rw [parts, List.append_assoc]
  · rw [isFirst.countP_append fun _ => rfl, count]
  · rcases shape with ⟨glyph, isStray, split, rfl⟩ | ⟨glyphs, isOpen, rfl⟩
    · refine .inl ⟨glyph, isStray, ?_, ?_⟩
      · rw [isFirst.whole, split, List.flatMap_append]
        simp only [List.append_assoc]
      · rw [List.flatMap_append, isFirst.newlines_append]
    · refine .inr ⟨glyphs, isOpen, ?_⟩
      rw [isFirst.whole, isFirst.newlines_append]

end IsFirstLine

end Behind

namespace Text

/-- Without a first line that names the interpreter a script is the whole file;
otherwise it is what comes from the first line feed on. -/
theorem withoutInterpreterLine_cases (content : Text) :
    (¬ utf8 "#!" <+: content ∧ content.withoutInterpreterLine = content) ∨
      utf8 "#!" <+: content ∧
        ∃ line,
          content = line ++ content.withoutInterpreterLine ∧
            newlines line = 0 ∧
            (content.withoutInterpreterLine = [] ∨
              ∃ more, content.withoutInterpreterLine = newline :: more) := by
  unfold withoutInterpreterLine
  by_cases named : utf8 "#!" <+: content
  · obtain ⟨line, rest, whole, dropped, oneLine, stops⟩ :=
      firstLine_append content
    rw [if_pos (List.isPrefixOf_iff_prefix.mpr named), ← dropped]
    exact .inr ⟨named, line, whole, oneLine, stops⟩
  · rw [if_neg (mt List.isPrefixOf_iff_prefix.mp named)]
    exact .inl ⟨named, rfl⟩

end Text

namespace Scan

/-- A comment in front of a text is neither a token nor a problem. -/
theorem ofSource_slashes_append
    {line rest : Text}
    (oneLine : Text.newlines line = 0)
    (stops : rest = [] ∨ ∃ more, rest = Text.newline :: more) :
    ofSource (Text.utf8 "//" ++ line ++ rest) = ofSource rest := by
  have noLineFeed :
      Segment.newlines (.comment (Glyph.decode (Text.utf8 "//" ++ line))) = 0 := by
    refine List.countP_eq_zero.mpr fun glyph member => ?_
    have oneLine : Text.newlines (Text.utf8 "//" ++ line) = 0 := by
      rw [Text.newlines, List.count_append, ← Text.newlines, ← Text.newlines,
        oneLine]
      rfl
    simpa using Glyph.not_lineFeed_of_mem_decode oneLine member
  rw [ofSource, Segment.split_slashes_append oneLine stops, ofSegments,
    noLineFeed]
  rfl

end Scan

/-- What is read from a script file that begins with a line for the interpreter is
scanned as the file with that line made a comment; any other file is read as it
is.  Every line that scanning tells is the line in the file. -/
theorem FileTree.readScript_scans
    {tree : FileTree}
    {path content : Text}
    (holds : tree.read path = .ok content) :
    ∃ script,
      tree.readScript path = .ok script ∧
        (Text.utf8 "#!" <+: content →
          Scan.ofSource script = Scan.ofSource (Text.utf8 "//" ++ content)) ∧
        (¬ Text.utf8 "#!" <+: content → script = content) ∧
        ∃ firstLine,
          IsFirstLine firstLine content script ∧
            (∀ (front back : List Token) (token : Token),
              (Scan.ofSource script).tokens = front ++ token :: back →
              back ≠ [] →
              token.IsCounted content (firstLine ++ Segment.split script)
                front.length) ∧
            (Scan.ofSource script).tokens.getLast? =
              some (.endAt (1 + Text.newlines content : Nat)) ∧
            ∀ (front back : List Diagnostic) (problem : Diagnostic),
              (Scan.ofSource script).problems = front ++ problem :: back →
              problem.IsCounted content (firstLine ++ Segment.split script)
                front.length := by
  refine ⟨content.withoutInterpreterLine, by rw [readScript, holds], ?_⟩
  obtain ⟨scans, unchanged, firstLine, isFirst⟩ :
      (Text.utf8 "#!" <+: content →
          Scan.ofSource content.withoutInterpreterLine =
            Scan.ofSource (Text.utf8 "//" ++ content)) ∧
        (¬ Text.utf8 "#!" <+: content →
          content.withoutInterpreterLine = content) ∧
        ∃ firstLine,
          IsFirstLine firstLine content content.withoutInterpreterLine := by
    rcases content.withoutInterpreterLine_cases with
      ⟨unnamed, same⟩ | ⟨named, line, whole, oneLine, stops⟩
    · refine ⟨fun named => (unnamed named).elim, fun _ => same, [], ?_⟩
      rw [same]
      exact isFirstLine_nothing content
    · refine ⟨fun _ => ?_, fun unnamed => (unnamed named).elim,
        [.comment (Glyph.decode line)], ?_⟩
      · nth_rewrite 2 [whole]
        rw [← List.append_assoc, Scan.ofSource_slashes_append oneLine stops]
      · nth_rewrite 1 [whole]
        exact isFirstLine_comment oneLine _
  refine ⟨scans, unchanged, firstLine, isFirst, ?_, ?_, ?_⟩
  · intro front back token split others
    exact isFirst.token (Scan.lexeme_isCounted split others)
  · rw [Scan.getLast?_tokens, ← isFirst.newlines_append, ← isFirst.whole]
  · intro front back problem split
    exact isFirst.problem (Scan.problem_isCounted split)

/-- A script with a quotation mark and the beginning of a character in the line
that names its interpreter, and a character that begins no lexeme below it. -/
def namedFile : Text :=
  Text.utf8 "#!\"" ++ [0xE2, 0x82] ++ Text.utf8 "\nprint $;"

/-- A script that begins with a comment and an open string. -/
def plainFile : Text :=
  Text.utf8 "// #!\n\""

/-- A folder with the two scripts. -/
def twoFiles : FileTree :=
  .ofPaths
    [(Text.utf8 "named", namedFile), (Text.utf8 "plain", plainFile)] []

theorem FileTree.readScript_scans_twoFiles :
    (twoFiles.read (Text.utf8 "named") = .ok namedFile ∧
        Text.utf8 "#!" <+: namedFile ∧
        ∃ script,
          twoFiles.readScript (Text.utf8 "named") = .ok script ∧
            Scan.ofSource script =
              Scan.ofSource (Text.utf8 "//" ++ namedFile) ∧
            ∃ firstLine, IsFirstLine firstLine namedFile script) ∧
      (twoFiles.read (Text.utf8 "plain") = .ok plainFile ∧
        ¬ Text.utf8 "#!" <+: plainFile ∧
        twoFiles.readScript (Text.utf8 "plain") = .ok plainFile) := by
  have readNamed : twoFiles.read (Text.utf8 "named") = .ok namedFile := rfl
  have readPlain : twoFiles.read (Text.utf8 "plain") = .ok plainFile := rfl
  have named : Text.utf8 "#!" <+: namedFile := by decide
  have unnamed : ¬ Text.utf8 "#!" <+: plainFile := by decide
  obtain ⟨script, isRead, scans, -, firstLine, isFirst, -⟩ :=
    readScript_scans readNamed
  obtain ⟨plain, plainRead, -, unchanged, -⟩ := readScript_scans readPlain
  rw [unchanged unnamed] at plainRead
  exact ⟨⟨readNamed, named, script, isRead, scans named, firstLine, isFirst⟩,
    readPlain, unnamed, plainRead⟩

end Script
