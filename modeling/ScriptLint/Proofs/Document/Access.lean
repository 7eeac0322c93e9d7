import ScriptLint.Outline.Basic
import ScriptLint.Rule.FunctionEmptyLine
import ScriptLint.Rule.NoConsole
import ScriptLint.Rule.NoTrailingWhitespace
import ScriptLint.Rule.Semicolons
import ScriptLint.Proofs.Comment
import ScriptLint.Proofs.Document.Lines
import ScriptLint.Proofs.Text.Matches

/-!
# Access within bounds

The rules cut lines out of the text, cut lines and their code at positions found by searching, look
up line starts and groups of matches, and subtract positions from one another. A structure collects
what makes each of these accesses succeed: cuts are at boundaries and in order, what is looked up is
there, and what is subtracted is not the greater number.
-/

namespace ScriptLint

open Text Text.Pattern

/-- The patterns whose first group is read without asking whether it was recorded. -/
def namedPatterns : List Pattern :=
  [ClassHeader.pattern, Declaration.methodPattern, Declaration.propertyPattern,
    Declaration.instancePattern, NoConsole.consoleCall, FunctionEmptyLine.methodHead]

/-- No access to the document, its lines or their code is out of range, between the bytes of a
character, or a subtraction below zero. -/
structure Document.StaysInBounds (document : Document) : Prop where
  /-- A line is the range from its line start to the byte before the next one, or to the end. -/
  line_range : ∀ index < document.lineCount, ∃ span : Span, span.IsIn document.text ∧
    (lineStarts document.text)[index]? = some span.start ∧
    ((lineStarts document.text)[index + 1]? = some (span.stop + 1) ∨
      (lineStarts document.text)[index + 1]? = none ∧ span.stop = document.size) ∧
    document.line index = dropReturn span.letters
  /-- The line of a position has a start, and its column is a difference from that start. -/
  coordinates : ∀ letters ∈ [document.text, document.joined], ∀ position, ∃ start,
    (lineStarts letters)[(lineColumn (lineStarts letters) position).1]? = some start ∧
      start ≤ position
  /-- A statement before a brace is cut one byte behind the mark that ends the last one. -/
  segment : ∀ before mark after, Brace.endsSegment mark →
    IsBoundary (before ++ mark :: after) (byteLength before + 1)
  /-- A comment marker is cut out at its position and two bytes behind it. -/
  marker : ∀ line ∈ document.lines,
    ∀ marker ∈ [Comment.lineMarker, Comment.blockOpening, Comment.blockClosing],
    ∀ inside, inside <:+ line → ∀ before after, cutAt? marker inside = some (before, after) →
      (⟨byteLength before, byteLength before + 2, marker⟩ : Span).IsIn inside
  /-- What follows the name of a variable is cut off the code at the end of the name. -/
  initializer : ∀ line ∈ document.scan,
    ∀ found ∈ Declaration.variablePattern.searchAll line.code, ∀ span,
      found.group? 1 = some span → IsBoundary line.code span.stop
  /-- Every match of a pattern with a name records the name. -/
  named : ∀ pattern ∈ namedPatterns, ∀ code found, IsMatch pattern code found →
    (found.group? 1).isSome
  /-- A semicolon at the end of the code takes one byte of it. -/
  semicolon : ∀ line ∈ document.scan, endsIn ";" (trimEnd line.code) →
    1 ≤ byteLength (trimEnd line.code)
  /-- The frames that a line closes are cut off a stack of more frames than it leaves open. -/
  closed : ∀ line ∈ document.scan, Semicolons.closesExpression line →
    line.startTop?.any Frame.isExpression → line.endStack.length < line.startStack.length
  /-- What is kept of a line is not longer than the line. -/
  content : ∀ line ∈ document.lines,
    byteLength (NoTrailingWhitespace.content line) ≤ byteLength line
  /-- The white space at the start of a line is what trimming the start takes from its size. -/
  indentation : ∀ line ∈ document.lines, byteLength (trimStart line) ≤ byteLength line ∧
    (⟨0, byteLength line - byteLength (trimStart line), line.takeWhile isSpace⟩ : Span).IsIn line

theorem isSome_group?_of_mem_namedPatterns {pattern : Pattern} (member : pattern ∈ namedPatterns)
    {code : List Char} {found : Match} (isMatch : IsMatch pattern code found) :
    (found.group? 1).isSome := by
  apply isMatch.isSome_group?
  simp only [namedPatterns, List.mem_cons, List.not_mem_nil, or_false] at member
  rcases member with rfl | rfl | rfl | rfl | rfl | rfl
  · simp [ClassHeader.pattern, Records]
  · simp [Declaration.methodPattern, Records]
  · simp [Declaration.propertyPattern, Records]
  · simp [Declaration.instancePattern, Records]
  · simp [NoConsole.consoleCall, Records]
  · simp [FunctionEmptyLine.methodHead, Records]

theorem utf8Size_of_endsSegment {mark : Char} (ends : Brace.endsSegment mark = true) :
    mark.utf8Size = 1 := by
  simp only [Brace.endsSegment, Bool.or_eq_true, beq_iff_eq] at ends
  rcases ends with (rfl | rfl) | rfl
  · rfl
  · rfl
  · rfl

namespace Document

theorem exists_line_range (document : Document) {index : Nat}
    (below : index < document.lineCount) :
    ∃ span : Span, span.IsIn document.text ∧
      (lineStarts document.text)[index]? = some span.start ∧
      ((lineStarts document.text)[index + 1]? = some (span.stop + 1) ∨
        (lineStarts document.text)[index + 1]? = none ∧ span.stop = document.size) ∧
      document.line index = dropReturn span.letters := by
  have found : document.lines[index]? = some (document.line index) := by
    rw [Document.line, List.getD_eq_getElem _ _ below]
    exact List.getElem?_eq_getElem below
  have someText : document.text ≠ [] := by
    intro empty
    rw [lineCount, lines, if_pos (List.isEmpty_iff.mpr empty)] at below
    exact absurd below (Nat.not_lt_zero index)
  rw [lines_eq_map someText, List.getElem?_map] at found
  obtain ⟨piece, pieceFound, lineEq⟩ := Option.map_eq_some_iff.mp found
  obtain ⟨before, after, textEq, startFound, stopFound⟩ := exists_lineRange pieceFound
  refine ⟨⟨byteLength before, byteLength before + byteLength piece, piece⟩,
    ⟨before, after, textEq, rfl, rfl⟩, startFound, ?_, lineEq.symm⟩
  rcases stopFound with next | ⟨last, afterEq⟩
  · exact Or.inl next
  · right
    refine ⟨last, ?_⟩
    rw [size, textEq, afterEq, List.append_nil, byteLength_append]

theorem staysInBounds (document : Document) : document.StaysInBounds where
  line_range _ below := document.exists_line_range below
  coordinates letters _ position := exists_getElem?_lineColumn letters position
  segment before mark after ends := by
    refine ⟨before ++ [mark], after, by rw [List.append_assoc]; rfl, ?_⟩
    rw [byteLength_append, byteLength_cons, byteLength_nil, utf8Size_of_endsSegment ends]
  marker line _ marker isMarker inside _ before after cut := by
    have twoBytes : byteLength marker = 2 := by
      simp only [List.mem_cons, List.not_mem_nil, or_false] at isMarker
      rcases isMarker with rfl | rfl | rfl
      · rfl
      · rfl
      · rfl
    exact ⟨before, after, cutAt?_eq_some cut, rfl, by rw [twoBytes]⟩
  initializer line _ found member span recorded :=
    ((isMatch_of_mem_searchAll member).group_isIn recorded).isBoundary_stop
  named pattern member code found isMatch := isSome_group?_of_mem_namedPatterns member isMatch
  semicolon line _ ends := by
    obtain ⟨before, codeEq⟩ := List.isSuffixOf_iff_suffix.mp ends
    have sizeEq := congrArg byteLength codeEq
    rw [byteLength_append, show byteLength ";".toList = 1 from rfl] at sizeEq
    omega
  closed line _ closes inside := by
    simp only [Semicolons.closesExpression, inside, if_true, Bool.and_eq_true,
      decide_eq_true_eq] at closes
    exact closes.1.2
  content line _ := by
    have whole := congrArg byteLength (dropEndWhile_append_rtakeWhile
      (fun letter => letter == ' ' || letter == '\t') line)
    rw [byteLength_append, ← NoTrailingWhitespace.content] at whole
    omega
  indentation line _ := by
    have whole := takeWhile_append_trimStart line
    have sizes := congrArg byteLength whole
    rw [byteLength_append] at sizes
    refine ⟨by omega, [], trimStart line, ?_, rfl, ?_⟩
    · rw [List.nil_append]
      exact whole.symm
    · rw [Nat.zero_add]
      exact Nat.sub_eq_of_eq_add sizes.symm

end Document

end ScriptLint
