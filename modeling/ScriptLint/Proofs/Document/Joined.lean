import ScriptLint.Proofs.Document.Positions

/-!
# Joined lines

The lines of a document put together again are a text of their own, with line starts of its own. A
line stands in it at the line start of its number, and every byte but a line feed has as coordinates
the number of its line and its place there. So a part of the joined text stands, up to its first
line feed, in the scanned line that its coordinates name.
-/

namespace ScriptLint

open Text

section Pieces

variable {pieces : List (List Char)} {piece : List Char} {index : Nat}

/-- A piece of a joined text stands behind complete lines, as many as its number. -/
theorem exists_joinWith_eq (absent : ∀ piece ∈ pieces, '\n' ∉ piece)
    (found : pieces[index]? = some piece) :
    ∃ initial, joinWith '\n' pieces =
        initial ++ piece ++ (pieces.drop (index + 1)).flatMap ('\n' :: ·) ∧
      EndsLine initial ∧ initial.count '\n' = index := by
  obtain ⟨below, same⟩ := List.getElem?_eq_some_iff.mp found
  have shape : pieces = pieces.take index ++ piece :: pieces.drop (index + 1) := by
    rw [← same, ← List.drop_eq_getElem_cons below, List.take_append_drop]
  have counted : ((pieces.take index).flatMap (· ++ ['\n'])).count '\n' = index := by
    rw [count_flatMap fun line member => absent line (List.mem_of_mem_take member),
      List.length_take_of_le (by omega)]
  refine ⟨(pieces.take index).flatMap (· ++ ['\n']), ?_, endsLine_flatMap _, counted⟩
  rw [← joinWith_append_cons, ← shape]

/-- A byte between two others is one of the text between. -/
theorem getElem?_utf8_between (initial after : List Char) {column : Nat}
    (inside : column < byteLength piece) :
    (utf8 (initial ++ piece ++ after))[byteLength initial + column]? = (utf8 piece)[column]? := by
  have within : column < (utf8 piece).length := by rwa [length_utf8]
  rw [List.append_assoc, utf8_append, utf8_append,
    List.getElem?_append_right (by rw [length_utf8]; omega), length_utf8, Nat.add_sub_cancel_left,
    List.getElem?_append_left within]

/-- A byte that follows a piece with others behind it is a line feed. -/
theorem getElem?_utf8_feed (front : List Char) {later : List (List Char)} (goesOn : later ≠ []) :
    (utf8 (front ++ later.flatMap ('\n' :: ·)))[byteLength front]? = some 0x0A := by
  obtain ⟨next, others, rfl⟩ := List.exists_cons_of_ne_nil goesOn
  rw [utf8_append, List.getElem?_append_right (by rw [length_utf8]), length_utf8, Nat.sub_self]
  rfl

end Pieces

namespace Document

variable {document : Document} {index : Nat}

theorem exists_joined_eq (below : index < document.lineCount) :
    ∃ initial, document.joined =
        initial ++ document.line index ++ (document.lines.drop (index + 1)).flatMap ('\n' :: ·) ∧
      EndsLine initial ∧ initial.count '\n' = index :=
  exists_joinWith_eq (fun _ => not_mem_of_mem_lines) (getElem?_lines below)

theorem length_lineStarts_joined (nonempty : document.lines ≠ []) :
    (lineStarts document.joined).length = document.lineCount := by
  rw [length_lineStarts, ← length_splitOn, splitOn_joined nonempty, lineCount]

theorem lines_ne_nil_of_joined_ne_nil (someText : document.joined ≠ []) :
    document.lines ≠ [] := by
  intro noLines
  rw [joined, noLines] at someText
  exact someText rfl

theorem line_absent (below : index < document.lineCount) : '\n' ∉ document.line index :=
  not_mem_of_mem_lines (List.mem_of_getElem? (getElem?_lines below))

/-- A line stands at its line start, and the next line starts one byte behind its end. -/
theorem exists_lineStart_joined (below : index < document.lineCount) :
    ∃ initial, document.joined =
        initial ++ document.line index ++ (document.lines.drop (index + 1)).flatMap ('\n' :: ·) ∧
      (lineStarts document.joined)[index]? = some (byteLength initial) ∧
      (document.lines.drop (index + 1) ≠ [] → (lineStarts document.joined)[index + 1]? =
        some (byteLength initial + byteLength (document.line index) + 1)) := by
  obtain ⟨initial, joinedEq, ends, counted⟩ := exists_joined_eq below
  have startsEq := lineStarts_append initial (line_absent below)
    ((document.lines.drop (index + 1)).flatMap ('\n' :: ·))
  rw [← joinedEq] at startsEq
  have lengthEq := length_lineStarts initial
  rw [counted] at lengthEq
  refine ⟨initial, joinedEq, ?_, fun goesOn => ?_⟩
  · rw [startsEq, List.getElem?_append_left (by omega), ← counted]
    exact ends.getElem?_lineStarts
  · obtain ⟨next, others, laterEq⟩ := List.exists_cons_of_ne_nil goesOn
    rw [startsEq, List.getElem?_append_right (by omega), lengthEq, Nat.sub_self, laterEq]
    rfl

/-- A byte of the joined text that is no line feed is a byte of a line. -/
theorem getElem?_utf8_line {offset : Nat} {byte : UInt8}
    (found : (utf8 document.joined)[offset]? = some byte) (noFeed : byte ≠ 0x0A) :
    let place := lineColumn (lineStarts document.joined) offset
    place.1 < document.lineCount ∧ (utf8 (document.line place.1))[place.2]? = some byte := by
  intro place
  have someText : document.joined ≠ [] := by
    intro empty
    rw [empty] at found
    cases found
  have nonempty := lines_ne_nil_of_joined_ne_nil someText
  obtain ⟨start, startFound, reached⟩ := exists_getElem?_lineColumn document.joined offset
  have below : place.1 < document.lineCount := by
    rw [← length_lineStarts_joined nonempty]
    exact (List.getElem?_eq_some_iff.mp startFound).1
  obtain ⟨initial, joinedEq, ownStart, nextStart⟩ := exists_lineStart_joined below
  have startEq : start = byteLength initial := by
    rw [ownStart] at startFound
    exact (Option.some.inj startFound).symm
  have columnEq : place.2 = offset - byteLength initial := by
    have difference : place.2 = offset - (lineStarts document.joined).getD place.1 0 := rfl
    rw [difference, List.getD_eq_getElem?_getD, ownStart, Option.getD_some]
  have offsetEq : offset = byteLength initial + place.2 := by omega
  have inside : place.2 < byteLength (document.line place.1) := by
    by_cases last : document.lines.drop (place.1 + 1) = []
    · rw [last, List.flatMap_nil, List.append_nil] at joinedEq
      have within := (List.getElem?_eq_some_iff.mp found).1
      rw [length_utf8, joinedEq, byteLength_append] at within
      omega
    · have beforeNext := lt_of_getElem?_lineColumn (nextStart last)
      by_contra atEnd
      have isFeed := getElem?_utf8_feed (initial ++ document.line place.1) last
      rw [← joinedEq, byteLength_append, show byteLength initial +
        byteLength (document.line place.1) = offset by omega, found] at isFeed
      exact noFeed (Option.some.inj isFeed)
  refine ⟨below, ?_⟩
  rw [← found, joinedEq, offsetEq]
  exact (getElem?_utf8_between initial _ inside).symm

/-- The joined text ends at the end of the last line. -/
theorem lineColumn_byteLength_joined (document : Document) :
    lineColumn (lineStarts document.joined) (byteLength document.joined) =
      (document.lineCount - 1, byteLength (document.line (document.lineCount - 1))) := by
  by_cases empty : document.lines = []
  · simp [joined, lineCount, line, empty, joinWith, lineStarts, startsAfter, lineColumn]
  · have below : document.lineCount - 1 < document.lineCount :=
      Nat.sub_lt (List.length_pos_iff.mpr empty) Nat.one_pos
    obtain ⟨initial, joinedEq, ends, counted⟩ := exists_joined_eq below
    have noLater : document.lines.drop (document.lineCount - 1 + 1) = [] :=
      List.drop_eq_nil_of_le (by rw [lineCount]; omega)
    have coordinates := ends.lineColumn_append (line_absent below) []
    rw [noLater, List.flatMap_nil] at joinedEq
    rw [← joinedEq, counted] at coordinates
    rw [← coordinates, joinedEq, byteLength_append, byteLength_append, byteLength_nil, Nat.add_zero]

/-- A line is the part of the joined text behind its line start. -/
theorem line_isIn_joined {start : Nat}
    (found : (lineStarts document.joined)[index]? = some start) :
    (⟨start, start + byteLength (document.line index), document.line index⟩ : Span).IsIn
      document.joined := by
  have inStarts := (List.getElem?_eq_some_iff.mp found).1
  by_cases empty : document.lines = []
  · have noText : document.joined = [] := by rw [joined, empty]; rfl
    have noLine : document.line index = [] := by rw [line, empty]; rfl
    rw [noText] at found inStarts
    have first : index = 0 := Nat.lt_one_iff.mp inStarts
    rw [first] at found
    rw [noLine, noText, ← Option.some.inj found]
    exact ⟨[], [], rfl, rfl, rfl⟩
  · rw [length_lineStarts_joined empty] at inStarts
    obtain ⟨initial, joinedEq, ownStart, _⟩ := exists_lineStart_joined inStarts
    rw [ownStart] at found
    exact ⟨initial, _, joinedEq, (Option.some.inj found).symm, rfl⟩

/-- A part of the joined text that begins with no line feed begins in a scanned line. -/
theorem exists_scan_of_isIn_joined {span : Span} (inText : span.IsIn document.joined)
    (begins : ∃ letter rest, span.letters = letter :: rest ∧ letter ≠ '\n') :
    let place := lineColumn (lineStarts document.joined) span.start
    let first := span.letters.takeWhile (· != '\n')
    ∃ line, document.scan[place.1]? = some line ∧ line.text = document.line place.1 ∧
      first ≠ [] ∧ (⟨place.2, place.2 + byteLength first, first⟩ : Span).IsIn line.text := by
  intro place first
  obtain ⟨before, after, joinedEq, startEq, _⟩ := inText
  obtain ⟨letter, rest, lettersEq, noFeed⟩ := begins
  obtain ⟨initial, current, beforeEq, ends, absent⟩ := exists_endsLine_append before
  have someText : document.joined ≠ [] := by
    rw [joinedEq, lettersEq]
    simp
  have nonempty := lines_ne_nil_of_joined_ne_nil someText
  rw [beforeEq, List.append_assoc] at joinedEq
  rw [beforeEq, byteLength_append] at startEq
  have placeEq : place = (initial.count '\n', byteLength current) := by
    have coordinates := ends.lineColumn_append absent (span.letters ++ after)
    rwa [← joinedEq, ← startEq] at coordinates
  have isLine := ends.getElem?_splitOn_append absent (span.letters ++ after)
  rw [← joinedEq, splitOn_joined nonempty] at isLine
  obtain ⟨line, scanFound, textEq⟩ : ∃ line, document.scan[initial.count '\n']? = some line ∧
      line.text = current ++ (span.letters ++ after).takeWhile (· != '\n') := by
    rw [← map_text_scan, List.getElem?_map, Option.map_eq_some_iff] at isLine
    exact isLine
  obtain ⟨behind, beginsWithFirst⟩ : first <+: (span.letters ++ after).takeWhile (· != '\n') := by
    rw [List.takeWhile_append]
    split
    · exact (List.takeWhile_prefix _).trans (List.prefix_append _ _)
    · exact List.prefix_rfl
  have someFirst : first ≠ [] := by
    have passes : (letter != '\n') = true := bne_iff_ne.mpr noFeed
    simp only [first, lettersEq]
    rw [List.takeWhile_cons_of_pos (p := fun letter => letter != '\n') passes]
    exact List.cons_ne_nil _ _
  rw [placeEq]
  refine ⟨line, scanFound, ?_, someFirst, current, behind, ?_, rfl, rfl⟩
  · rw [(line_eq_of_getElem? isLine).2, textEq]
  · rw [textEq, ← beginsWithFirst, List.append_assoc]

end Document

end ScriptLint
