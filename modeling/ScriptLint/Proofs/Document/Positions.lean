import ScriptLint.Proofs.Document.Access
import Mathlib.Data.Prod.Lex

/-!
# Positions and offsets

A line and a column are determined by a byte position, and the byte position by them. The line of a
position is the only one whose start is not behind the position while the next start is. The line
starts ascend, so this fixes line and column, and the number of the line is the number of line feeds
in front of the position.

Behind complete lines and the beginning of a further one a document counts the lines and the
characters of the beginning. So the positions of a document ascend with the boundaries of its text,
in the order of lines and then of columns.
-/

namespace ScriptLint

open Text

/-! ## Line starts -/

theorem pairwise_startsAfter (position : Nat) (letters : List Char) :
    (startsAfter position letters).Pairwise (· < ·) := by
  induction letters generalizing position with
  | nil => exact .nil
  | cons letter rest inductionHypothesis =>
      rw [startsAfter]
      split
      · refine .cons (fun start member => ?_) (inductionHypothesis _)
        exact (lt_of_mem_startsAfter member).1
      · exact inductionHypothesis _

/-- The line starts of a text ascend. -/
theorem pairwise_lineStarts (letters : List Char) : (lineStarts letters).Pairwise (· < ·) :=
  .cons (fun _ member => (lt_of_mem_startsAfter member).1) (pairwise_startsAfter 0 letters)

theorem takeWhile_startsAfter_eq_nil {position bound : Nat} (beyond : bound ≤ position)
    (letters : List Char) : (startsAfter position letters).takeWhile (· ≤ bound) = [] := by
  cases starts : startsAfter position letters with
  | nil => rfl
  | cons start others =>
      have bounds := lt_of_mem_startsAfter (starts ▸ List.mem_cons_self (a := start))
      apply List.takeWhile_cons_of_neg
      rw [decide_eq_true_eq]
      omega

/-- The line starts up to a position are as many as the line feeds in front of it. -/
theorem length_takeWhile_startsAfter (position offset : Nat) (letters : List Char) :
    ((startsAfter position letters).takeWhile (· ≤ position + offset)).length =
      (takeBytes offset letters).count '\n' := by
  induction letters generalizing position offset with
  | nil => rfl
  | cons letter rest inductionHypothesis =>
      have sizePositive := letter.utf8Size_pos
      by_cases atStart : offset = 0
      · rw [takeBytes, if_pos atStart, takeWhile_startsAfter_eq_nil (by omega)]
        rfl
      have later : ((startsAfter (position + letter.utf8Size) rest).takeWhile
          (· ≤ position + offset)).length =
            (takeBytes (offset - letter.utf8Size) rest).count '\n' := by
        by_cases passed : letter.utf8Size ≤ offset
        · rw [← inductionHypothesis (position + letter.utf8Size),
            show position + letter.utf8Size + (offset - letter.utf8Size) = position + offset by
              omega]
        · rw [takeWhile_startsAfter_eq_nil (by omega), show offset - letter.utf8Size = 0 by omega]
          cases rest with
          | nil => rfl
          | cons next others => rfl
      rw [takeBytes, if_neg atStart, List.count_cons, ← later]
      by_cases feed : (letter == '\n') = true
      · have feedSize : letter.utf8Size = 1 := by
          rw [beq_iff_eq.mp feed]
          rfl
        have reached : decide (position + letter.utf8Size ≤ position + offset) = true := by
          rw [decide_eq_true_eq]
          omega
        simp only [startsAfter, feed, if_true, List.takeWhile, reached, List.length_cons]
      · simp only [startsAfter, if_neg feed, Nat.add_zero]

/-! ## Lines and columns -/

/-- A position belongs to the line whose start is not behind it while the next start is. -/
theorem lineColumn_eq_of_getElem? {starts : List Nat} (ascending : starts.Pairwise (· < ·))
    {line start offset : Nat} (found : starts[line]? = some start) (reached : start ≤ offset)
    (last : ∀ next, starts[line + 1]? = some next → offset < next) :
    lineColumn starts offset = (line, offset - start) := by
  obtain ⟨below, startEq⟩ := List.getElem?_eq_some_iff.mp found
  have earlier : ∀ other ∈ starts.take (line + 1), decide (other ≤ offset) = true := by
    intro other member
    obtain ⟨index, indexBelow, rfl⟩ := List.mem_iff_getElem.mp member
    rw [List.length_take] at indexBelow
    rw [List.getElem_take, decide_eq_true_eq]
    rcases Nat.lt_or_eq_of_le (show index ≤ line by omega) with before | rfl
    · have less := List.pairwise_iff_getElem.mp ascending index line (by omega) below before
      omega
    · omega
  have later : (starts.drop (line + 1)).takeWhile (· ≤ offset) = [] := by
    cases rest : starts.drop (line + 1) with
    | nil => rfl
    | cons next others =>
        have isNext : starts[line + 1]? = some next := by
          rw [← List.head?_drop, rest, List.head?_cons]
        have beyond := last next isNext
        apply List.takeWhile_cons_of_neg
        rw [decide_eq_true_eq]
        omega
  have passed : starts.takeWhile (· ≤ offset) = starts.take (line + 1) := by
    calc starts.takeWhile (· ≤ offset)
        = (starts.take (line + 1) ++ starts.drop (line + 1)).takeWhile (· ≤ offset) := by
          rw [List.take_append_drop]
      _ = starts.take (line + 1) := by
          rw [List.takeWhile_append_of_pos earlier, later, List.append_nil]
  have lengthEq : (starts.take (line + 1)).length = line + 1 :=
    List.length_take_of_le (by omega)
  simp only [lineColumn, passed, lengthEq, Nat.add_sub_cancel, List.getD_eq_getElem?_getD, found,
    Option.getD_some]

/-- The line of a position is the number of line feeds in front of it. -/
theorem lineColumn_fst (letters : List Char) (offset : Nat) :
    (lineColumn (lineStarts letters) offset).1 = (takeBytes offset letters).count '\n' := by
  have counted := length_takeWhile_startsAfter 0 offset letters
  rw [Nat.zero_add] at counted
  have reached : (lineStarts letters).takeWhile (· ≤ offset) =
      0 :: (startsAfter 0 letters).takeWhile (· ≤ offset) :=
    List.takeWhile_cons_of_pos (decide_eq_true (Nat.zero_le offset))
  rw [lineColumn, reached, List.length_cons, Nat.add_sub_cancel, counted]

theorem lt_of_getElem?_lineColumn {letters : List Char} {offset next : Nat}
    (found : (lineStarts letters)[(lineColumn (lineStarts letters) offset).1 + 1]? = some next) :
    offset < next := by
  have nonempty : 0 < ((lineStarts letters).takeWhile (· ≤ offset)).length := Nat.succ_pos _
  have lineEq : (lineColumn (lineStarts letters) offset).1 + 1 =
      ((lineStarts letters).takeWhile (· ≤ offset)).length := Nat.sub_add_cancel nonempty
  have behind : ((lineStarts letters).dropWhile (· ≤ offset)).head? = some next := by
    rw [← found, lineEq]
    nth_rewrite 2 [← List.takeWhile_append_dropWhile (p := fun start => decide (start ≤ offset))
      (l := lineStarts letters)]
    rw [List.getElem?_append_right (Nat.le_refl _), Nat.sub_self, List.head?_eq_getElem?]
  have refused := List.head?_dropWhile_not (fun start => decide (start ≤ offset))
    (lineStarts letters)
  rw [behind] at refused
  simpa using refused

/-! ## Positions -/

namespace Document

variable {document : Document} {initial current before after : List Char} {index : Nat}

/-- The position of a boundary on a line is counted in characters from the start of the line. -/
theorem position_of_lineColumn (textEq : document.text = before ++ current ++ after)
    (found : (lineStarts document.text)[index]? = some (byteLength before))
    (coordinates : lineColumn (lineStarts document.text)
      (byteLength before + byteLength current) = (index, byteLength current)) :
    document.position (byteLength before + byteLength current) = (index, current.length) := by
  have within : byteLength before + byteLength current ≤ document.size := by
    rw [size, textEq, byteLength_append, byteLength_append]
    omega
  have startCut : splitAtByte? document.text (byteLength before) =
      some (before, current ++ after) :=
    splitAtByte?_eq_some_iff.mpr ⟨by rw [textEq, List.append_assoc], rfl⟩
  have columnCut : splitAtByte? (current ++ after) (byteLength current) = some (current, after) :=
    splitAtByte?_eq_some_iff.mpr ⟨rfl, rfl⟩
  simp only [position, Nat.min_eq_left within, coordinates, List.getD_eq_getElem?_getD, found,
    Option.getD_some, startCut, columnCut, Option.map_some]

/-- Behind complete lines and the beginning of a further one. -/
theorem position_append (ends : EndsLine initial) (absent : '\n' ∉ current)
    (textEq : document.text = initial ++ current ++ after) :
    document.position (byteLength initial + byteLength current) =
      (initial.count '\n', current.length) := by
  have startFound : (lineStarts document.text)[initial.count '\n']? =
      some (byteLength initial) := by
    rw [textEq, lineStarts_append initial absent, List.getElem?_append_left
      (by rw [length_lineStarts]; exact Nat.lt_succ_self _)]
    exact ends.getElem?_lineStarts
  exact position_of_lineColumn textEq startFound (textEq ▸ ends.lineColumn_append absent after)

/-- A boundary further on has a position further on. -/
theorem position_lt {offset stop : Nat} (boundary : IsBoundary document.text offset)
    (stopBoundary : IsBoundary document.text stop) (less : offset < stop) :
    Prod.Lex (· < ·) (· < ·) (document.position offset) (document.position stop) := by
  obtain ⟨front, rest, textEq, rfl⟩ := boundary
  obtain ⟨longer, further, stopEq, rfl⟩ := stopBoundary
  obtain ⟨more, rfl, restEq⟩ : ∃ more, longer = front ++ more ∧ rest = more ++ further := by
    rcases List.append_eq_append_iff.mp (textEq.symm.trans stopEq) with
      ⟨more, longerEq, restEq⟩ | ⟨more, frontEq, _⟩
    · exact ⟨more, longerEq, restEq⟩
    · rw [frontEq, byteLength_append] at less
      omega
  obtain ⟨initial, current, rfl, ends, absent⟩ := exists_endsLine_append front
  have here := position_append ends absent textEq
  rw [byteLength_append] at less ⊢
  by_cases feed : '\n' ∈ more
  · -- a line feed in between puts the later boundary on a later line
    obtain ⟨complete, begun, longerEq, completeEnds, begunAbsent⟩ :=
      exists_endsLine_append (initial ++ current ++ more)
    have there := position_append completeEnds begunAbsent (longerEq ▸ stopEq)
    have counted := congrArg (List.count '\n') longerEq
    have someFeed : 0 < more.count '\n' := List.count_pos_iff.mpr feed
    simp only [List.count_append, List.count_eq_zero.mpr absent,
      List.count_eq_zero.mpr begunAbsent] at counted
    rw [here, longerEq, byteLength_append, there]
    exact .left _ _ (by omega)
  · -- otherwise the line of both begins at the same place
    have stillAbsent : '\n' ∉ current ++ more := by
      rw [List.mem_append, not_or]
      exact ⟨absent, feed⟩
    have there := position_append ends stillAbsent
      (show document.text = initial ++ (current ++ more) ++ further by
        rw [stopEq]
        simp only [List.append_assoc])
    have someMore : 0 < more.length := by
      rw [List.length_pos_iff]
      rintro rfl
      rw [List.append_nil, byteLength_append] at less
      exact absurd less (Nat.lt_irrefl _)
    rw [here, List.append_assoc, byteLength_append, there, List.length_append]
    exact .right _ (by omega)

/-- A boundary of a line lies as far behind the start of the line as it lies in the line. -/
theorem exists_lineStart_position (below : index < document.lineCount) :
    ∃ start, (lineStarts document.text)[index]? = some start ∧
      ∀ column, IsBoundary (document.line index) column →
        document.position (start + column) =
          (index, charColumn (document.line index) column) := by
  obtain ⟨span, ⟨before, after, textEq, startEq, stopEq⟩, startFound, stopFound, lineEq⟩ :=
    document.exists_line_range below
  refine ⟨span.start, startFound, ?_⟩
  rintro column ⟨front, rest, frontEq, rfl⟩
  obtain ⟨returned, lettersEq⟩ : ∃ returned, span.letters = front ++ returned := by
    obtain ⟨ending, kept⟩ : dropReturn span.letters <+: span.letters := by
      unfold dropReturn
      split
      · exact List.dropLast_prefix _
      · exact List.prefix_rfl
    exact ⟨rest ++ ending, by rw [← kept, ← lineEq, frontEq, List.append_assoc]⟩
  have wholeEq : document.text = before ++ front ++ (returned ++ after) := by
    rw [textEq, lettersEq]
    simp only [List.append_assoc]
  have within : span.start + byteLength front ≤ span.stop := by
    rw [stopEq, lettersEq, byteLength_append]
    omega
  have coordinates : lineColumn (lineStarts document.text) (span.start + byteLength front) =
      (index, byteLength front) := by
    have eq := lineColumn_eq_of_getElem? (pairwise_lineStarts document.text) startFound
      (Nat.le_add_right span.start (byteLength front)) fun next nextFound => by
        rcases stopFound with stopFound | ⟨noNext, _⟩
        · rw [nextFound, Option.some.injEq] at stopFound
          omega
        · rw [noNext] at nextFound
          cases nextFound
    rw [eq, Nat.add_sub_cancel_left]
  rw [startEq] at startFound coordinates ⊢
  rw [frontEq, charColumn_append]
  exact position_of_lineColumn wholeEq startFound coordinates

/-- Offsets and coordinates of a document determine each other. -/
structure CoordinatesInvert (document : Document) : Prop where
  starts_head : (lineStarts document.text).head? = some 0
  starts_ascend : (lineStarts document.text).Pairwise (· < ·)
  /-- The coordinates of an offset lead back to it. The line is the number of line feeds in front of
  the offset, and the next line starts behind it. -/
  offset_eq : ∀ offset ≤ document.size, ∃ line column start,
    lineColumn (lineStarts document.text) offset = (line, column) ∧
      (lineStarts document.text)[line]? = some start ∧ start + column = offset ∧
      line = (takeBytes offset document.text).count '\n' ∧
      ∀ next, (lineStarts document.text)[line + 1]? = some next → offset < next
  /-- Behind the start of a line, the boundaries of the line have its number and their columns. -/
  position_eq : ∀ index < document.lineCount, ∃ start,
    (lineStarts document.text)[index]? = some start ∧
      ∀ column, IsBoundary (document.line index) column →
        document.position (start + column) =
          (index, charColumn (document.line index) column)
  /-- Positions ascend with the boundaries of the text, by lines and then by columns. -/
  position_ascends : ∀ offset stop, IsBoundary document.text offset →
    IsBoundary document.text stop → offset < stop →
      Prod.Lex (· < ·) (· < ·) (document.position offset) (document.position stop)

/-- The two ways from offsets to coordinates and back are inverse to each other, in every text. -/
theorem coordinatesInvert (document : Document) : document.CoordinatesInvert where
  starts_head := rfl
  starts_ascend := pairwise_lineStarts document.text
  offset_eq offset _ := by
    obtain ⟨start, found, reached⟩ := exists_getElem?_lineColumn document.text offset
    have columnEq : (lineColumn (lineStarts document.text) offset).2 = offset -
        (lineStarts document.text).getD (lineColumn (lineStarts document.text) offset).1 0 := rfl
    rw [List.getD_eq_getElem?_getD, found, Option.getD_some] at columnEq
    have backAgain : start + (lineColumn (lineStarts document.text) offset).2 = offset := by
      rw [columnEq, Nat.add_sub_cancel' reached]
    exact ⟨_, _, start, rfl, found, backAgain, lineColumn_fst document.text offset,
      fun _ => lt_of_getElem?_lineColumn⟩
  position_eq _ below := exists_lineStart_position below
  position_ascends _ _ := position_lt

/-- A carriage return counts in front of a line feed, and a character counts once. -/
example : (Document.ofString "é\r\nb").position 3 = (0, 2) ∧
    (Document.ofString "é\r\nb").line 0 = "é".toList ∧
    (Document.ofString "é\r\nb").position 5 = (1, 1) := by
  decide

end Document

end ScriptLint
