import ScriptLint.Document
import ScriptLint.Proofs.Text.Bytes
import ScriptLint.Proofs.Text.Split
import Mathlib.Data.List.GetD
import Mathlib.Data.List.Induction

/-!
# Coordinates of a document

Any text falls into lines that are complete and the beginning of a further line. The byte position
behind such a beginning has the number of complete lines as its line and the length of the beginning
as its column. The lines of a document that are joined by line feeds are the pieces of the result,
so a position there has the line of the document at the line of its coordinates.
-/

namespace ScriptLint

open Text

/-! ## Line starts -/

theorem startsAfter_append (position : Nat) (first second : List Char) :
    startsAfter position (first ++ second) =
      startsAfter position first ++ startsAfter (position + byteLength first) second := by
  induction first generalizing position with
  | nil => rfl
  | cons letter rest inductionHypothesis =>
      by_cases feed : (letter == '\n') = true
      · simp only [List.cons_append, startsAfter, if_pos feed, inductionHypothesis,
          byteLength_cons, Nat.add_assoc]
      · simp only [List.cons_append, startsAfter, if_neg feed, inductionHypothesis,
          byteLength_cons, Nat.add_assoc]

theorem startsAfter_eq_nil {position : Nat} {letters : List Char} (absent : '\n' ∉ letters) :
    startsAfter position letters = [] := by
  induction letters generalizing position with
  | nil => rfl
  | cons letter rest inductionHypothesis =>
      rw [List.mem_cons, not_or] at absent
      have noFeed : ¬ (letter == '\n') = true := by
        rw [beq_iff_eq]
        exact fun same => absent.1 same.symm
      simp only [startsAfter, if_neg noFeed, inductionHypothesis absent.2]

theorem length_startsAfter (position : Nat) (letters : List Char) :
    (startsAfter position letters).length = letters.count '\n' := by
  induction letters generalizing position with
  | nil => rfl
  | cons letter rest inductionHypothesis =>
      by_cases feed : (letter == '\n') = true
      · simp only [startsAfter, if_pos feed, List.length_cons, inductionHypothesis,
          List.count_cons]
      · simp only [startsAfter, if_neg feed, inductionHypothesis, List.count_cons, Nat.add_zero]

theorem lt_of_mem_startsAfter {position start : Nat} {letters : List Char}
    (member : start ∈ startsAfter position letters) :
    position < start ∧ start ≤ position + byteLength letters := by
  induction letters generalizing position with
  | nil => exact absurd member List.not_mem_nil
  | cons letter rest inductionHypothesis =>
      have sizePositive := letter.utf8Size_pos
      have later : start ∈ startsAfter (position + letter.utf8Size) rest →
          position < start ∧ start ≤ position + byteLength (letter :: rest) := by
        intro inRest
        have bounds := inductionHypothesis inRest
        rw [byteLength_cons]
        omega
      by_cases feed : (letter == '\n') = true
      · simp only [startsAfter, if_pos feed] at member
        rcases List.mem_cons.mp member with here | inRest
        · rw [here, byteLength_cons]
          omega
        · exact later inRest
      · simp only [startsAfter, if_neg feed] at member
        exact later member

theorem length_lineStarts (letters : List Char) :
    (lineStarts letters).length = letters.count '\n' + 1 := by
  rw [lineStarts, List.length_cons, length_startsAfter]

/-- The beginning of a line adds no line start. -/
theorem lineStarts_append (initial : List Char) {current : List Char} (absent : '\n' ∉ current)
    (after : List Char) :
    lineStarts (initial ++ current ++ after) =
      lineStarts initial ++ startsAfter (byteLength initial + byteLength current) after := by
  rw [lineStarts, startsAfter_append, startsAfter_append, startsAfter_eq_nil absent,
    List.append_nil, Nat.zero_add, byteLength_append]
  rfl

theorem startsAfter_add (position further : Nat) (letters : List Char) :
    startsAfter (position + further) letters =
      (startsAfter further letters).map (position + ·) := by
  induction letters generalizing further with
  | nil => rfl
  | cons letter rest inductionHypothesis =>
      by_cases feed : (letter == '\n') = true
      · simp only [startsAfter, if_pos feed, Nat.add_assoc, inductionHypothesis, List.map_cons]
      · simp only [startsAfter, if_neg feed, Nat.add_assoc, inductionHypothesis]

/-- Behind its first line a text has the line starts of the rest. -/
theorem lineStarts_append_feed {line : List Char} (absent : '\n' ∉ line) (rest : List Char) :
    lineStarts (line ++ '\n' :: rest) =
      0 :: (lineStarts rest).map (byteLength line + 1 + ·) := by
  have feedSize : '\n'.utf8Size = 1 := rfl
  rw [lineStarts, startsAfter_append, startsAfter_eq_nil absent, List.nil_append, Nat.zero_add,
    startsAfter, feedSize, if_pos (beq_self_eq_true _), lineStarts, List.map_cons,
    ← startsAfter_add, Nat.add_zero]

/-! ## Lines and columns -/

/-- The text consists of complete lines, each with the line feed at its end. -/
def EndsLine (letters : List Char) : Prop := letters = [] ∨ ∃ line, letters = line ++ ['\n']

/-- A text consists of complete lines and the beginning of a further line. -/
theorem exists_endsLine_append (letters : List Char) :
    ∃ initial current, letters = initial ++ current ∧ EndsLine initial ∧ '\n' ∉ current := by
  induction letters using List.reverseRecOn with
  | nil => exact ⟨[], [], rfl, Or.inl rfl, List.not_mem_nil⟩
  | append_singleton rest letter inductionHypothesis =>
      by_cases feed : letter = '\n'
      · exact ⟨rest ++ [letter], [], (List.append_nil _).symm, Or.inr ⟨rest, by rw [feed]⟩,
          List.not_mem_nil⟩
      · obtain ⟨initial, current, shape, ends, absent⟩ := inductionHypothesis
        refine ⟨initial, current ++ [letter], by rw [shape, List.append_assoc], ends, ?_⟩
        rw [List.mem_append, List.mem_singleton, not_or]
        exact ⟨absent, fun same => feed same.symm⟩

/-- The line of a position has a line start, which is not behind the position. -/
theorem exists_getElem?_lineColumn (letters : List Char) (position : Nat) :
    ∃ start, (lineStarts letters)[(lineColumn (lineStarts letters) position).1]? = some start ∧
      start ≤ position := by
  have reachedEq : (lineStarts letters).takeWhile (· ≤ position) =
      0 :: (startsAfter 0 letters).takeWhile (· ≤ position) :=
    List.takeWhile_cons_of_pos (decide_eq_true (Nat.zero_le position))
  have lineEq : (lineColumn (lineStarts letters) position).1 =
      ((startsAfter 0 letters).takeWhile (· ≤ position)).length := by
    rw [lineColumn, reachedEq, List.length_cons, Nat.add_sub_cancel]
  have below : (lineColumn (lineStarts letters) position).1 <
      ((lineStarts letters).takeWhile (· ≤ position)).length := by
    rw [lineEq, reachedEq, List.length_cons]
    exact Nat.lt_succ_self _
  have reached := List.mem_takeWhile_imp (List.getElem_mem below)
  rw [decide_eq_true_eq] at reached
  refine ⟨_, ?_, reached⟩
  rw [(List.takeWhile_prefix _).getElem below]
  exact List.getElem?_eq_getElem _

/-- Behind its first line a text has the coordinates of the rest, one line further down. -/
theorem lineColumn_behind_line {line : List Char} (absent : '\n' ∉ line) (rest : List Char)
    (position : Nat) :
    lineColumn (lineStarts (line ++ '\n' :: rest)) (position + (byteLength line + 1)) =
      ((lineColumn (lineStarts rest) position).1 + 1, (lineColumn (lineStarts rest) position).2) := by
  obtain ⟨start, found, _⟩ := exists_getElem?_lineColumn rest position
  have sameTest : (fun further => decide (further ≤ position + (byteLength line + 1))) ∘
      (byteLength line + 1 + ·) = fun further => decide (further ≤ position) := by
    funext further
    rw [Function.comp_apply, Nat.add_comm position, decide_eq_decide]
    exact Nat.add_le_add_iff_left
  have reached : (lineStarts (line ++ '\n' :: rest)).takeWhile
      (· ≤ position + (byteLength line + 1)) =
        0 :: ((lineStarts rest).takeWhile (· ≤ position)).map (byteLength line + 1 + ·) := by
    rw [lineStarts_append_feed absent, ← sameTest, ← List.takeWhile_map]
    exact List.takeWhile_cons_of_pos (decide_eq_true (Nat.zero_le _))
  have nonempty : 0 < ((lineStarts rest).takeWhile (· ≤ position)).length := Nat.succ_pos _
  have lineEq : (lineColumn (lineStarts (line ++ '\n' :: rest))
      (position + (byteLength line + 1))).1 = (lineColumn (lineStarts rest) position).1 + 1 := by
    rw [lineColumn, lineColumn, reached, List.length_cons, List.length_map]
    exact (Nat.sub_add_cancel nonempty).symm
  have startHere : (lineStarts rest).getD (lineColumn (lineStarts rest) position).1 0 = start := by
    rw [List.getD_eq_getElem?_getD, found, Option.getD_some]
  have startBehind : (lineStarts (line ++ '\n' :: rest)).getD
      ((lineColumn (lineStarts rest) position).1 + 1) 0 = byteLength line + 1 + start := by
    rw [lineStarts_append_feed absent, List.getD_cons_succ, List.getD_eq_getElem?_getD,
      List.getElem?_map, found]
    rfl
  refine Prod.ext lineEq ?_
  change position + (byteLength line + 1) - (lineStarts (line ++ '\n' :: rest)).getD (lineColumn
    (lineStarts (line ++ '\n' :: rest)) (position + (byteLength line + 1))).1 0 =
      position - (lineStarts rest).getD (lineColumn (lineStarts rest) position).1 0
  rw [lineEq, startBehind, startHere, Nat.add_comm position, Nat.add_sub_add_left]

/-- On its first line a text has the byte positions as the columns. -/
theorem lineColumn_of_lt {line : List Char} (absent : '\n' ∉ line) (rest : List Char)
    {position : Nat} (within : position < byteLength line + 1) :
    lineColumn (lineStarts (line ++ '\n' :: rest)) position = (0, position) := by
  have beyond : ¬ byteLength line + 1 + 0 ≤ position := by omega
  have reached : (lineStarts (line ++ '\n' :: rest)).takeWhile (· ≤ position) = [0] := by
    rw [lineStarts_append_feed absent, lineStarts, List.map_cons]
    simp only [List.takeWhile, Nat.zero_le, beyond, decide_true, decide_false]
  rw [lineColumn, reached]
  rfl

/-- On one line columns are in the order of the positions. -/
theorem lineColumn_snd_le {starts : List Nat} {start stop : Nat} (ordered : start ≤ stop)
    (sameLine : (lineColumn starts stop).1 = (lineColumn starts start).1) :
    (lineColumn starts start).2 ≤ (lineColumn starts stop).2 := by
  have columnEq : ∀ position, (lineColumn starts position).2 =
      position - starts.getD (lineColumn starts position).1 0 := fun _ => rfl
  rw [columnEq, columnEq, sameLine]
  omega

namespace EndsLine

variable {initial : List Char}

/-- The last line start of complete lines is at their end. -/
theorem getElem?_lineStarts (ends : EndsLine initial) :
    (lineStarts initial)[initial.count '\n']? = some (byteLength initial) := by
  rcases ends with rfl | ⟨line, rfl⟩
  · rfl
  · have lastStart :
        startsAfter (byteLength line) ['\n'] = [byteLength line + 1] := rfl
    rw [lineStarts, startsAfter_append, Nat.zero_add, lastStart, List.count_append,
      show ['\n'].count '\n' = 1 from rfl, List.getElem?_cons_succ, ← length_startsAfter 0,
      List.getElem?_append_right (Nat.le_refl _), Nat.sub_self, byteLength_append]
    rfl

/-- Behind complete lines and the beginning of a further one the line is the number of complete
lines and the column the length of the beginning. -/
theorem lineColumn_append (ends : EndsLine initial) {current : List Char}
    (absent : '\n' ∉ current) (after : List Char) :
    lineColumn (lineStarts (initial ++ current ++ after))
        (byteLength initial + byteLength current) =
      (initial.count '\n', byteLength current) := by
  have reached : ∀ start ∈ lineStarts initial,
      decide (start ≤ byteLength initial + byteLength current) = true := by
    intro start member
    rw [decide_eq_true_eq]
    rcases List.mem_cons.mp member with first | later
    · omega
    · have bounds := lt_of_mem_startsAfter later
      omega
  have notReached :
      (startsAfter (byteLength initial + byteLength current) after).takeWhile
        (· ≤ byteLength initial + byteLength current) = [] := by
    cases starts : startsAfter (byteLength initial + byteLength current) after with
    | nil => rfl
    | cons start others =>
        have bounds := lt_of_mem_startsAfter (starts ▸ List.mem_cons_self (a := start))
        rw [List.takeWhile_cons_of_neg]
        rw [decide_eq_true_eq]
        omega
  have lengthEq := length_lineStarts initial
  simp only [lineColumn, lineStarts_append initial absent after, List.takeWhile_append_of_pos reached, notReached,
    List.append_nil, lengthEq, Nat.add_sub_cancel]
  rw [List.getD_append _ _ _ _ (by omega), List.getD_eq_getElem?_getD, ends.getElem?_lineStarts,
    Option.getD_some, Nat.add_sub_cancel_left]

/-- The line at the number of complete lines is the one that has begun. -/
theorem getElem?_splitOn_append (ends : EndsLine initial) {current : List Char}
    (absent : '\n' ∉ current) (after : List Char) :
    (splitOn '\n' (initial ++ current ++ after))[initial.count '\n']? =
      some (current ++ after.takeWhile (· != '\n')) := by
  have firstOf : ∀ rest, (splitOn '\n' rest)[0]? = some (rest.takeWhile (· != '\n')) := by
    intro rest
    obtain ⟨pieces, split⟩ := exists_splitOn_eq_cons '\n' rest
    rw [split, List.getElem?_cons_zero]
  have currentPasses : ∀ letter ∈ current, (letter != '\n') = true := by
    intro letter member
    exact bne_iff_ne.mpr fun same => absent (same ▸ member)
  rw [← List.takeWhile_append_of_pos currentPasses, List.append_assoc]
  rcases ends with rfl | ⟨line, rfl⟩
  · exact firstOf (current ++ after)
  · have countEq : (line ++ ['\n']).count '\n' = (splitOn '\n' line).length := by
      rw [length_splitOn, List.count_append]
      rfl
    rw [countEq, List.append_assoc, List.singleton_append, splitOn_append_cons,
      List.getElem?_append_right (Nat.le_refl _), Nat.sub_self]
    exact firstOf (current ++ after)

end EndsLine

/-! ## Lines as ranges of the text -/

theorem endsLine_flatMap (lines : List (List Char)) : EndsLine (lines.flatMap (· ++ ['\n'])) := by
  induction lines using List.reverseRecOn with
  | nil => exact Or.inl rfl
  | append_singleton earlier line _ =>
      right
      exact ⟨earlier.flatMap (· ++ ['\n']) ++ line, by
        rw [List.flatMap_append, List.flatMap_singleton, List.append_assoc]⟩

theorem count_flatMap {lines : List (List Char)} (absent : ∀ line ∈ lines, '\n' ∉ line) :
    (lines.flatMap (· ++ ['\n'])).count '\n' = lines.length := by
  induction lines with
  | nil => rfl
  | cons line rest inductionHypothesis =>
      rw [List.forall_mem_cons] at absent
      rw [List.flatMap_cons, List.count_append, List.count_append,
        List.count_eq_zero.mpr absent.1, inductionHypothesis absent.2, List.length_cons,
        show ['\n'].count '\n' = 1 from rfl]
      omega

/-- A piece between line feeds begins at the line start of its number and ends in front of the byte
before the next line start, or at the end of the text if there is none. -/
theorem exists_lineRange {letters piece : List Char} {index : Nat}
    (found : (splitOn '\n' letters)[index]? = some piece) :
    ∃ before after, letters = before ++ piece ++ after ∧
      (lineStarts letters)[index]? = some (byteLength before) ∧
      ((lineStarts letters)[index + 1]? = some (byteLength before + byteLength piece + 1) ∨
        (lineStarts letters)[index + 1]? = none ∧ after = []) := by
  obtain ⟨below, same⟩ := List.getElem?_eq_some_iff.mp found
  have shape : splitOn '\n' letters =
      (splitOn '\n' letters).take index ++ piece :: (splitOn '\n' letters).drop (index + 1) := by
    rw [← same, ← List.drop_eq_getElem_cons below, List.take_append_drop]
  have earlierAbsent : ∀ line ∈ (splitOn '\n' letters).take index, '\n' ∉ line :=
    fun line member => not_mem_of_mem_splitOn (List.mem_of_mem_take member)
  have absent : '\n' ∉ piece := not_mem_of_mem_splitOn (List.mem_of_getElem? found)
  have earlierLength : ((splitOn '\n' letters).take index).length = index :=
    List.length_take_of_le (by omega)
  generalize (splitOn '\n' letters).take index = earlier at *
  generalize (splitOn '\n' letters).drop (index + 1) = later at *
  have ends := endsLine_flatMap earlier
  have counted := count_flatMap earlierAbsent
  have lettersEq := joinWith_splitOn '\n' letters
  rw [shape, joinWith_append_cons] at lettersEq
  generalize earlier.flatMap (· ++ ['\n']) = initial at *
  have startsEq := lineStarts_append initial absent (later.flatMap ('\n' :: ·))
  have lengthEq := length_lineStarts initial
  rw [lettersEq] at startsEq
  rw [counted, earlierLength] at lengthEq
  refine ⟨initial, later.flatMap ('\n' :: ·), lettersEq.symm, ?_, ?_⟩
  · rw [startsEq, List.getElem?_append_left (by omega), ← earlierLength, ← counted]
    exact ends.getElem?_lineStarts
  · rw [startsEq, List.getElem?_append_right (by omega), lengthEq, Nat.sub_self]
    cases later with
    | nil => exact Or.inr ⟨rfl, rfl⟩
    | cons next others => exact Or.inl rfl

end ScriptLint
