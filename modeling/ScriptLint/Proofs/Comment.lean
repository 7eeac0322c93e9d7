import ScriptLint.Comment
import ScriptLint.Proofs.Text.Trim

/-!
# Comments on a single line

A line without its comment consists of what stands before the comment and what follows it. The two
are next to each other in the line only if there is no comment; but the white space at the start of
the line is that of the rest as soon as something else stands before the comment.
-/

namespace ScriptLint

open Text

/-- A cut leaves the text before the marker and the text behind it. -/
theorem Text.cutAt?_eq_some {marker letters before after : List Char}
    (cut : cutAt? marker letters = some (before, after)) :
    letters = before ++ marker ++ after := by
  induction letters generalizing before with
  | nil =>
      rw [cutAt?] at cut
      split at cut
      · next empty =>
          cases cut
          rw [List.isEmpty_iff.mp empty]
          rfl
      · cases cut
  | cons letter rest inductionHypothesis =>
      rw [cutAt?] at cut
      split at cut
      · next here =>
          cases cut
          obtain ⟨behind, equality⟩ := List.isPrefixOf_iff_prefix.mp here
          rw [← equality, List.drop_left, List.nil_append]
      · obtain ⟨⟨halfBefore, halfAfter⟩, cutRest, same⟩ := Option.map_eq_some_iff.mp cut
        cases same
        rw [inductionHypothesis cutRest]
        rfl

namespace Comment

/-- The byte positions at which the range begins and ends that is cut out of a line with a comment.
-/
def cutRange (line : List Char) : Nat × Nat :=
  match cutAt? lineMarker line with
  | some (before, _) => (byteLength before, byteLength line)
  | none =>
      match cutAt? blockOpening line with
      | some (before, inside) =>
          match cutAt? blockClosing inside with
          | some (comment, _) => (byteLength before, byteLength before + byteLength comment + 4)
          | none => (byteLength before, byteLength line)
      | none => (byteLength line, byteLength line)

/-- A line consists of the text before its comment, the comment, which is cut out, and the text after
it. Only a block has text after it, and the marker of the block stands before that text. -/
theorem exists_uncommented_eq (line : List Char) :
    ∃ before comment after, line = before ++ comment ++ after ∧
      uncommented line = before ++ after ∧
      cutRange line = (byteLength before, byteLength before + byteLength comment) ∧
      (after = [] ∨ blockOpening <+: comment) := by
  have toEnd {before marker rest : List Char} (found : cutAt? marker line = some (before, rest)) :
      line = before ++ (marker ++ rest) ++ [] ∧
        byteLength line = byteLength before + byteLength (marker ++ rest) := by
    rw [cutAt?_eq_some found, List.append_nil, ← byteLength_append, List.append_assoc]
    exact ⟨rfl, rfl⟩
  cases found : cutAt? lineMarker line with
  | some halves =>
      obtain ⟨before, rest⟩ := halves
      obtain ⟨lineEq, measured⟩ := toEnd found
      simp only [uncommented, cutRange, found]
      exact ⟨before, lineMarker ++ rest, [], lineEq, (List.append_nil _).symm, by rw [measured],
        Or.inl rfl⟩
  | none =>
      cases opened : cutAt? blockOpening line with
      | some halves =>
          obtain ⟨before, inside⟩ := halves
          simp only [uncommented, cutRange, found, opened]
          cases closed : cutAt? blockClosing inside with
          | some parts =>
              obtain ⟨comment, after⟩ := parts
              have sizes : byteLength (blockOpening ++ comment ++ blockClosing) =
                  2 + byteLength comment + 2 := by
                rw [byteLength_append, byteLength_append]
                rfl
              refine ⟨before, blockOpening ++ comment ++ blockClosing, after, ?_, rfl, ?_, Or.inr ?_⟩
              · rw [cutAt?_eq_some opened, cutAt?_eq_some closed]
                simp only [List.append_assoc]
              · rw [sizes, Prod.mk.injEq]
                omega
              · rw [List.append_assoc]
                exact List.prefix_append blockOpening _
          | none =>
              obtain ⟨lineEq, measured⟩ := toEnd opened
              exact ⟨before, blockOpening ++ inside, [], lineEq, (List.append_nil _).symm,
                by rw [measured], Or.inl rfl⟩
      | none =>
          simp only [uncommented, cutRange, found, opened]
          exact ⟨line, [], [], by simp, (List.append_nil _).symm, rfl, Or.inl rfl⟩

/-- A line that begins with a block looks like a comment. -/
theorem isCommentLine_of_blank {before comment after : List Char}
    (blank : ∀ letter ∈ before, isSpace letter) (opens : blockOpening <+: comment) :
    isCommentLine (before ++ comment ++ after) = true := by
  obtain ⟨inside, rfl⟩ := opens
  have trimmedEq : trim (before ++ (blockOpening ++ inside) ++ after) =
      trimEnd (blockOpening ++ (inside ++ after)) := by
    rw [trim, trimStart, List.append_assoc, List.dropWhile_append_of_pos blank,
      List.append_assoc]
    rfl
  have begins : blockOpening.isPrefixOf (trim (before ++ (blockOpening ++ inside) ++ after)) =
      true := by
    rw [List.isPrefixOf_iff_prefix, trimmedEq]
    exact prefix_trimEnd_append rfl (inside ++ after)
  simp only [isCommentLine, begins, Bool.or_true, Bool.true_or]

/-- The code of a line that does not look like a comment fits on the line behind the white space at
its start. -/
theorem length_code_le {line : List Char} (noComment : isCommentLine line = false)
    (hasCode : code line ≠ []) :
    (line.takeWhile isSpace).length + (code line).length ≤ line.length := by
  obtain ⟨before, comment, after, lineEq, uncommentedEq, _, shape⟩ := exists_uncommented_eq line
  -- otherwise there is no code, or the block begins the line
  have other : ∃ letter ∈ before, ¬ isSpace letter := by
    by_contra none
    push Not at none
    rcases shape with noAfter | opens
    · rw [code, uncommentedEq, noAfter, List.append_nil] at hasCode
      exact hasCode (trim_eq_nil_iff.mpr none)
    · rw [lineEq, isCommentLine_of_blank none opens] at noComment
      cases noComment
  have sameStart : line.takeWhile isSpace = (before ++ after).takeWhile isSpace := by
    rw [lineEq, List.append_assoc, takeWhile_isSpace_append other, takeWhile_isSpace_append other]
  have fits := length_takeWhile_add_length_trim_le (before ++ after)
  have lengths := congrArg List.length lineEq
  simp only [List.length_append] at lengths fits
  rw [sameStart, code, uncommentedEq]
  omega

end Comment

end ScriptLint
