import ScriptLint.Rule.NoEmptyFunctions
import ScriptLint.Proofs.Rule.Basic

/-!
# Empty functions

The pattern for empty functions runs over the joined lines of a document. The coordinates of the
start of a match lie at a boundary of a line of the document, and the coordinates of its end are
behind them if both are on one line. So every issue covers characters of its line.
-/

namespace ScriptLint

open Text

/-- The coordinates of a position between two characters of the joined lines lie at a boundary of
the line that they name. -/
theorem Document.isBoundary_lineColumn {document : Document} {position index column : Nat}
    {line : ScannedLine} (boundary : IsBoundary document.joined position)
    (coordinates : lineColumn (lineStarts document.joined) position = (index, column))
    (found : document.scan[index]? = some line) : IsBoundary line.text column := by
  obtain ⟨before, after, joinedEq, measured⟩ := boundary
  obtain ⟨initial, current, beforeEq, ends, absent⟩ := exists_endsLine_append before
  rw [beforeEq] at joinedEq
  rw [beforeEq, byteLength_append] at measured
  have computed := ends.lineColumn_append absent after
  rw [← joinedEq, measured, coordinates] at computed
  obtain ⟨indexEq, columnEq⟩ := Prod.mk.inj computed
  have foundText : document.lines[index]? = some line.text := by
    rw [← map_text_scan, List.getElem?_map, found, Option.map_some]
  have nonempty : document.lines ≠ [] := by
    intro none
    rw [none] at foundText
    cases foundText
  have piece := ends.getElem?_splitOn_append absent after
  rw [← joinedEq, splitOn_joined nonempty, ← indexEq, foundText] at piece
  exact ⟨current, after.takeWhile (· != '\n'), Option.some.inj piece, columnEq.symm⟩

namespace NoEmptyFunctions

variable {document : Document}

theorem yields_issueOfMatch? {found : Match}
    (isMatch : Pattern.IsMatch emptyFunction document.joined found) :
    Yields (issueOfMatch? (lineStarts document.joined) document.scan.toArray found) fun issue =>
      ∀ reported ∈ issue, reported.PointsInto document := by
  obtain ⟨before, after, joinedEq, startEq, stopEq⟩ := isMatch.whole_isIn
  have startBoundary : IsBoundary document.joined found.whole.start :=
    ⟨before, found.whole.letters ++ after, by rw [joinedEq, List.append_assoc], startEq.symm⟩
  unfold issueOfMatch?
  cases startCoordinates : lineColumn (lineStarts document.joined) found.whole.start with
  | mk index column =>
  cases stopCoordinates : lineColumn (lineStarts document.joined) found.whole.stop with
  | mk endIndex endColumn =>
  simp only [List.getElem?_toArray]
  split
  · exact .ok nofun
  · next line lineFound =>
      have holds : document.Holds index line := Document.holds_of_getElem?_scan lineFound
      have lineBoundary : IsBoundary line.text column :=
        Document.isBoundary_lineColumn startBoundary startCoordinates lineFound
      by_cases exempt : (isExempt found || line.isInComment column || line.isInTemplate column) = true
      · rw [if_pos exempt]
        exact .ok nofun
      · rw [if_neg exempt]
        have ordered : endIndex = index → column ≤ endColumn := by
          intro sameLine
          have behind : found.whole.start ≤ found.whole.stop :=
            stopEq ▸ Nat.le_add_right _ _
          have inOrder := @lineColumn_snd_le (lineStarts document.joined) _ _ behind
          rw [startCoordinates, stopCoordinates] at inOrder
          exact inOrder sameLine
        have columns : line.column column ≤
            if endIndex = index then line.column endColumn else line.text.length := by
          split
          · next sameLine => exact charColumn_le_charColumn lineBoundary (ordered sameLine)
          · exact charColumn_le_length line.text column
        have bounded : (if endIndex = index then line.column endColumn else line.text.length) ≤
            line.text.length := by
          split
          · exact charColumn_le_length line.text endColumn
          · exact Nat.le_refl _
        refine (yields_spanLength columns).bind fun length lengthEq => .ok ?_
        intro reported same
        rw [← Option.some.inj same]
        apply RuleInfo.pointsInto_issue (by decide) holds.index_lt
        rw [holds.line_eq, lengthEq]
        exact bounded

theorem succeeds (document : Document) (options : RuleOptions) :
    rule.Succeeds document options := by
  have yields : Yields (issues document) (Issue.AllPointInto document) := by
    refine (Yields.mapM fun found member => yields_issueOfMatch?
      (Pattern.isMatch_of_mem_searchAll member)).bind fun found points => .ok ?_
    intro issue member
    rw [Issue.mem_sorted] at member
    obtain ⟨option, optionMember, same⟩ := List.mem_filterMap.mp member
    exact points option optionMember issue same
  exact yields

end NoEmptyFunctions

end ScriptLint
