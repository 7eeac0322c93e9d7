import ScriptLint.Proofs.Rule.NoEmptyFunctions
import ScriptLint.Proofs.Rule.FunctionHeads
import ScriptLint.Proofs.Document.CommentAbove
import ScriptLint.Proofs.Outcome

/-!
# Empty functions below a comment

The pattern for empty functions runs over the comments too. What it finds in a comment is not
reported, but it may go on below the comment, and then the search for further functions begins
behind it. So a comment above a document moves the issues down, except that it hides the functions
that belong to a match which begins in it.
-/

namespace ScriptLint

open Text Text.Pattern

/-- The issue, one line further down. -/
def Issue.lower (issue : Issue) : Issue := { issue with line := issue.line + 1 }

theorem Issue.sorted_lower (issues : List Issue) :
    sorted (issues.map lower) = (sorted issues).map lower := by
  have sameOrder : ∀ first second : Issue,
      first.notAfter second = first.lower.notAfter second.lower := by
    intro first second
    rw [Bool.eq_iff_iff]
    simp only [notAfter, Bool.or_eq_true, Bool.and_eq_true, decide_eq_true_eq, beq_iff_eq]
    simp only [lower, Nat.add_lt_add_iff_right, Nat.add_right_cancel_iff]
  exact (List.map_mergeSort fun first _ second _ => sameOrder first second).symm

namespace NoEmptyFunctions

variable {document : Document} {text : List Char} {found : Match}

/-- The issues for the functions that a search finds from a byte position of the joined lines on. -/
def issuesFrom (free : Nat) (document : Document) : Except Failure (List Issue) := do
  let found ← (searchAllFrom emptyFunction document.joined.length free none 0
    document.joined).mapM (issueOfMatch? (lineStarts document.joined) document.scan.toArray)
  .ok (Issue.sorted (found.filterMap fun issue => issue))

theorem issuesFrom_zero (document : Document) : issuesFrom 0 document = issues document := rfl

/-! ## Matches in the comment -/

/-- A match that begins in the comment is not reported. -/
theorem issueOfMatch?_of_mem_matchesIn (noFeed : '\n' ∉ text)
    (member : found ∈ matchesIn emptyFunction (commentRow text) document.joined) :
    issueOfMatch? (lineStarts (document.belowComment text).joined)
      (document.belowComment text).scan.toArray found = .ok none := by
  obtain ⟨before, first, others, after, lineEq, _, startEq, _⟩ := exists_part_of_mem_matchesIn member
  have within : found.whole.start < byteLength (commentLine text) := by
    have sizePositive := first.utf8Size_pos
    rw [startEq, lineEq, byteLength_append, byteLength_cons]
    omega
  obtain ⟨comment, rest, scanEq, regionsEq, _⟩ := Document.scan_belowComment noFeed document
  have inComment : comment.isInComment found.whole.start = true := by
    simp [ScannedLine.isInComment, ScannedLine.isIn, regionsEq, Region.holds, within]
  have joinedEq : (document.belowComment text).joined =
      commentLine text ++ '\n' :: document.joined := by
    rw [Document.joined_belowComment noFeed, commentRow, List.append_assoc]
    rfl
  have placed := lineColumn_of_lt (not_mem_commentLine noFeed) document.joined
    (Nat.lt_succ_of_lt within)
  rw [issueOfMatch?, joinedEq, placed, scanEq]
  simp only [List.getElem?_toArray, List.getElem?_cons_zero, inComment, Bool.or_true,
    Bool.true_or, if_true]

/-! ## Matches behind the comment -/

theorem isExempt_behind (front : List Char) (found : Match) :
    isExempt (found.behind front) = isExempt found := by
  rw [isExempt, isExempt, Match.group?_behind, Match.group?_behind]
  cases found.group? 1 with
  | none => rfl
  | some method =>
      cases found.group? 2 with
      | none => rfl
      | some parameters => rfl

/-- Below the comment a match has the issue that it has in the document alone, one line further
down. -/
theorem issueOfMatch?_behind (noFeed : '\n' ∉ text)
    (isMatch : IsMatch emptyFunction document.joined found) :
    issueOfMatch? (lineStarts (document.belowComment text).joined)
        (document.belowComment text).scan.toArray (found.behind (commentRow text)) =
      (issueOfMatch? (lineStarts document.joined) document.scan.toArray found).map
        (Option.map Issue.lower) := by
  have hasText : document.text ≠ [] := by
    intro empty
    obtain ⟨before, after, joinedEq, _⟩ := isMatch.whole_isIn
    obtain ⟨letter, others, wholeEq, _⟩ := isMatch.whole_opens emptyFunction_opens
    have noJoined : document.joined = [] := by
      rw [Document.joined, Document.lines, empty]
      rfl
    rw [noJoined, wholeEq] at joinedEq
    simp at joinedEq
  obtain ⟨comment, others, scanEq, _, othersEq⟩ := Document.scan_belowComment noFeed document
  have startEq : (found.behind (commentRow text)).whole.start =
      found.whole.start + byteLength (commentRow text) := rfl
  have stopEq : (found.behind (commentRow text)).whole.stop =
      found.whole.stop + byteLength (commentRow text) := rfl
  rw [issueOfMatch?, issueOfMatch?, startEq, stopEq, Document.lineColumn_belowComment noFeed,
    Document.lineColumn_belowComment noFeed, scanEq, othersEq hasText]
  simp only [List.getElem?_toArray, List.getElem?_cons_succ, List.getElem?_map, isExempt_behind,
    Nat.add_right_cancel_iff]
  cases document.scan[(lineColumn (lineStarts document.joined) found.whole.start).1]? with
  | none => rfl
  | some line =>
      have sameComment : line.lower.isInComment = line.isInComment := rfl
      have sameTemplate : line.lower.isInTemplate = line.isInTemplate := rfl
      have sameColumn : line.lower.column = line.column := rfl
      have sameText : line.lower.text = line.text := rfl
      simp only [Option.map_some, sameComment, sameTemplate, sameColumn, sameText]
      split
      · rfl
      · cases spanLength _ _ with
        | error failure => rfl
        | ok length => rfl

/-! ## The whole check -/

/-- A comment above a document moves the issues one line down. The search that finds them begins
where the last match ends that begins in the comment. -/
theorem issues_belowComment (noFeed : '\n' ∉ text) (document : Document) :
    issues (document.belowComment text) =
      (issuesFrom (overhang emptyFunction (commentRow text) document.joined) document).map
        (List.map Issue.lower) := by
  have noWord : (commentRow text).getLast?.any isWord = false := by
    rw [commentRow, List.getLast?_concat]
    decide
  have searched := searchAll_append_behind noWord (@rfl _ emptyFunction.asksForStart)
    document.joined
  rw [← Document.joined_belowComment noFeed] at searched
  have inComment : ∀ found ∈ matchesIn emptyFunction (commentRow text) document.joined,
      issueOfMatch? (lineStarts (document.belowComment text).joined)
        (document.belowComment text).scan.toArray found = .ok ((fun _ => none) found) :=
    fun _ member => issueOfMatch?_of_mem_matchesIn noFeed member
  have behindComment : ∀ found ∈ searchAllFrom emptyFunction document.joined.length
      (overhang emptyFunction (commentRow text) document.joined) none 0 document.joined,
        issueOfMatch? (lineStarts (document.belowComment text).joined)
            (document.belowComment text).scan.toArray (found.behind (commentRow text)) =
          (issueOfMatch? (lineStarts document.joined) document.scan.toArray found).map
            (Option.map Issue.lower) :=
    fun _ member => issueOfMatch?_behind noFeed
      (isMatch_of_mem_searchAllFrom (.first document.joined) member)
  have unreported : ((matchesIn emptyFunction (commentRow text) document.joined).map
      fun _ => (none : Option Issue)).filterMap (fun issue => issue) = [] := by
    rw [List.filterMap_eq_nil_iff]
    intro issue member
    obtain ⟨_, _, noIssue⟩ := List.mem_map.mp member
    exact noIssue.symm
  rw [issues, searched, List.mapM_append, mapM_eq_ok inComment, mapM_map_eq behindComment, issuesFrom]
  cases (searchAllFrom emptyFunction document.joined.length
      (overhang emptyFunction (commentRow text) document.joined) none 0 document.joined).mapM
        (issueOfMatch? (lineStarts document.joined) document.scan.toArray) with
  | error failure => rfl
  | ok found =>
      refine congrArg Except.ok ?_
      rw [List.filterMap_append, unreported, List.nil_append, ← Issue.sorted_lower,
        List.filterMap_map, List.map_filterMap]
      rfl

theorem lastOutside?_dropReturn (letters : List Char) :
    lastOutside? isSpace (dropReturn letters) = lastOutside? isSpace letters := by
  unfold dropReturn
  split
  · next ends =>
      obtain ⟨front, rfl⟩ := List.getLast?_eq_some_iff.mp ends
      rw [List.dropLast_concat, lastOutside?_append]
      rfl
  · rfl

/-- The slashes of a comment neither open nor go on with a head. -/
theorem closesHeads_commentLine (closes : closesHeads text = true) :
    closesHeads (commentLine text) = true := by
  obtain ⟨noParenthesis, noEquals, closed⟩ := closesHeads_iff.mp closes
  rw [closesHeads_iff, commentLine]
  refine ⟨not_mem_dropReturn ?_, not_mem_dropReturn ?_, fun letter found => ?_⟩
  · rw [List.mem_append, not_or]
    exact ⟨by decide, noParenthesis⟩
  · rw [List.mem_append, not_or]
    exact ⟨by decide, noEquals⟩
  · rw [lastOutside?_dropReturn, lastOutside?_append, Option.or_eq_some_iff] at found
    rcases found with inText | ⟨_, isSlash⟩
    · exact closed letter inText
    · rw [← Option.some.inj isSlash]
      decide

theorem overhang_commentRow (closes : closesHeads text = true) (letters : List Char) :
    overhang emptyFunction (commentRow text) letters = 0 := by
  rw [overhang, commentRow, matchesIn_eq_nil (closesHeads_commentLine closes)]
  exact Nat.zero_sub _

/-- Below a comment a document has the issues of the functions that are found behind the last match
that begins in the comment, one line further down. They are all its issues if no head goes on below
the comment. -/
theorem check_belowComment (noFeed : '\n' ∉ text) (document : Document) (options : RuleOptions) :
    rule.check (document.belowComment text) options =
        (issuesFrom (overhang emptyFunction (commentRow text) document.joined) document).map
          (List.map Issue.lower) ∧
      (closesHeads text = true → rule.check (document.belowComment text) options =
        (rule.check document options).map (List.map Issue.lower)) := by
  refine ⟨issues_belowComment noFeed document, fun closes => ?_⟩
  have allFound := issues_belowComment noFeed document
  rw [overhang_commentRow closes, issuesFrom_zero] at allFound
  exact allFound

/-- A document with an empty function on its only line. -/
def emptyMain : Document := .ofString "(function main() \x7b\x7d)();"

theorem check_belowComment_setup :
    ('\n' ∉ "Setup.".toList ∧ closesHeads "Setup.".toList = true) ∧
      rule.check (emptyMain.belowComment "Setup.".toList) .enabled =
        (rule.check emptyMain .enabled).map (List.map Issue.lower) :=
  ⟨⟨by decide, by decide +kernel⟩,
    (check_belowComment (by decide) emptyMain .enabled).2 (by decide +kernel)⟩

/-- A comment that ends with a word reads like the name of a method whose parameters stand below it.
The match begins in the comment and is not reported, and the search goes on behind the function. -/
theorem comment_hidesFunction :
    '\n' ∉ "setup".toList ∧
      (rule.check emptyMain .enabled).map (List.map Issue.lower) =
        .ok [info.issue 1 1 18
          "Empty function body; implement it or add a comment explaining why it is empty"] ∧
      rule.check (emptyMain.belowComment "setup".toList) .enabled = .ok [] := by
  refine ⟨by decide, ?_, ?_⟩
  · decide +kernel
  · decide +kernel

end NoEmptyFunctions

end ScriptLint
