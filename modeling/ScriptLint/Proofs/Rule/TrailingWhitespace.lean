import ScriptLint.Proofs.Document.Deletion
import ScriptLint.Proofs.Rule.Lines
import ScriptLint.Proofs.Source.Reading

/-!
# Deleting trailing white space

A line that is reported becomes what the rule keeps of it, and every other line stays. Scanning a
line gives the same without the white space at its end, and leaves the same scanner behind. So the
scanner is in the same state in front of each line, and it is judged as before: what was not
reported is not reported now, and a line that was reported has nothing more at its end.
-/

namespace ScriptLint

open Text

namespace NoTrailingWhitespace

variable {document : Document} {index : Nat} {line : ScannedLine} {written : List Char}

/-- The line is not reported. -/
def isClean (line : ScannedLine) : Bool :=
  line.isBlank || (content line.text).length == line.text.length ||
    line.isInTemplate (byteLength (content line.text))

/-- The line without the white space that is reported. -/
def tidied (line : ScannedLine) : List Char :=
  if isClean line then line.text else content line.text

/-! ## One line -/

theorem exists_content_append (text : List Char) :
    ∃ blanks, text = content text ++ blanks ∧ ∀ letter ∈ blanks, letter = ' ' ∨ letter = '\t' := by
  refine ⟨_, (dropEndWhile_append_rtakeWhile _ text).symm, fun letter member => ?_⟩
  simpa using List.mem_rtakeWhile_imp member

theorem content_content (text : List Char) : content (content text) = content text :=
  List.rdropWhile_idempotent _ text

/-- The issue for a line that is not clean spans what stands behind the part that is kept. -/
theorem issueOfLine?_eq (index : Nat) (line : ScannedLine) :
    issueOfLine? index line =
      if isClean line then none
      else some (info.issue index (content line.text).length
        (line.text.length - (content line.text).length) "Trailing whitespace") := by
  obtain ⟨blanks, textEq, _⟩ := exists_content_append line.text
  have columnEq : line.column (byteLength (content line.text)) = (content line.text).length := by
    have behind := charColumn_append (content line.text) blanks
    rwa [← textEq] at behind
  have decided : issueOfLine? index line =
      if isClean line then none
      else some (info.issue index (line.column (byteLength (content line.text)))
        (line.text.length - (content line.text).length) "Trailing whitespace") := rfl
  rw [decided, columnEq]

theorem issueOfLine?_eq_some_iff {issue : Issue} :
    issueOfLine? index line = some issue ↔
      isClean line = false ∧ info.issue index (content line.text).length
        (line.text.length - (content line.text).length) "Trailing whitespace" = issue := by
  rw [issueOfLine?_eq, Option.ite_none_left_eq_some, Bool.not_eq_true, Option.some.injEq]

theorem tidied_isPrefix (line : ScannedLine) : tidied line <+: line.text := by
  by_cases clean : isClean line = true
  · have whole : tidied line = line.text := if_pos clean
    exact whole ▸ List.prefix_rfl
  · have kept : tidied line = content line.text := if_neg clean
    rw [kept]
    exact List.rdropWhile_prefix _ _

/-- A line with characters keeps some. -/
theorem tidied_ne_nil (someText : line.text ≠ []) : tidied line ≠ [] := by
  unfold tidied
  by_cases clean : isClean line = true
  · rw [if_pos clean]
    exact someText
  · rw [if_neg clean]
    intro nothing
    -- a line of nothing but spaces and tabs is blank
    obtain ⟨blanks, textEq, blank⟩ := exists_content_append line.text
    rw [nothing, List.nil_append] at textEq
    have isBlank : line.isBlank = true := by
      rw [ScannedLine.isBlank, Text.isBlank, List.all_eq_true, textEq]
      exact fun letter member => (isSpace_of_blank (blank letter member)).1
    rw [isClean, isBlank] at clean
    exact clean rfl

/-- Without the reported white space a line is scanned as before, the scanner behind it is the same,
and nothing is reported any more. -/
theorem scanLine_tidied (scanner : Scanner) (index : Nat) (text : List Char) :
    let line := (scanner.scanLine index text).1
    let again := scanner.scanLine index (tidied line)
    again.2 = (scanner.scanLine index text).2 ∧ line.IsStrippedTo again.1 ∧
      isClean again.1 = true := by
  intro line again
  by_cases clean : isClean line = true
  · have same : again = scanner.scanLine index text := by
      simp only [again, tidied, if_pos clean]
      rfl
    rw [same]
    exact ⟨rfl, .refl line, clean⟩
  · have shorter : again = scanner.scanLine index (content text) := by
      simp only [again, tidied, if_neg clean]
      rfl
    obtain ⟨blanks, textEq, blank⟩ := exists_content_append text
    have stripped := scanner.isStrippedTo_scanLine index (content text) blank
    have behind := scanner.scanLine_append_snd index (content text)
      fun letter member => isSpace_of_blank (blank letter member)
    rw [← textEq] at stripped behind
    rw [shorter]
    refine ⟨behind.symm, stripped, ?_⟩
    have nothingMore : (content (content text)).length == (content text).length :=
      beq_iff_eq.mpr (congrArg List.length (content_content text))
    change (_ || (content (content text)).length == (content text).length || _) = true
    rw [nothingMore, Bool.or_true, Bool.true_or]

/-! ## A run over lines -/

/-- From wherever the scanner is, scanning the lines without the reported white space gives line by
line what scanning the lines gave, and nothing is reported any more. -/
theorem scanNumbered_tidied (scanner : Scanner) (index : Nat) (lines : List (List Char)) :
    let once := scanner.scanNumbered (numberedFrom index lines)
    let again := scanner.scanNumbered (numberedFrom index (once.map tidied))
    List.Forall₂ ScannedLine.IsStrippedTo once again ∧ ∀ line ∈ again, isClean line = true := by
  induction lines generalizing scanner index with
  | nil => exact ⟨List.Forall₂.nil, List.forall_mem_nil _⟩
  | cons text rest inductionHypothesis =>
      obtain ⟨behind, stripped, clean⟩ := scanLine_tidied scanner index text
      obtain ⟨later, laterClean⟩ := inductionHypothesis (scanner.scanLine index text).2 (index + 1)
      dsimp only
      rw [Scanner.scanNumbered_cons, List.map_cons, Scanner.scanNumbered_cons, behind]
      exact ⟨List.Forall₂.cons stripped later, List.forall_mem_cons.mpr ⟨clean, laterClean⟩⟩

/-! ## The document -/

theorem mem_issues_iff (found : document.scan[index]? = some line) {issue : Issue}
    (isLine : issue.line = index) :
    issue ∈ issues document ↔ issueOfLine? index line = some issue := by
  rw [issues, List.mem_filterMap]
  constructor
  · intro reported
    obtain ⟨entry, member, reports⟩ := reported
    have sameIndex : entry.2 = index :=
      (congrArg Issue.line (issueOfLine?_eq_some_iff.mp reports).2).trans isLine
    have sameLine : entry.1 = line := by
      have entryFound := List.mem_zipIdx_iff_getElem?.mp member
      rw [sameIndex, found] at entryFound
      exact (Option.some.inj entryFound).symm
    rwa [sameIndex, sameLine] at reports
  · intro reports
    exact ⟨(line, index), List.mem_zipIdx_iff_getElem?.mpr found, reports⟩

/-- The spans of the issues hold, on each line, the columns behind what is kept of it. -/
theorem any_spans_issues_iff (found : document.scan[index]? = some line) (column : Nat) :
    ((issues document).any (·.spans document index column)) = true ↔
      isClean line = false ∧ (content line.text).length ≤ column ∧ column < line.text.length := by
  have spansIff : (info.issue index (content line.text).length
      (line.text.length - (content line.text).length) "Trailing whitespace").spans document index
        column = true ↔ (content line.text).length ≤ column ∧ column < line.text.length := by
    obtain ⟨blanks, textEq, _⟩ := exists_content_append line.text
    have lengths := congrArg List.length textEq
    rw [List.length_append] at lengths
    rw [Issue.spans_iff]
    simp only [RuleInfo.issue, Issue.resolvedLength, Option.getD_some, true_and]
    omega
  rw [List.any_eq_true]
  constructor
  · intro spanned
    obtain ⟨issue, member, spans⟩ := spanned
    have reports := (mem_issues_iff found (Issue.spans_iff.mp spans).1).mp member
    obtain ⟨reported, issueEq⟩ := issueOfLine?_eq_some_iff.mp reports
    rw [← issueEq] at spans
    exact ⟨reported, spansIff.mp spans⟩
  · intro behind
    refine ⟨_, (mem_issues_iff found rfl).mpr ?_, spansIff.mpr behind.2⟩
    exact issueOfLine?_eq_some_iff.mpr ⟨behind.1, rfl⟩

/-- Deletion leaves of a line what is tidied, and what ends it stays. -/
theorem exists_deleteColumns_eq (someText : document.text ≠ [])
    (isWritten : (splitOn '\n' document.text)[index]? = some written) :
    ∃ line ending, document.scan[index]? = some line ∧ line.text = dropReturn written ∧
      (ending = [] ∨ ending = ['\r']) ∧ written = line.text ++ ending ∧
      deleteColumns (fun column => (issues document).any (·.spans document index column)) written =
        tidied line ++ ending := by
  obtain ⟨line, found, textEq⟩ : ∃ line, document.scan[index]? = some line ∧
      line.text = dropReturn written := by
    rw [← Option.map_eq_some_iff, ← List.getElem?_map, Document.map_text_scan,
      Document.lines_eq_map someText, List.getElem?_map, isWritten]
    rfl
  obtain ⟨ending, isEnding, writtenEq⟩ :
      ∃ ending, (ending = [] ∨ ending = ['\r']) ∧ written = line.text ++ ending := by
    rw [textEq]
    rcases isFedAs_dropReturn written with same | returned
    · exact ⟨[], .inl rfl, by rw [List.append_nil, ← same]⟩
    · exact ⟨['\r'], .inr rfl, returned⟩
  refine ⟨line, ending, found, textEq, isEnding, writtenEq, ?_⟩
  have spans := any_spans_issues_iff found
  unfold tidied
  by_cases clean : isClean line = true
  · rw [if_pos clean, writtenEq]
    apply deleteColumns_eq_self
    intro column
    rw [Bool.eq_false_iff, Ne, spans, clean]
    nofun
  · obtain ⟨blanks, lineEq, _⟩ := exists_content_append line.text
    have lengths := congrArg List.length lineEq
    rw [List.length_append] at lengths
    rw [Bool.not_eq_true] at clean
    rw [clean, if_neg Bool.false_ne_true, writtenEq]
    conv_lhs => rw [lineEq]
    apply deleteColumns_append
    intro column
    rw [spans, lengths]
    exact and_iff_right clean

/-- A document with text keeps some. -/
theorem text_deleting_ne_nil (someText : document.text ≠ []) :
    (document.deleting (issues document)).text ≠ [] := by
  intro nothing
  have pieces := document.splitOn_deleting (issues document)
  rw [nothing] at pieces
  obtain ⟨written, onlyPiece, nothingLeft⟩ := List.mapIdx_eq_singleton_iff.mp pieces.symm
  have isWritten : (splitOn '\n' document.text)[0]? = some written := by
    rw [onlyPiece]
    rfl
  obtain ⟨line, ending, _, _, _, writtenEq, keptEq⟩ :=
    exists_deleteColumns_eq someText isWritten
  obtain ⟨nothingTidied, noEnding⟩ := List.append_eq_nil_iff.mp (keptEq.symm.trans nothingLeft)
  have noLine : line.text = [] := by
    by_contra someLine
    exact tidied_ne_nil someLine nothingTidied
  rw [noLine, noEnding] at writtenEq
  have textEq := joinWith_splitOn '\n' document.text
  rw [onlyPiece, writtenEq] at textEq
  exact someText textEq.symm

theorem lines_deleting (meet : ReturnsMeetFeeds document.text) :
    (document.deleting (issues document)).lines = document.scan.map tidied := by
  by_cases empty : document.text = []
  · obtain ⟨text⟩ := document
    subst empty
    rfl
  · rw [Document.lines_eq_map (text_deleting_ne_nil empty), Document.splitOn_deleting]
    apply List.ext_getElem?
    intro index
    rw [List.getElem?_map, List.getElem?_mapIdx, List.getElem?_map]
    cases isWritten : (splitOn '\n' document.text)[index]? with
    | none =>
        have noLine : document.scan[index]? = none := by
          rw [← Option.map_eq_none_iff, ← List.getElem?_map, Document.map_text_scan,
            Document.lines_eq_map empty, List.getElem?_map, isWritten]
          rfl
        rw [noLine]
        rfl
    | some written =>
        obtain ⟨line, ending, found, textEq, isEnding, _, keptEq⟩ :=
          exists_deleteColumns_eq empty isWritten
        have absent : '\r' ∉ tidied line := by
          intro member
          have inLine := (tidied_isPrefix line).subset member
          rw [textEq] at inLine
          exact meet.not_mem_dropReturn (List.mem_of_getElem? isWritten) inLine
        rw [found, Option.map_some, Option.map_some, keptEq, Option.map_some,
          dropReturn_append_ending absent isEnding]

end NoTrailingWhitespace

/-- The spans of all issues of the rule are deleted from a document in which each carriage return is
directly followed by a line feed. Then the rule reports nothing any more, and scanning gives line by
line what it gave, except that some lines and their code have less white space at their end. -/
theorem NoTrailingWhitespace.check_deleting (document : Document) (options : RuleOptions)
    (meet : ReturnsMeetFeeds document.text) :
    ∃ issues, rule.check document options = .ok issues ∧
      rule.check (document.deleting issues) options = .ok [] ∧
      List.Forall₂ ScannedLine.IsStrippedTo document.scan (document.deleting issues).scan := by
  obtain ⟨stripped, clean⟩ := scanNumbered_tidied {} 0 document.lines
  have scanEq : (document.deleting (issues document)).scan =
      ({} : Scanner).scanNumbered (numberedFrom 0 (document.scan.map tidied)) := by
    rw [← lines_deleting meet]
    rfl
  have noIssue : issues (document.deleting (issues document)) = [] := by
    apply List.filterMap_eq_nil_iff.mpr
    intro entry member
    have inScan := List.fst_mem_of_mem_zipIdx member
    rw [scanEq] at inScan
    rw [issueOfLine?_eq, if_pos (clean entry.1 inScan)]
  refine ⟨issues document, rfl, ?_, ?_⟩
  · exact congrArg Except.ok noIssue
  · rw [scanEq]
    exact stripped

theorem NoTrailingWhitespace.check_deleting_template :
    let document := Document.ofString "a; \t\r\n`b \n` "
    ReturnsMeetFeeds document.text ∧
      (document.deleting (issues document)).text = "a;\r\n`b \n`".toList ∧
      ∃ issues, rule.check document .enabled = .ok issues ∧
        rule.check (document.deleting issues) .enabled = .ok [] ∧
        List.Forall₂ ScannedLine.IsStrippedTo document.scan (document.deleting issues).scan :=
  ⟨by decide, by decide, check_deleting _ _ (by decide)⟩

end ScriptLint
