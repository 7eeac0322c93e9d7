import ScriptLint.Registry
import ScriptLint.Proofs.Document.Terminators
import ScriptLint.Proofs.Text.Extension

/-!
# Empty lines below a document

No rule reports anything on an empty line, and none is misled by the empty lines that pad a document:
they carry no code, so no line is followed by other code than before, and a body that ends with the
document counts as spaced with or without them.
-/

namespace ScriptLint

open Text Text.Pattern

/-- The rule gives for a padded document what it gives for the document. -/
def Rule.IgnoresPadding (rule : Rule) : Prop :=
  ∀ document padded, document.IsPaddedTo padded → ∀ options,
    rule.check padded options = rule.check document options

/-! ## Numbered lines -/

section Numbered

variable {α β ε : Type} {items more : List α}

theorem flatMap_zipIdx_append {results : α × Nat → List β}
    (nothing : ∀ item ∈ more, ∀ index, results (item, index) = []) :
    (items ++ more).zipIdx.flatMap results = items.zipIdx.flatMap results := by
  have noMore : (more.zipIdx (0 + items.length)).flatMap results = [] := by
    rw [List.flatMap_eq_nil_iff]
    exact fun entry member => nothing entry.1 (List.fst_mem_of_mem_zipIdx member) entry.2
  rw [List.zipIdx_append, List.flatMap_append, noMore, List.append_nil]

theorem filterMap_zipIdx_append {result? : α × Nat → Option β}
    (nothing : ∀ item ∈ more, ∀ index, result? (item, index) = none) :
    (items ++ more).zipIdx.filterMap result? = items.zipIdx.filterMap result? := by
  rw [List.filterMap_eq_flatMap_toList, List.filterMap_eq_flatMap_toList]
  apply flatMap_zipIdx_append
  intro item member index
  rw [nothing item member index]
  rfl

theorem mapM_congr {step other : α → Except ε β} (same : ∀ item ∈ items, step item = other item) :
    items.mapM step = items.mapM other := by
  induction items with
  | nil => rfl
  | cons item rest inductionHypothesis =>
      rw [List.forall_mem_cons] at same
      rw [List.mapM_cons, List.mapM_cons, same.1, inductionHypothesis same.2]

theorem mapM_bind_flatten_cons {γ : Type} (step : α → Except ε (List β)) (item : α)
    (rest : List α) (next : List β → Except ε γ) :
    ((item :: rest).mapM step >>= fun results => next results.flatten) =
      (step item >>= fun first =>
        rest.mapM step >>= fun results => next (first ++ results.flatten)) := by
  rw [List.mapM_cons]
  cases step item with
  | error failure => rfl
  | ok first =>
      cases rest.mapM step with
      | error failure => rfl
      | ok results => rfl

/-- A step that gives nothing for further items does not change what is made of all results. -/
theorem mapM_append_bind_flatten {γ : Type} {step : α → Except ε (List β)}
    (nothing : ∀ item ∈ more, step item = .ok []) (next : List β → Except ε γ) :
    ((items ++ more).mapM step >>= fun results => next results.flatten) =
      (items.mapM step >>= fun results => next results.flatten) := by
  induction items generalizing next with
  | nil =>
      induction more generalizing next with
      | nil => rfl
      | cons item rest inductionHypothesis =>
          rw [List.forall_mem_cons] at nothing
          rw [List.nil_append, mapM_bind_flatten_cons, nothing.1]
          exact inductionHypothesis nothing.2 next
  | cons item rest inductionHypothesis =>
      rw [List.cons_append, mapM_bind_flatten_cons, mapM_bind_flatten_cons]
      -- what the item gives becomes part of what is done with the results of the rest
      exact congrArg (step item >>= ·) (funext fun first =>
        inductionHypothesis fun results => next (first ++ results))

theorem mapM_zipIdx_append {γ : Type} {step : α × Nat → Except ε (List β)}
    (nothing : ∀ item ∈ more, ∀ index, step (item, index) = .ok [])
    (next : List β → Except ε γ) :
    ((items ++ more).zipIdx.mapM step >>= fun results => next results.flatten) =
      (items.zipIdx.mapM step >>= fun results => next results.flatten) := by
  rw [List.zipIdx_append]
  exact mapM_append_bind_flatten
    (fun entry member => nothing entry.1 (List.fst_mem_of_mem_zipIdx member) entry.2) next

end Numbered

/-! ## Lines with what follows them -/

namespace PlacedLine

variable {extra : List ScannedLine}

/-- The line with further lines below it. -/
def pad (extra : List ScannedLine) (placed : PlacedLine) : PlacedLine :=
  { placed with following := placed.following ++ extra }

theorem ofLines_append (start : Nat) (lines extra : List ScannedLine) :
    ofLines start (lines ++ extra) =
      (ofLines start lines).map (pad extra) ++ ofLines (start + lines.length) extra := by
  induction lines generalizing start with
  | nil => rfl
  | cons line rest inductionHypothesis =>
      rw [List.cons_append, ofLines, inductionHypothesis, ofLines, List.map_cons, List.length_cons,
        Nat.add_right_comm, Nat.add_assoc, List.cons_append]
      rfl

theorem nextCode?_pad (empty : ∀ line ∈ extra, line.IsEmpty) (placed : PlacedLine) :
    (placed.pad extra).nextCode? = placed.nextCode? := by
  have noCode : extra.find? ScannedLine.isCode = none := by
    rw [List.find?_eq_none]
    exact fun line member => ne_true_of_eq_false (empty line member).isCode
  rw [nextCode?, nextCode?, pad, List.find?_append, noCode, Option.or_none]

theorem line_mem_of_mem_ofLines {start : Nat} {lines : List ScannedLine} {placed : PlacedLine}
    (member : placed ∈ ofLines start lines) : placed.line ∈ lines :=
  List.fst_mem_of_mem_zipIdx (mem_zipIdx_of_mem_ofLines member)

/-- A report on lines and the code that follows them. -/
theorem filterMap_ofLines_append {issueOf? : PlacedLine → Option Issue}
    (nothing : ∀ placed : PlacedLine, placed.line ∈ extra → issueOf? placed = none)
    (same : ∀ placed, issueOf? (placed.pad extra) = issueOf? placed) (lines : List ScannedLine) :
    (ofLines 0 (lines ++ extra)).filterMap issueOf? = (ofLines 0 lines).filterMap issueOf? := by
  have noMore : (ofLines (0 + lines.length) extra).filterMap issueOf? = [] := by
    rw [List.filterMap_eq_nil_iff]
    exact fun placed member => nothing placed (line_mem_of_mem_ofLines member)
  have sameFunction : issueOf? ∘ pad extra = issueOf? := funext same
  rw [ofLines_append, List.filterMap_append, noMore, List.append_nil, List.filterMap_map,
    sameFunction]

end PlacedLine

variable {document padded : Document}

/-! ## Lines on their own -/

theorem MaxLineLength.ignoresPadding : rule.IgnoresPadding := by
  intro document padded pads options
  obtain ⟨count, linesEq⟩ := pads.lines_eq
  have same : ∀ limit, issues limit padded = issues limit document := by
    intro limit
    rw [issues, issues, linesEq]
    apply filterMap_zipIdx_append
    intro line member index
    rw [List.eq_of_mem_replicate member, issueOfLine?]
    exact if_neg (by simp)
  simp only [rule, same]

theorem NoTrailingWhitespace.ignoresPadding : rule.IgnoresPadding := by
  intro document padded pads options
  obtain ⟨extra, scanEq, empty⟩ := pads.exists_scan
  have same : issues padded = issues document := by
    rw [issues, issues, scanEq]
    apply filterMap_zipIdx_append
    intro line member index
    simp only [issueOfLine?, (empty line member).isBlank, Bool.true_or, if_true]
  simp only [rule, same]

theorem ArrayCopy.ignoresPadding : rule.IgnoresPadding := by
  intro document padded pads options
  obtain ⟨count, linesEq⟩ := pads.lines_eq
  have same : codeLines padded = codeLines document := by
    rw [codeLines, codeLines, linesEq]
    apply filterMap_zipIdx_append
    intro line member index
    rw [List.eq_of_mem_replicate member]
    rfl
  simp only [rule, issues, same]

theorem Indent.ignoresPadding : rule.IgnoresPadding := by
  intro document padded pads options
  obtain ⟨extra, scanEq, empty⟩ := pads.exists_scan
  have same : ∀ indentation, issues indentation padded = issues indentation document := by
    intro indentation
    rw [issues, issues, scanEq]
    refine mapM_zipIdx_append (fun line member index => ?_) _
    simp only [issuesOfLine, (empty line member).beginsCode, Bool.not_false, Bool.true_or, if_true]
  simp only [rule, same]

/-! ## Matches in the code -/

theorem RuleInfo.reportMatches_padded (info : RuleInfo) (pattern : Pattern)
    (report : Match → Option Finding) (pads : document.IsPaddedTo padded) :
    info.reportMatches pattern report padded = info.reportMatches pattern report document := by
  obtain ⟨extra, scanEq, empty⟩ := pads.exists_scan
  rw [reportMatches, reportMatches, scanEq]
  refine mapM_zipIdx_append (fun line member index => ?_) fun issues => .ok (Issue.sorted issues)
  simp only [(empty line member).isCode, Bool.false_eq_true, if_false]

theorem Quotes.ignoresPadding : rule.IgnoresPadding := by
  intro document padded pads options
  simp only [rule, RuleInfo.reportMatches_padded _ _ _ pads]

theorem NoConsole.ignoresPadding : rule.IgnoresPadding :=
  fun _ _ pads _ => RuleInfo.reportMatches_padded _ _ _ pads

theorem NoVar.ignoresPadding : rule.IgnoresPadding :=
  fun _ _ pads _ => RuleInfo.reportMatches_padded _ _ _ pads

theorem NoAny.ignoresPadding : rule.IgnoresPadding :=
  fun _ _ pads _ => RuleInfo.reportMatches_padded _ _ _ pads

/-! ## Lines and the code below them -/

theorem Semicolons.ignoresPadding : rule.IgnoresPadding := by
  intro document padded pads options
  obtain ⟨extra, scanEq, empty⟩ := pads.exists_scan
  have same : ∀ style, issues style padded = issues style document := by
    intro style
    rw [issues, issues, Document.placedLines, Document.placedLines, scanEq]
    apply PlacedLine.filterMap_ofLines_append
    · intro placed member
      have noCode := (empty placed.line member).beginsCode
      simp only [issueOfLine?, endsStatement, noCode, Bool.false_and, Bool.false_eq_true, if_false]
    · intro placed
      simp only [issueOfLine?, endsStatement, PlacedLine.nextCode?_pad empty]
      rfl
  simp only [rule, same]

theorem TrailingComma.ignoresPadding : rule.IgnoresPadding := by
  intro document padded pads options
  obtain ⟨extra, scanEq, empty⟩ := pads.exists_scan
  have same : issues padded = issues document := by
    rw [issues, issues, Document.placedLines, Document.placedLines, scanEq]
    apply PlacedLine.filterMap_ofLines_append
    · intro placed member
      have noCode := (empty placed.line member).beginsCode
      simp only [issueOfLine?, noCode, Bool.false_and, Bool.false_eq_true, if_false]
    · intro placed
      simp only [issueOfLine?, PlacedLine.nextCode?_pad empty]
      rfl
  simp only [rule, same]

/-! ## Names -/

/-- Lines without code below a document can decide only whether it is an entry point. -/
theorem Outline.ofDocument_append {longer : Document} {extra : List ScannedLine}
    (scanEq : longer.scan = document.scan ++ extra) (bare : ∀ line ∈ extra, line.trimmed = []) :
    Outline.ofDocument longer =
      { Outline.ofDocument document with isEntryPoint := endsInDefaultExport longer.text } := by
  have noCode : ∀ line ∈ extra, ¬ line.beginsCode = true := fun line member =>
    ne_true_of_eq_false (ScannedLine.beginsCode_of_trimmed_eq_nil (bare line member))
  have sameClasses : classesOf longer.scan.zipIdx = classesOf document.scan.zipIdx := by
    rw [classesOf, classesOf, scanEq]
    apply flatMap_zipIdx_append
    exact fun line member index => if_neg (noCode line member)
  have sameDeclarations : ∀ classes,
      declarationsOf classes longer.scan.zipIdx = declarationsOf classes document.scan.zipIdx := by
    intro classes
    rw [declarationsOf, declarationsOf, scanEq]
    apply flatMap_zipIdx_append
    exact fun line member index => if_neg (noCode line member)
  simp only [ofDocument, sameClasses, sameDeclarations]

theorem Outline.ofDocument_padded (pads : document.IsPaddedTo padded) :
    Outline.ofDocument padded = Outline.ofDocument document := by
  obtain ⟨extra, scanEq, empty⟩ := pads.exists_scan
  rw [ofDocument_append scanEq fun line member => (empty line member).trimmed, pads.entry_eq]
  rfl

theorem NamingConvention.ignoresPadding : rule.IgnoresPadding := by
  intro document padded pads options
  simp only [rule, issues, Outline.ofDocument_padded pads]

namespace UeNamingConvention

theorem isMarked_append {extra : List ScannedLine} (bare : ∀ line ∈ extra, line.trimmed = [])
    (lines : List ScannedLine) (index : Nat) :
    isMarked (lines ++ extra) index = isMarked lines index := by
  have noMarker : markerDecorator.occursIn [] = false := by
    decide
  have noneMarked : ∀ count skipped, ((extra.take count).drop skipped).any
      (fun line => markerDecorator.occursIn line.trimmed) = false := by
    intro count skipped
    rw [List.any_eq_false]
    intro line member
    have isExtra := List.mem_of_mem_take (List.mem_of_mem_drop member)
    rw [bare line isExtra, noMarker]
    exact Bool.false_ne_true
  rw [isMarked, isMarked, List.take_append, List.drop_append, List.any_append, noneMarked,
    Bool.or_false]

theorem ignoresPadding : rule.IgnoresPadding := by
  intro document padded pads options
  obtain ⟨extra, scanEq, empty⟩ := pads.exists_scan
  have bare : ∀ line ∈ extra, line.trimmed = [] := fun line member => (empty line member).trimmed
  have sameReport : isReported padded.scan = isReported document.scan := by
    funext declaration
    rw [isReported, isReported, scanEq, isMarked_append bare]
  simp only [rule, issues, Outline.ofDocument_padded pads, sameReport]

end UeNamingConvention

/-! ## Bodies of functions -/

namespace FunctionEmptyLine

variable {extra : List ScannedLine}

/-- A body that ends with the document is spaced, and so is one that goes on with empty lines. -/
theorem isSpaced_append (empty : ∀ line ∈ extra, line.IsEmpty) (lines : List ScannedLine) :
    isSpaced (lines ++ extra) = isSpaced lines := by
  induction lines with
  | nil =>
      cases extra with
      | nil => rfl
      | cons line rest =>
          have blank := (empty line List.mem_cons_self).isBlank
          simp only [List.nil_append, isSpaced, blank, if_true]
  | cons line rest inductionHypothesis =>
      rw [List.cons_append, isSpaced, isSpaced, inductionHypothesis]

theorem bodyBrace?_ofLines (empty : ∀ line ∈ extra, line.IsEmpty) (depth start : Nat) :
    bodyBrace? depth (PlacedLine.ofLines start extra) = none := by
  induction extra generalizing start with
  | nil => rfl
  | cons line rest inductionHypothesis =>
      rw [List.forall_mem_cons] at empty
      rw [PlacedLine.ofLines, bodyBrace?, empty.1.isCode]
      exact inductionHypothesis empty.2 (start + 1)

theorem bodyBrace?_append (empty : ∀ line ∈ extra, line.IsEmpty) (depth start : Nat)
    (lines : List PlacedLine) :
    bodyBrace? depth (lines.map (PlacedLine.pad extra) ++ PlacedLine.ofLines start extra) =
      (bodyBrace? depth lines).map (PlacedLine.pad extra) := by
  induction lines with
  | nil => exact bodyBrace?_ofLines empty depth start
  | cons placed rest inductionHypothesis =>
      have sameLine : (placed.pad extra).line = placed.line := rfl
      simp only [List.map_cons, List.cons_append, bodyBrace?, sameLine, inductionHypothesis]
      split
      · rfl
      · split
        · rfl
        · split
          · split
            · rfl
            · rfl
          · rfl

theorem issueOfHead?_append (empty : ∀ line ∈ extra, line.IsEmpty) (kind : HeadKind)
    (depth start : Nat) (lines : List PlacedLine) :
    issueOfHead? kind depth (lines.map (PlacedLine.pad extra) ++ PlacedLine.ofLines start extra) =
      issueOfHead? kind depth lines := by
  simp only [issueOfHead?, bodyBrace?_append empty]
  cases bodyBrace? depth lines with
  | none => rfl
  | some brace => simp only [Option.map_some, PlacedLine.pad, isSpaced_append empty]

theorem issuesOfLines_ofLines (empty : ∀ line ∈ extra, line.IsEmpty) (start : Nat) :
    issuesOfLines (PlacedLine.ofLines start extra) = [] := by
  induction extra generalizing start with
  | nil => rfl
  | cons line rest inductionHypothesis =>
      rw [List.forall_mem_cons] at empty
      simp only [PlacedLine.ofLines, issuesOfLines, empty.1.beginsCode,
        inductionHypothesis empty.2]
      rfl

theorem issuesOfLines_append (empty : ∀ line ∈ extra, line.IsEmpty) (start : Nat)
    (lines : List ScannedLine) :
    issuesOfLines (PlacedLine.ofLines start (lines ++ extra)) =
      issuesOfLines (PlacedLine.ofLines start lines) := by
  induction lines generalizing start with
  | nil => exact issuesOfLines_ofLines empty start
  | cons line rest inductionHypothesis =>
      have sameIssue : ∀ kind depth,
          issueOfHead? kind depth (PlacedLine.ofLines start (line :: (rest ++ extra))) =
            issueOfHead? kind depth (PlacedLine.ofLines start (line :: rest)) := by
        intro kind depth
        rw [← List.cons_append, PlacedLine.ofLines_append, issueOfHead?_append empty]
      simp only [PlacedLine.ofLines] at sameIssue
      simp only [List.cons_append, PlacedLine.ofLines, issuesOfLines, inductionHypothesis,
        sameIssue]

theorem ignoresPadding : rule.IgnoresPadding := by
  intro document padded pads options
  obtain ⟨extra, scanEq, empty⟩ := pads.exists_scan
  simp only [rule, Document.placedLines, scanEq, issuesOfLines_append empty]

end FunctionEmptyLine

/-! ## Empty functions -/

theorem takeWhile_append_singleton_of_neg {α : Type} {test : α → Bool} {last : α}
    (fails : ¬ test last = true) (items : List α) :
    (items ++ [last]).takeWhile test = items.takeWhile test := by
  induction items with
  | nil => exact List.takeWhile_cons_of_neg fails
  | cons item rest inductionHypothesis =>
      rw [List.cons_append, List.takeWhile_cons, List.takeWhile_cons, inductionHypothesis]

/-- A line feed at the end changes no coordinates in front of it. -/
theorem lineColumn_append_feed {letters : List Char} {position : Nat}
    (inside : position ≤ byteLength letters) :
    lineColumn (lineStarts (letters ++ ['\n'])) position =
      lineColumn (lineStarts letters) position := by
  have startsEq : lineStarts (letters ++ ['\n']) =
      lineStarts letters ++ [0 + byteLength letters + 1] := by
    rw [lineStarts, startsAfter_append]
    rfl
  have reached : (lineStarts letters ++ [0 + byteLength letters + 1]).takeWhile (· ≤ position) =
      (lineStarts letters).takeWhile (· ≤ position) := by
    apply takeWhile_append_singleton_of_neg
    rw [decide_eq_true_eq]
    omega
  obtain ⟨start, found, _⟩ := exists_getElem?_lineColumn letters position
  have below := (List.getElem?_eq_some_iff.mp found).1
  simp only [lineColumn] at below
  simp only [lineColumn, startsEq, reached, List.getD_append _ _ _ _ below]

namespace NoEmptyFunctions

theorem asksForEnd_emptyFunction : emptyFunction.asksForEnd = false := rfl

theorem closesWith_emptyFunction : emptyFunction.ClosesWith (· ≠ '\n') := by
  refine Or.inl (Or.inl fun letter same => ?_)
  rw [beq_iff_eq.mp same]
  decide

/-- A match stands on one of the lines of the document. -/
theorem line_lt_of_mem_searchAll {found : Match}
    (member : found ∈ emptyFunction.searchAll document.joined) (position : Nat) :
    (lineColumn (lineStarts document.joined) position).1 < document.scan.length := by
  have nonempty : document.lines ≠ [] := by
    intro noLines
    have noMatch : emptyFunction.searchAll [] = [] := by
      decide
    rw [Document.joined, noLines, joinWith, noMatch] at member
    exact absurd member List.not_mem_nil
  have lengthEq : (lineStarts document.joined).length = document.scan.length := by
    rw [length_lineStarts, ← length_splitOn, Document.splitOn_joined nonempty,
      ← Document.map_text_scan, List.length_map]
  obtain ⟨start, startFound, _⟩ := exists_getElem?_lineColumn document.joined position
  rw [← lengthEq]
  exact (List.getElem?_eq_some_iff.mp startFound).1

theorem issueOfMatch?_congr {starts others : List Nat} {lines more : Array ScannedLine}
    {found : Match}
    (sameStart : lineColumn others found.whole.start = lineColumn starts found.whole.start)
    (sameStop : lineColumn others found.whole.stop = lineColumn starts found.whole.stop)
    (sameLine : more[(lineColumn starts found.whole.start).1]? =
      lines[(lineColumn starts found.whole.start).1]?) :
    issueOfMatch? others more found = issueOfMatch? starts lines found := by
  simp only [issueOfMatch?, sameStart, sameStop, sameLine]

theorem ignoresPadding : rule.IgnoresPadding := by
  intro document padded pads options
  obtain ⟨extra, scanEq, empty⟩ := pads.exists_scan
  have sameMatches : emptyFunction.searchAll padded.joined =
      emptyFunction.searchAll document.joined := by
    rcases pads.joined_eq with same | longer
    · rw [same]
    · rw [longer]
      exact searchAll_append (by decide) asksForEnd_emptyFunction closesWith_emptyFunction _
  have sameCoordinates : ∀ position ≤ byteLength document.joined,
      lineColumn (lineStarts padded.joined) position =
        lineColumn (lineStarts document.joined) position := by
    intro position inside
    rcases pads.joined_eq with same | longer
    · rw [same]
    · rw [longer, lineColumn_append_feed inside]
  have sameIssue : ∀ found ∈ emptyFunction.searchAll document.joined,
      issueOfMatch? (lineStarts padded.joined) padded.scan.toArray found =
        issueOfMatch? (lineStarts document.joined) document.scan.toArray found := by
    intro found member
    obtain ⟨before, after, joinedEq, startEq, stopEq⟩ :=
      (isMatch_of_mem_searchAll member).whole_isIn
    have lengthEq := congrArg byteLength joinedEq
    rw [byteLength_append, byteLength_append] at lengthEq
    apply issueOfMatch?_congr (sameCoordinates _ (by omega)) (sameCoordinates _ (by omega))
    rw [scanEq, List.getElem?_toArray, List.getElem?_toArray,
      List.getElem?_append_left (line_lt_of_mem_searchAll member _)]
  simp only [rule, issues, sameMatches, mapM_congr sameIssue]

end NoEmptyFunctions

/-! ## The catalogue -/

theorem Registry.ignoresPadding {rule : Rule} (member : rule ∈ catalogue) :
    rule.IgnoresPadding := by
  simp only [catalogue, List.mem_cons, List.not_mem_nil, or_false] at member
  rcases member with rfl | rfl | rfl | rfl | rfl | rfl | rfl | rfl | rfl | rfl | rfl | rfl | rfl | rfl
  · exact MaxLineLength.ignoresPadding
  · exact Indent.ignoresPadding
  · exact Semicolons.ignoresPadding
  · exact Quotes.ignoresPadding
  · exact NoConsole.ignoresPadding
  · exact NoVar.ignoresPadding
  · exact NoAny.ignoresPadding
  · exact NoEmptyFunctions.ignoresPadding
  · exact NoTrailingWhitespace.ignoresPadding
  · exact NamingConvention.ignoresPadding
  · exact UeNamingConvention.ignoresPadding
  · exact FunctionEmptyLine.ignoresPadding
  · exact ArrayCopy.ignoresPadding
  · exact TrailingComma.ignoresPadding

end ScriptLint
