import ScriptLint.Proofs.Rule.Order
import ScriptLint.Proofs.Source.Literals
import ScriptLint.Proofs.Text.Leftmost
import Mathlib.Data.List.Pairwise
import Mathlib.Data.List.Sort

/-!
# String literals and quotes

The scanner passes string literals while it reads a line, and the rule for quotes searches the code
of the line for them. The search knows nothing of template literals and regular expressions, so a
quote in one of them is a first quote to it. It is said here exactly when the two agree: no match
begins at such a quote, unless it lies in a template literal and reaches over no string.
-/

namespace ScriptLint

open Text Text.Pattern

theorem Issue.sorted_eq_self {issues : List Issue} (ascending : Issue.IsAscending issues) :
    Issue.sorted issues = issues := by
  apply List.mergeSort_of_pairwise
  refine ascending.imp fun ordered => ?_
  simpa only [Issue.notAfter, Bool.or_eq_true, Bool.and_eq_true, decide_eq_true_eq, beq_iff_eq]
    using ordered

theorem Text.Span.IsIn.isBoundary_start {letters : List Char} {span : Span}
    (inText : span.IsIn letters) : IsBoundary letters span.start := by
  obtain ⟨before, after, lettersEq, startEq, _⟩ := inText
  exact ⟨before, span.letters ++ after, by rw [lettersEq, List.append_assoc], startEq.symm⟩

/-- Positions of characters are told apart by their columns. -/
theorem Text.IsBoundary.eq_of_charColumn_eq {line : List Char} {position other : Nat}
    (boundary : IsBoundary line position) (boundaryOther : IsBoundary line other)
    (same : charColumn line position = charColumn line other) : position = other := by
  obtain ⟨before, after, lineEq, measured⟩ := boundary
  obtain ⟨front, back, shape, measuredOther⟩ := boundaryOther
  have column := charColumn_append before after
  have columnOther := charColumn_append front back
  rw [← lineEq, measured] at column
  rw [← shape, measuredOther] at columnOther
  have sameLength : before.length = front.length := by
    rw [← column, ← columnOther, same]
  have sameFront := List.append_inj_left (lineEq.symm.trans shape) sameLength
  rw [← measured, ← measuredOther, sameFront]

theorem Document.length_scan (document : Document) : document.scan.length = document.lineCount := by
  rw [lineCount, ← map_text_scan, List.length_map]

theorem Document.exists_getElem?_scan {document : Document} {index : Nat}
    (below : index < document.lineCount) : ∃ line, document.scan[index]? = some line := by
  rw [← length_scan] at below
  exact ⟨_, List.getElem?_eq_getElem below⟩

/-- A rule that reports the matches in the code reports those of every line of code. -/
theorem RuleInfo.mem_of_reportMatches {info : RuleInfo} {pattern : Pattern}
    {report : Match → Option Finding} {document : Document} {issues : List Issue} {issue : Issue}
    (reported : info.reportMatches pattern report document = .ok issues) :
    issue ∈ issues ↔ ∃ index line, document.scan[index]? = some line ∧ line.isCode = true ∧
      ∃ found ∈ pattern.searchAll line.code,
        info.issueOfMatch? report index line found = .ok (some issue) := by
  obtain ⟨results, resultsEq, same⟩ := exists_of_bind_eq_ok reported
  cases same
  rw [Issue.mem_sorted, List.mem_flatten]
  constructor
  · rintro ⟨own, isResult, member⟩
    obtain ⟨⟨line, index⟩, isEntry, ownEq⟩ := exists_of_mem_mapM resultsEq isResult
    dsimp only at ownEq
    split at ownEq
    · next isCode =>
        obtain ⟨found, foundEq, same⟩ := exists_of_bind_eq_ok ownEq
        cases same
        obtain ⟨option, isOption, optionEq⟩ := List.mem_filterMap.mp member
        obtain ⟨whole, isMatch, wholeEq⟩ := exists_of_mem_mapM foundEq isOption
        have isLine := List.mem_zipIdx_iff_getElem?.mp isEntry
        exact ⟨index, line, isLine, isCode, whole, isMatch, optionEq ▸ wholeEq⟩
    · cases ownEq
      exact absurd member List.not_mem_nil
  · rintro ⟨index, line, isLine, isCode, whole, isMatch, wholeEq⟩
    have isEntry : (line, index) ∈ document.scan.zipIdx :=
      List.mem_zipIdx_iff_getElem?.mpr isLine
    obtain ⟨own, isResult, ownEq⟩ := exists_result_of_mapM resultsEq isEntry
    dsimp only at ownEq
    rw [if_pos isCode] at ownEq
    obtain ⟨found, foundEq, same⟩ := exists_of_bind_eq_ok ownEq
    cases same
    obtain ⟨option, isOption, optionEq⟩ := exists_result_of_mapM foundEq isMatch
    cases wholeEq.symm.trans optionEq
    exact ⟨_, isResult, List.mem_filterMap.mpr ⟨some issue, isOption, rfl⟩⟩

/-! ## What the pattern prefers -/

namespace Quotes

variable {before body after letters : List Char} {style : QuoteStyle} {limit : Nat}

/-- A letter of a string that stands for itself. -/
def plain (quote : Char) : Pattern := one fun letter => letter != quote && letter != '\\'

/-- A backslash with the letter behind it. -/
def escape : Pattern := sequence (literal "\\") (noneOf "\n")

theorem literalIn_eq (quote : Char) : literalIn quote =
    inOrder [one (· == quote), many (choice (plain quote) escape), one (· == quote)] := rfl

theorem plain_misses (style : QuoteStyle) {letter : Char} (rest : List Char)
    (stops : letter = style.quote ∨ letter = '\\') :
    (plain style.quote).Misses before (letter :: rest) := by
  apply misses_one
  rcases stops with rfl | rfl
  · exact endsClass_cons (by rw [bne_self_eq_false, Bool.false_and]) rest
  · exact endsClass_cons (by rw [bne_self_eq_false, Bool.and_false]) rest

theorem escape_misses {letter : Char} (rest : List Char) (other : letter ≠ '\\') :
    escape.Misses before (letter :: rest) := by
  apply misses_sequence
  apply misses_literal
  intro spelled
  obtain ⟨rest, same⟩ := spelled
  exact other (List.cons.inj same).1.symm

theorem escape_prefers {letter : Char} (inLine : letter ≠ '\n') :
    escape.Prefers before ['\\', letter] after [] := by
  have accepted : (!"\n".toList.contains letter) = true := by
    simpa using inLine
  exact (Prefers.literal "\\").sequence (.one accepted)

/-- The repetition runs over the letters of a string and stops at its last quote. -/
theorem head?_repeatMany_body (isBody : IsStringBody style.quote body)
    (inLine : '\n' ∉ body) {count : Nat} (enough : body.length ≤ count)
    (bounded : (body ++ style.quote :: after).length ≤ limit) (groups : List (Nat × Span)) :
    (Reached.repeatMany (ends limit (choice (plain style.quote) escape)) count
      ⟨.between before (body ++ style.quote :: after), groups⟩ []).head? =
        some ⟨.between (before ++ body) (style.quote :: after), groups⟩ := by
  induction isBody generalizing before count with
  | nil =>
      have noEscape : style.quote ≠ '\\' := by cases style with | single | double => decide
      have stops : ends limit (choice (plain style.quote) escape)
          ⟨.between before (style.quote :: after), groups⟩ = [] := by
        rw [ends, (plain_misses style after (Or.inl rfl)).ends_eq_nil,
          (escape_misses after noEscape).ends_eq_nil]
        rfl
      rw [List.nil_append, List.append_nil, Reached.repeatMany_eq_singleton stops]
      rfl
  | @plain letter rest other noBackslash _ inductionHypothesis =>
      rw [List.mem_cons, not_or] at inLine
      have accepted : (letter != style.quote && letter != '\\') = true := by
        simp [other, noBackslash]
      have prefers : (choice (plain style.quote) escape).Prefers before [letter]
          (rest ++ style.quote :: after) [] := .preferred (.one accepted)
      obtain ⟨count, rfl⟩ : ∃ fewer, count = fewer + 1 :=
        Nat.exists_eq_add_one.mpr (Nat.lt_of_lt_of_le (Nat.succ_pos _) enough)
      have later := @inductionHypothesis (before ++ [letter]) inLine.2 count
        (Nat.le_of_succ_le_succ enough) (Nat.le_of_succ_le bounded)
      rw [List.append_assoc] at later
      exact prefers.head?_repeatMany (List.cons_ne_nil _ _) bounded later
  | @escaped letter rest _ inductionHypothesis =>
      rw [List.mem_cons, List.mem_cons, not_or, not_or] at inLine
      have prefers : (choice (plain style.quote) escape).Prefers before ['\\', letter]
          (rest ++ style.quote :: after) [] :=
        .other (plain_misses style _ (Or.inr rfl)) (escape_prefers (Ne.symm inLine.2.1))
      obtain ⟨count, rfl⟩ : ∃ fewer, count = fewer + 1 :=
        Nat.exists_eq_add_one.mpr (Nat.lt_of_lt_of_le (Nat.succ_pos _) enough)
      have enoughBehind : rest.length ≤ count :=
        Nat.le_of_succ_le (Nat.le_of_succ_le_succ enough)
      have boundedBehind : (rest ++ style.quote :: after).length ≤ limit :=
        Nat.le_of_succ_le (Nat.le_of_succ_le bounded)
      have later := @inductionHypothesis (before ++ ['\\', letter]) inLine.2.2 count enoughBehind
        boundedBehind
      rw [List.append_assoc] at later
      exact prefers.head?_repeatMany (List.cons_ne_nil _ _) bounded later

theorem literalIn_prefers (isBody : IsStringBody style.quote body) (inLine : '\n' ∉ body) :
    (literalIn style.quote).Prefers before (style.quote :: (body ++ [style.quote])) after [] := by
  have repeats : (many (choice (plain style.quote) escape)).Prefers (before ++ [style.quote]) body
      ([style.quote] ++ after) [] := by
    intro limit groups bounded
    have enough : body.length ≤ limit := by
      rw [List.length_append] at bounded
      omega
    rw [ends]
    exact head?_repeatMany_body isBody inLine enough bounded groups
  have quoted (before after : List Char) :
      (one (· == style.quote)).Prefers before [style.quote] after [] :=
    .one (beq_self_eq_true style.quote)
  rw [literalIn_eq]
  exact ((PrefersAll.last (quoted _ _)).pass repeats |>.pass (quoted _ _)).inOrder

/-- The pattern prefers a string literal to anything else that begins with its quote. -/
theorem stringLiteral_prefers (quoted : IsQuoted letters) (inLine : '\n' ∉ letters) :
    stringLiteral.Prefers before letters after [] := by
  obtain ⟨style, body, isBody, rfl⟩ := quoted
  have inBody : '\n' ∉ body := fun member =>
    inLine (List.mem_cons_of_mem _ (List.mem_append_left _ member))
  cases style with
  | single => exact .preferred (literalIn_prefers isBody inBody)
  | double =>
      have misses : (literalIn '\'').Misses before ('"' :: (body ++ ['"']) ++ after) :=
        misses_inOrder_cons (misses_one (endsClass_cons rfl _))
      exact .other misses (literalIn_prefers isBody inBody)

theorem stringLiteral_opens : stringLiteral.OpensWith fun letter =>
    ∃ style : QuoteStyle, letter = style.quote := by
  refine ⟨opensWith_inOrder_cons ?_, opensWith_inOrder_cons ?_⟩
  · exact fun letter same => ⟨.single, beq_iff_eq.mp same⟩
  · exact fun letter same => ⟨.double, beq_iff_eq.mp same⟩

/-! ## What is found on a line -/

/-- The spans of the literals that are found in a text. -/
def foundIn (letters : List Char) : List Span := (stringLiteral.searchAll letters).map (·.whole)

/-- What is found is a string literal of the line, or it begins inside a template literal and
touches no string literal. -/
def KeepsStrings (strings : List Span) (line : ScannedLine) (found : Span) : Prop :=
  found ∈ strings ∨ (line.isInTemplate found.start = true ∧
    ∀ string ∈ strings, found.stop ≤ string.start ∨ string.stop ≤ found.start)

theorem exists_quote_of_mem_foundIn {found : Span} (member : found ∈ foundIn letters) :
    ∃ style : QuoteStyle, ∃ rest, found.letters = style.quote :: rest ∧ found.IsIn letters := by
  obtain ⟨whole, wholeMember, rfl⟩ := List.mem_map.mp member
  have isMatch := isMatch_of_mem_searchAll wholeMember
  obtain ⟨letter, rest, lettersEq, style, rfl⟩ := isMatch.whole_opens stringLiteral_opens
  exact ⟨style, rest, lettersEq, isMatch.whole_isIn⟩

theorem pairwise_foundIn (letters : List Char) :
    (foundIn letters).Pairwise fun first second => first.stop ≤ second.start :=
  List.pairwise_map.mpr pairwise_searchAllFrom

theorem start_lt_stop {span : Span} {letter : Char} {rest : List Char}
    (begins : span.letters = letter :: rest) (isIn : span.IsIn letters) :
    span.start < span.stop := by
  obtain ⟨_, _, _, _, stopEq⟩ := isIn
  have size := letter.utf8Size_pos
  rw [begins, byteLength_cons] at stopEq
  omega

theorem start_lt_stop_of_mem_foundIn : ∀ found ∈ foundIn letters, found.start < found.stop := by
  intro found member
  obtain ⟨style, rest, lettersEq, isIn⟩ := exists_quote_of_mem_foundIn member
  exact start_lt_stop lettersEq isIn

section Apart

variable {spans : List Span}
  (apart : spans.Pairwise fun first second => first.stop ≤ second.start)
  (wide : ∀ span ∈ spans, span.start < span.stop)

include apart wide

theorem pairwise_start : spans.Pairwise fun first second => first.start < second.start :=
  apart.imp_of_mem fun isFirst _ behind => Nat.lt_of_lt_of_le (wide _ isFirst) behind

/-- Of spans that stand one behind the other, one that begins before another one ends before it. -/
theorem stop_le_start {first second : Span} (isFirst : first ∈ spans) (isSecond : second ∈ spans)
    (ordered : first.start < second.start) : first.stop ≤ second.start := by
  have different : first ≠ second := by
    rintro rfl
    exact Nat.lt_irrefl _ ordered
  have symmetric : Std.Symm fun first second : Span =>
      first.stop ≤ second.start ∨ second.stop ≤ first.start := ⟨fun _ _ => Or.symm⟩
  have either : spans.Pairwise fun first second =>
      first.stop ≤ second.start ∨ second.stop ≤ first.start := apart.imp Or.inl
  rcases either.forall isFirst isSecond different with ahead | behind
  · exact ahead
  · have widthSecond := wide second isSecond
    omega

end Apart

/-! ## Strings that are found -/

section Line

variable {document : Document} {index : Nat} {line : ScannedLine} {found string : Span}
  (closes : document.ClosesStrings) (isLine : document.scan[index]? = some line)

include closes isLine

theorem start_lt_stop_of_mem_stringsOn :
    ∀ string ∈ document.stringsOn index, string.start < string.stop := by
  intro string member
  obtain ⟨⟨style, body, _, lettersEq⟩, _, inCode⟩ :=
    Document.isIn_of_mem_stringsOn closes isLine member
  exact start_lt_stop lettersEq inCode

/-- At the place of a string the pattern prefers the string. -/
theorem matchAt?_of_mem_stringsOn (member : string ∈ document.stringsOn index) :
    ∃ before after, line.code = before ++ after ∧ byteLength before = string.start ∧
      matchAt? stringLiteral line.code.length (.between before after) = some ⟨string, []⟩ := by
  obtain ⟨quoted, ⟨front, back, textEq, _⟩, before, after, codeEq, startEq, stopEq⟩ :=
    Document.isIn_of_mem_stringsOn closes isLine member
  have inLine : '\n' ∉ string.letters := by
    have isText : line.text ∈ document.lines := by
      rw [← Document.map_text_scan]
      exact List.mem_map_of_mem (List.mem_of_getElem? isLine)
    have noFeed := Document.not_mem_of_mem_lines isText
    rw [textEq, List.mem_append, List.mem_append] at noFeed
    exact fun feed => noFeed (Or.inl (Or.inr feed))
  have spanEq : spanBehind before string.letters = string := by
    rw [spanBehind, ← startEq, ← stopEq]
  have bounded : (string.letters ++ after).length ≤ line.code.length := by
    rw [codeEq, List.append_assoc]
    exact (List.suffix_append before _).length_le
  have matched := (@stringLiteral_prefers before after _ quoted inLine).matchAt?_eq bounded
  rw [spanEq] at matched
  exact ⟨before, string.letters ++ after, by rw [codeEq, List.append_assoc], startEq.symm, matched⟩

/-- What is found where a string begins is the string. -/
theorem eq_of_start_eq (isFound : found ∈ foundIn line.code)
    (member : string ∈ document.stringsOn index) (same : found.start = string.start) :
    found = string := by
  obtain ⟨whole, wholeMember, rfl⟩ := List.mem_map.mp isFound
  obtain ⟨before, after, codeEq, measured, matched⟩ :=
    matchAt?_of_mem_stringsOn closes isLine member
  obtain ⟨front, back, shape, matchedWhole⟩ := matchAt?_of_mem_searchAll wholeMember
  have frontMeasured : byteLength front = string.start :=
    (start_of_matchAt? matchedWhole).symm.trans same
  have cut := splitAtByte?_eq_some_iff.mpr ⟨codeEq, measured⟩
  have cutWhole := splitAtByte?_eq_some_iff.mpr ⟨shape, frontMeasured⟩
  cases cut.symm.trans cutWhole
  cases matched.symm.trans matchedWhole
  rfl

/-- A string is found unless something that is found before reaches into it. -/
theorem mem_foundIn (member : string ∈ document.stringsOn index)
    (apart : ∀ earlier ∈ foundIn line.code,
      earlier.start < string.start → earlier.stop ≤ string.start) : string ∈ foundIn line.code := by
  obtain ⟨before, after, codeEq, measured, matched⟩ :=
    matchAt?_of_mem_stringsOn closes isLine member
  rw [codeEq, ← measured] at apart
  rw [codeEq] at matched ⊢
  exact List.mem_map.mpr ⟨_, mem_searchAll matched (List.forall_mem_map.mp apart), rfl⟩

/-- If the search keeps to the strings, what it finds outside template literals is the strings of
the line in their order. -/
theorem found_eq_stringsOn
    (keeps : ∀ found ∈ foundIn line.code, KeepsStrings (document.stringsOn index) line found) :
    (foundIn line.code).filter (fun found => !line.isInTemplate found.start) =
      document.stringsOn index := by
  let before (first second : Span) : Prop := first.start < second.start
  have : Std.Irrefl before := ⟨fun span => Nat.lt_irrefl span.start⟩
  have : Std.Antisymm before := ⟨fun first second ordered reversed =>
    absurd ordered (Nat.lt_asymm reversed)⟩
  have apart := document.pairwise_stringsOn index
  have wide := start_lt_stop_of_mem_stringsOn closes isLine
  have foundOrdered : (foundIn line.code).Pairwise before :=
    pairwise_start (pairwise_foundIn line.code) start_lt_stop_of_mem_foundIn
  refine (foundOrdered.filter _).eq_of_mem_iff (pairwise_start apart wide) fun span => ?_
  rw [List.mem_filter, Bool.not_eq_true']
  constructor
  · rintro ⟨isFound, outside⟩
    rcases keeps span isFound with isString | ⟨inTemplate, _⟩
    · exact isString
    · rw [outside] at inTemplate
      cases inTemplate
  · intro isString
    have outside := Document.isInTemplate_of_mem_stringsOn closes isLine isString
    refine ⟨mem_foundIn closes isLine isString fun earlier isFound starts => ?_, outside⟩
    rcases keeps earlier isFound with earlierString | ⟨_, touchesNone⟩
    · exact stop_le_start apart wide earlierString isString starts
    · have width := wide span isString
      rcases touchesNone span isString with ahead | behind
      · exact ahead
      · omega

end Line

/-! ## Issues -/

/-- The issue for a string literal, if it begins with the unwanted quote: it stands at that quote
and extends over the whole literal. -/
def stringIssue? (style : QuoteStyle) (index : Nat) (text : List Char) (string : Span) :
    Option Issue :=
  let name := style.name
  if string.letters.head? == some style.opposite.quote then
    some (info.issue index (charColumn text string.start) string.letters.length
      s!"Strings must use {name} quotes")
  else none

/-- The issues for the string literals of a line. -/
def stringIssuesOn (document : Document) (style : QuoteStyle) (index : Nat) : List Issue :=
  (document.stringsOn index).filterMap (stringIssue? style index (document.line index))

/-- The issues for the string literals of a document. -/
def stringIssues (document : Document) (style : QuoteStyle) : List Issue :=
  (List.range document.lineCount).flatMap (stringIssuesOn document style)

/-- What is found on the lines of the document keeps to their strings. -/
def FindsStrings (document : Document) : Prop :=
  ∀ index line, document.scan[index]? = some line →
    ∀ found ∈ foundIn line.code, KeepsStrings (document.stringsOn index) line found

theorem issueOfMatch?_of_isInTemplate (style : QuoteStyle) (index : Nat) {line : ScannedLine}
    {found : Match} (inTemplate : line.isInTemplate found.whole.start = true) :
    info.issueOfMatch? (report style) index line found = .ok none := by
  simp only [RuleInfo.issueOfMatch?, report]
  split_ifs
  · dsimp only
    rw [if_pos inTemplate]
  · rfl

section Line

variable {document : Document} {index : Nat} {line : ScannedLine} {string : Span}

theorem isCode_of_isIn (holds : document.Holds index line) {found : Span} {rest : List Char}
    (begins : found.letters = style.quote :: rest) (isIn : found.IsIn line.code) :
    line.isCode = true := by
  obtain ⟨before, after, codeEq, _⟩ := isIn
  rw [ScannedLine.isCode_eq holds.code_eq, Bool.not_eq_true', List.isEmpty_eq_false_iff,
    ScannedLine.trimmed]
  intro blank
  have member : style.quote ∈ line.code := by
    rw [codeEq, begins]
    simp
  have spaced := trim_eq_nil_iff.mp blank style.quote member
  rw [style.isSpace_quote] at spaced
  cases spaced

theorem issueOfMatch?_of_isIn (style : QuoteStyle) (index : Nat) {found : Match}
    (isIn : found.whole.IsIn line.text)
    (outside : line.isInTemplate found.whole.start = false) :
    info.issueOfMatch? (report style) index line found =
      .ok (stringIssue? style index line.text found.whole) := by
  have stopEq : found.whole.start + found.whole.size = found.whole.stop := by
    obtain ⟨_, _, _, _, stopEq⟩ := isIn
    rw [Span.size]
    omega
  simp only [RuleInfo.issueOfMatch?, report, stringIssue?]
  split_ifs
  · dsimp only
    rw [outside, if_neg Bool.false_ne_true, stopEq, ScannedLine.column, ScannedLine.column,
      isIn.charColumn_stop, spanLength, if_pos (Nat.le_add_right _ _), Nat.add_sub_cancel_left]
    rfl
  · rfl

variable (closes : document.ClosesStrings) (isLine : document.scan[index]? = some line)
  (keeps : ∀ found ∈ foundIn line.code, KeepsStrings (document.stringsOn index) line found)

include closes isLine keeps

/-- If the search keeps to the strings of a line, the issues for its matches are those for the
strings. -/
theorem issuesOfMatches_eq (style : QuoteStyle) :
    ((stringLiteral.searchAll line.code).mapM (info.issueOfMatch? (report style) index line) >>=
      fun found => .ok (found.filterMap fun issue => issue)) =
        .ok ((document.stringsOn index).filterMap (stringIssue? style index line.text)) := by
  let issue? (found : Match) : Option Issue :=
    if !line.isInTemplate found.whole.start then stringIssue? style index line.text found.whole
    else none
  have each : ∀ found ∈ stringLiteral.searchAll line.code,
      info.issueOfMatch? (report style) index line found = .ok (issue? found) := by
    intro found member
    cases outside : line.isInTemplate found.whole.start with
    | true =>
        simp only [issue?, outside, issueOfMatch?_of_isInTemplate style index outside]
        rfl
    | false =>
        have isString : found.whole ∈ document.stringsOn index := by
          rw [← found_eq_stringsOn closes isLine keeps, List.mem_filter, outside]
          exact ⟨List.mem_map_of_mem member, rfl⟩
        have isIn := (Document.isIn_of_mem_stringsOn closes isLine isString).2.1
        simp only [issue?, outside, issueOfMatch?_of_isIn style index isIn outside]
        rfl
  rw [mapM_eq_ok each, ← found_eq_stringsOn closes isLine keeps, foundIn, List.filterMap_filter,
    List.filterMap_map]
  change Except.ok (((stringLiteral.searchAll line.code).map issue?).filterMap id) = _
  rw [List.filterMap_map]
  rfl

end Line

/-! ## Agreement -/

theorem stringIssue?_eq_some {style : QuoteStyle} {index : Nat} {text : List Char} {string : Span}
    {issue : Issue} (isIssue : stringIssue? style index text string = some issue) :
    issue.line = index ∧ issue.character = charColumn text string.start := by
  simp only [stringIssue?, Option.ite_none_right_eq_some, Option.some.injEq] at isIssue
  obtain ⟨_, rfl⟩ := isIssue
  exact ⟨rfl, rfl⟩

theorem mem_stringIssues {document : Document} {style : QuoteStyle} {issue : Issue} :
    issue ∈ stringIssues document style ↔ ∃ index < document.lineCount,
      ∃ string ∈ document.stringsOn index,
        stringIssue? style index (document.line index) string = some issue := by
  simp only [stringIssues, stringIssuesOn, List.mem_flatMap, List.mem_range, List.mem_filterMap]

/-- A literal begins with the quote that the other style does not want. -/
theorem head?_isUnwanted {rest : List Char} (begins : letters = style.quote :: rest) :
    (letters.head? == some style.opposite.opposite.quote) = true := by
  rw [begins]
  cases style with
  | single => rfl
  | double => rfl

/-- The rule for the other style reports a literal in these quotes. -/
theorem exists_stringIssue? {string : Span} {rest : List Char}
    (begins : string.letters = style.quote :: rest) (index : Nat) (text : List Char) :
    ∃ issue, stringIssue? style.opposite index text string = some issue := by
  rw [stringIssue?, if_pos (head?_isUnwanted begins)]
  exact ⟨_, rfl⟩

section Found

variable {document : Document} {index : Nat} {line : ScannedLine} {found : Match}

theorem showsAt_of_mem_foundIn {found : Span} (isFound : found ∈ foundIn letters) :
    ShowsAt letters found.start := by
  obtain ⟨style, rest, lettersEq, isIn⟩ := exists_quote_of_mem_foundIn isFound
  refine isIn.showsAt ⟨_, rest, lettersEq, ?_⟩
  cases style with
  | single => decide
  | double => decide

theorem place_of_issueOfMatch? {issue : Issue}
    (reported : info.issueOfMatch? (report style) index line found = .ok (some issue)) :
    issue.line = index ∧ issue.character = line.column found.whole.start := by
  simp only [RuleInfo.issueOfMatch?, report] at reported
  split_ifs at reported
  · dsimp only at reported
    split_ifs at reported
    · cases reported
    · obtain ⟨length, _, same⟩ := exists_of_bind_eq_ok reported
      cases same
      exact ⟨rfl, rfl⟩
  · cases reported

theorem exists_issueOfMatch? (holds : document.Holds index line)
    (isFound : found.whole ∈ foundIn line.code)
    (outside : line.isInTemplate found.whole.start = false) {rest : List Char}
    (begins : found.whole.letters = style.quote :: rest) :
    ∃ issue, info.issueOfMatch? (report style.opposite) index line found = .ok (some issue) := by
  have boundary := holds.isBoundary_text (showsAt_of_mem_foundIn isFound)
  have columns : line.column found.whole.start ≤
      line.column (found.whole.start + found.whole.size) :=
    charColumn_le_charColumn boundary (Nat.le_add_right _ _)
  simp only [RuleInfo.issueOfMatch?, report, head?_isUnwanted begins, if_true, outside,
    if_neg Bool.false_ne_true, spanLength, if_pos columns]
  exact ⟨_, rfl⟩

end Found

section Document

variable {document : Document} (closes : document.ClosesStrings)

include closes

theorem isAscending_stringIssues (style : QuoteStyle) :
    Issue.IsAscending (stringIssues document style) := by
  have ordered : (List.range document.lineCount).Pairwise fun first second =>
      id first < id second := List.pairwise_lt_range
  apply Issue.isAscending_flatMap ordered
  · intro index _ issue member
    obtain ⟨string, _, isIssue⟩ := List.mem_filterMap.mp member
    exact (stringIssue?_eq_some isIssue).1
  · intro index inside
    obtain ⟨line, isLine⟩ := Document.exists_getElem?_scan (List.mem_range.mp inside)
    have textEq := (Document.holds_of_getElem?_scan isLine).line_eq
    refine List.pairwise_filterMap.mpr ((document.pairwise_stringsOn index).imp_of_mem ?_)
    intro first second isFirst isSecond behind issue isIssue later isLater
    obtain ⟨lineEq, columnEq⟩ := stringIssue?_eq_some isIssue
    obtain ⟨laterLineEq, laterColumnEq⟩ := stringIssue?_eq_some isLater
    have inText := (Document.isIn_of_mem_stringsOn closes isLine isFirst).2.1
    right
    rw [lineEq, laterLineEq, columnEq, laterColumnEq, textEq]
    refine ⟨rfl, charColumn_le_charColumn inText.isBoundary_start ?_⟩
    have width := start_lt_stop_of_mem_stringsOn closes isLine first isFirst
    omega

/-- If the search keeps to the strings of the document, they are what the rule reports. -/
theorem check_eq_stringIssues (finds : FindsStrings document) (style : QuoteStyle) :
    rule.check document (.quotes style) = .ok (stringIssues document style) := by
  have each : ∀ entry ∈ document.scan.zipIdx,
      (if entry.1.isCode then do
        let found ← (stringLiteral.searchAll entry.1.code).mapM
          (info.issueOfMatch? (report style) entry.2 entry.1)
        .ok (found.filterMap fun issue => issue)
      else .ok [] : Except Failure (List Issue)) = .ok (stringIssuesOn document style entry.2) := by
    rintro ⟨line, index⟩ member
    have isLine := List.mem_zipIdx_iff_getElem?.mp member
    have holds := Document.holds_of_getElem?_scan isLine
    rw [stringIssuesOn, holds.line_eq]
    cases isCode : line.isCode with
    | true =>
        rw [if_pos rfl]
        exact issuesOfMatches_eq closes isLine (finds index line isLine) style
    | false =>
        have noString : document.stringsOn index = [] := by
          rw [List.eq_nil_iff_forall_not_mem]
          intro string isString
          obtain ⟨⟨style, body, _, lettersEq⟩, _, inCode⟩ :=
            Document.isIn_of_mem_stringsOn closes isLine isString
          rw [isCode_of_isIn holds lettersEq inCode] at isCode
          cases isCode
        rw [noString, if_neg Bool.false_ne_true]
        rfl
  have numbers : document.scan.zipIdx.map (·.2) = List.range document.lineCount := by
    rw [List.zipIdx_map_snd, ← List.range_eq_range', Document.length_scan]
  have flatEq : (document.scan.zipIdx.map fun entry =>
      stringIssuesOn document style entry.2).flatten = stringIssues document style := by
    rw [stringIssues, ← numbers, List.flatMap_map, List.flatMap_def]
  have results : info.reportMatches stringLiteral (report style) document =
      .ok (Issue.sorted (document.scan.zipIdx.map fun entry =>
        stringIssuesOn document style entry.2).flatten) := by
    rw [RuleInfo.reportMatches, mapM_eq_ok each]
    rfl
  rw [flatEq, Issue.sorted_eq_self (isAscending_stringIssues closes style)] at results
  exact results

/-- What is found in the column of a string is the string. -/
theorem eq_of_column_eq {index : Nat} {line : ScannedLine} {found string : Span}
    (isLine : document.scan[index]? = some line) (isFound : found ∈ foundIn line.code)
    (isString : string ∈ document.stringsOn index)
    (same : line.column found.start = charColumn (document.line index) string.start) :
    found = string := by
  have holds := Document.holds_of_getElem?_scan isLine
  have boundary := holds.isBoundary_text (showsAt_of_mem_foundIn isFound)
  have inText := (Document.isIn_of_mem_stringsOn closes isLine isString).2.1
  rw [holds.line_eq] at same
  have sameStart := boundary.eq_of_charColumn_eq inText.isBoundary_start same
  exact eq_of_start_eq closes isLine isFound isString sameStart

section Reported

variable {index : Nat} {line : ScannedLine} {found string : Span}
  (agrees : ∀ style, rule.check document (.quotes style) = .ok (stringIssues document style))
  (isLine : document.scan[index]? = some line)

include agrees isLine

/-- If what the rule reports is the strings, what is found outside template literals is a string. -/
theorem mem_stringsOn_of_agrees (isFound : found ∈ foundIn line.code)
    (outside : line.isInTemplate found.start = false) : found ∈ document.stringsOn index := by
  have holds := Document.holds_of_getElem?_scan isLine
  obtain ⟨style, rest, lettersEq, isIn⟩ := exists_quote_of_mem_foundIn isFound
  have isCode := isCode_of_isIn holds lettersEq isIn
  obtain ⟨whole, isMatch, rfl⟩ := List.mem_map.mp isFound
  obtain ⟨issue, issueEq⟩ := exists_issueOfMatch? holds isFound outside lettersEq
  have reported : issue ∈ stringIssues document style.opposite :=
    (RuleInfo.mem_of_reportMatches (agrees style.opposite)).mpr
      ⟨index, line, isLine, isCode, whole, isMatch, issueEq⟩
  obtain ⟨other, _, string, isString, stringEq⟩ := mem_stringIssues.mp reported
  obtain ⟨lineEq, columnEq⟩ := place_of_issueOfMatch? issueEq
  obtain ⟨otherEq, stringColumn⟩ := stringIssue?_eq_some stringEq
  have sameIndex : other = index := otherEq.symm.trans lineEq
  subst sameIndex
  have sameColumn := columnEq.symm.trans stringColumn
  rw [eq_of_column_eq closes isLine isFound isString sameColumn]
  exact isString

/-- If what the rule reports is the strings, they are found. -/
theorem mem_foundIn_of_agrees (isString : string ∈ document.stringsOn index) :
    string ∈ foundIn line.code := by
  have below := (Document.holds_of_getElem?_scan isLine).index_lt
  obtain ⟨⟨style, body, _, lettersEq⟩, _⟩ :=
    Document.isIn_of_mem_stringsOn closes isLine isString
  obtain ⟨issue, issueEq⟩ := exists_stringIssue? lettersEq index (document.line index)
  have reported : issue ∈ stringIssues document style.opposite :=
    mem_stringIssues.mpr ⟨index, below, string, isString, issueEq⟩
  obtain ⟨other, otherLine, isOther, _, whole, isMatch, wholeEq⟩ :=
    (RuleInfo.mem_of_reportMatches (agrees style.opposite)).mp reported
  obtain ⟨lineEq, columnEq⟩ := stringIssue?_eq_some issueEq
  obtain ⟨otherEq, otherColumn⟩ := place_of_issueOfMatch? wholeEq
  have sameIndex : other = index := otherEq.symm.trans lineEq
  subst sameIndex
  cases isLine.symm.trans isOther
  have isFound : whole.whole ∈ foundIn line.code := List.mem_map_of_mem isMatch
  have sameColumn := otherColumn.symm.trans columnEq
  rw [← eq_of_column_eq closes isLine isFound isString sameColumn]
  exact isFound

end Reported

theorem findsStrings_of_agrees
    (agrees : ∀ style, rule.check document (.quotes style) = .ok (stringIssues document style)) :
    FindsStrings document := by
  intro index line isLine found isFound
  cases inTemplate : line.isInTemplate found.start with
  | false => exact Or.inl (mem_stringsOn_of_agrees closes agrees isLine isFound inTemplate)
  | true =>
      refine Or.inr ⟨inTemplate, fun string isString => ?_⟩
      have stringFound := mem_foundIn_of_agrees closes agrees isLine isString
      have outside := Document.isInTemplate_of_mem_stringsOn closes isLine isString
      have apart := pairwise_foundIn line.code
      rcases Nat.lt_trichotomy found.start string.start with before | same | behind
      · exact Or.inl
          (stop_le_start apart start_lt_stop_of_mem_foundIn isFound stringFound before)
      · rw [same, outside] at inTemplate
        cases inTemplate
      · exact Or.inr
          (stop_le_start apart start_lt_stop_of_mem_foundIn stringFound isFound behind)

end Document

/-! ## Results -/

/-- Every quote in the code belongs to a string literal of its line. -/
def QuotesAreInStrings (document : Document) : Prop :=
  ∀ index line, document.scan[index]? = some line → ∀ before (style : QuoteStyle) after,
    line.code = before ++ style.quote :: after → ∃ string ∈ document.stringsOn index,
      string.start ≤ byteLength before ∧ byteLength before < string.stop

/-- If every quote belongs to a string literal, only string literals are found. -/
theorem findsStrings_of_quotesAreInStrings {document : Document} (closes : document.ClosesStrings)
    (quotes : QuotesAreInStrings document) : FindsStrings document := by
  intro index line isLine found isFound
  left
  have wide := start_lt_stop_of_mem_stringsOn closes isLine
  have apart := document.pairwise_stringsOn index
  -- what is found further to the left is known to be a string
  induction start : found.start using Nat.strong_induction_on generalizing found with
  | _ position inductionHypothesis =>
      obtain ⟨style, rest, lettersEq, before, after, codeEq, startEq, _⟩ :=
        exists_quote_of_mem_foundIn isFound
      rw [lettersEq, List.append_assoc] at codeEq
      obtain ⟨string, isString, starts, stops⟩ := quotes index line isLine before style _ codeEq
      rw [← startEq] at starts stops
      rcases Nat.lt_or_eq_of_le starts with ahead | same
      · have stringFound : string ∈ foundIn line.code := by
          refine mem_foundIn closes isLine isString fun earlier isEarlier below => ?_
          have earlierString := inductionHypothesis earlier.start (by omega) earlier isEarlier rfl
          exact stop_le_start apart wide earlierString isString below
        have behind := stop_le_start (pairwise_foundIn line.code) start_lt_stop_of_mem_foundIn
          stringFound isFound ahead
        omega
      · rw [eq_of_start_eq closes isLine isFound isString same.symm]
        exact isString

/-- If strings end with their lines, then for both styles the rule reports exactly the string
literals with the unwanted quotes, each in its place and with its length, if and only if whatever is
found in the code is a string literal, or begins inside a template literal and reaches over none. It
is so if every quote in the code belongs to a string literal. -/
theorem check_eq_stringIssues_iff (document : Document) (closes : document.ClosesStrings) :
    ((∀ style, rule.check document (.quotes style) = .ok (stringIssues document style)) ↔
      FindsStrings document) ∧
    (QuotesAreInStrings document →
      ∀ style, rule.check document (.quotes style) = .ok (stringIssues document style)) := by
  refine ⟨⟨findsStrings_of_agrees closes, check_eq_stringIssues closes⟩, fun quotes => ?_⟩
  exact check_eq_stringIssues closes (findsStrings_of_quotesAreInStrings closes quotes)

/-- Two strings in a call and a quote in a comment: what is found is the two strings. -/
theorem check_eq_stringIssues_iff_call :
    let document : Document := ⟨"a('x', \"y\"); // it's".toList⟩
    document.ClosesStrings ∧
      (∀ style, rule.check document (.quotes style) = .ok (stringIssues document style)) ∧
      FindsStrings document := by
  intro document
  have closes : document.ClosesStrings := by decide +kernel
  have agrees : ∀ style,
      rule.check document (.quotes style) = .ok (stringIssues document style) := by
    intro style
    cases style with
    | single => decide +kernel
    | double => decide +kernel
  exact ⟨closes, agrees, (check_eq_stringIssues_iff document closes).1.mp agrees⟩

/-- The apostrophe in the template literal is taken for a first quote, and the string behind the
template literal is not reported. -/
theorem check_ne_stringIssues :
    let document : Document := ⟨"const t = `it's` + \"don't\";".toList⟩
    document.ClosesStrings ∧ rule.check document (.quotes .single) = .ok [] ∧
      (stringIssues document .single).map
        (fun issue => (issue.line, issue.character, issue.length)) = [(0, 19, some 7)] := by
  decide +kernel

end Quotes

end ScriptLint
