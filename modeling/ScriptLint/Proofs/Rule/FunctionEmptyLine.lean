import ScriptLint.Proofs.Rule.Order
import ScriptLint.Proofs.Source.Quiet

/-!
# Heads and their bodies

The body of a head is opened on the first line of code at whose end exactly one delimiter more is
open than before the head. Down to there every line ends deeper than the head began, so a head in
between begins deeper too, and its own body is opened above the body of the outer head. Two heads
therefore never share a body, and their bodies stand in the order of the heads unless one head lies
between the other and its body.
-/

namespace ScriptLint

open Text

/-! ## Lines by their numbers -/

theorem PlacedLine.drop_ofLines (start count : Nat) (lines : List ScannedLine) :
    (ofLines start lines).drop count = ofLines (start + count) (lines.drop count) := by
  induction count generalizing start lines with
  | zero => rfl
  | succ count inductionHypothesis =>
      cases lines with
      | nil => rfl
      | cons line rest =>
          rw [ofLines, List.drop_succ_cons, List.drop_succ_cons, inductionHypothesis]
          congr 1
          omega

theorem Document.drop_placedLines (document : Document) (index : Nat) :
    document.placedLines.drop index = PlacedLine.ofLines index (document.scan.drop index) := by
  rw [placedLines, PlacedLine.drop_ofLines, Nat.zero_add]

namespace FunctionEmptyLine

variable {document : Document} {head body : Nat} {start brace : ScannedLine}

/-! ## Bodies -/

/-- The check visits the line with the number, and a head begins on it. -/
def IsHead (document : Document) (head : Nat) : Prop :=
  ∃ line kind, document.scan[head]? = some line ∧ line.beginsCode = true ∧
    headKind? line = some kind

/-- The number of the line on which the body of a head is opened. -/
def bodyLine? (document : Document) (head : Nat) : Option Nat :=
  (document.scan[head]?).bind fun line =>
    (bodyBrace? line.startStack.length (document.placedLines.drop head)).map (·.index)

/-- A line opens a body inside as many delimiters: a brace of statements is open at its end beside
them, and its code ends in a brace. -/
structure OpensBody (depth : Nat) (line : ScannedLine) : Prop where
  isCode : line.isCode = true
  depth_eq : line.endStack.length = depth + 1
  opens : line.endTop?.any (Frame.opens .block) = true
  ends : endsIn "\x7b" line.trimmed = true

/-- The body of the head on one line is opened on another one. -/
structure IsOpened (document : Document) (head body : Nat) (start brace : ScannedLine) : Prop where
  head_eq : document.scan[head]? = some start
  body_eq : document.scan[body]? = some brace
  not_above : head ≤ body
  opens : OpensBody start.startStack.length brace
  deeper : ∀ index between, head ≤ index → index ≤ body →
    document.scan[index]? = some between → between.isCode = true →
      start.startStack.length < between.endStack.length

/-- What the search for a body finds: a line that opens it, down to which all lines of code end
deeper. -/
theorem opensBody_of_bodyBrace? {depth first : Nat} {lines : List ScannedLine}
    {placed : PlacedLine}
    (found : bodyBrace? depth (PlacedLine.ofLines first lines) = some placed) :
    ∃ offset, placed.index = first + offset ∧ lines[offset]? = some placed.line ∧
      placed.following = lines.drop (offset + 1) ∧ OpensBody depth placed.line ∧
      ∀ earlier between, earlier ≤ offset → lines[earlier]? = some between →
        between.isCode = true → depth < between.endStack.length := by
  induction lines generalizing first with
  | nil => cases found
  | cons line rest inductionHypothesis =>
      -- a line that is passed ends deeper if it carries code, and so do those below it
      have pass : (line.isCode = true → depth < line.endStack.length) →
          bodyBrace? depth (PlacedLine.ofLines (first + 1) rest) = some placed →
          ∃ offset, placed.index = first + offset ∧ (line :: rest)[offset]? = some placed.line ∧
            placed.following = (line :: rest).drop (offset + 1) ∧ OpensBody depth placed.line ∧
            ∀ earlier between, earlier ≤ offset → (line :: rest)[earlier]? = some between →
              between.isCode = true → depth < between.endStack.length := by
        intro deep foundLater
        obtain ⟨offset, indexEq, lineEq, followingEq, opens, deeper⟩ :=
          inductionHypothesis foundLater
        refine ⟨offset + 1, by omega, lineEq, followingEq, opens, ?_⟩
        intro earlier between bounded betweenEq isCode
        cases earlier with
        | zero =>
            cases betweenEq
            exact deep isCode
        | succ earlier =>
            exact deeper earlier between (Nat.le_of_succ_le_succ bounded) betweenEq isCode
      simp only [PlacedLine.ofLines, bodyBrace?] at found
      split at found
      · next noCode =>
          refine pass (fun isCode => ?_) found
          rw [isCode] at noCode
          cases noCode
      · next code =>
          rw [Bool.not_eq_true', Bool.not_eq_false] at code
          split at found
          · cases found
          · next deep =>
              split at found
              · next here =>
                  rw [Bool.and_eq_true, decide_eq_true_eq] at here
                  split at found
                  · next ends =>
                      cases found
                      refine ⟨0, rfl, rfl, rfl, ⟨code, here.1, here.2, ends⟩, ?_⟩
                      intro earlier between bounded betweenEq _
                      rw [Nat.le_zero.mp bounded] at betweenEq
                      cases betweenEq
                      omega
                  · cases found
              · exact pass (fun _ => by omega) found

theorem isOpened_of_bodyBrace? (found : document.scan[head]? = some start) {placed : PlacedLine}
    (search : bodyBrace? start.startStack.length (document.placedLines.drop head) = some placed) :
    IsOpened document head placed.index start placed.line ∧
      placed.following = document.scan.drop (placed.index + 1) := by
  rw [Document.drop_placedLines] at search
  obtain ⟨offset, indexEq, lineEq, followingEq, opens, deeper⟩ := opensBody_of_bodyBrace? search
  rw [List.getElem?_drop] at lineEq
  rw [List.drop_drop] at followingEq
  refine ⟨⟨found, indexEq ▸ lineEq, by omega, opens, ?_⟩, ?_⟩
  · intro index between atLeast bounded betweenEq isCode
    obtain ⟨earlier, rfl⟩ := Nat.exists_eq_add_of_le atLeast
    apply deeper earlier between (by omega) _ isCode
    rw [List.getElem?_drop]
    exact betweenEq
  · rw [followingEq, indexEq, Nat.add_assoc]

theorem bodyLine?_eq_some (found : document.scan[head]? = some start) :
    bodyLine? document head = some body ↔ ∃ placed, placed.index = body ∧
      bodyBrace? start.startStack.length (document.placedLines.drop head) = some placed := by
  rw [bodyLine?, found, Option.bind_some, Option.map_eq_some_iff]
  constructor
  · rintro ⟨placed, search, same⟩
    exact ⟨placed, same, search⟩
  · rintro ⟨placed, same, search⟩
    exact ⟨placed, search, same⟩

theorem exists_isOpened (isHead : IsHead document head)
    (bodyEq : bodyLine? document head = some body) :
    ∃ start brace, start.isCode = true ∧ IsOpened document head body start brace := by
  obtain ⟨start, kind, found, begins, _⟩ := isHead
  obtain ⟨placed, rfl, search⟩ := (bodyLine?_eq_some found).mp bodyEq
  rw [ScannedLine.beginsCode, Bool.and_eq_true] at begins
  exact ⟨start, placed.line, begins.1, (isOpened_of_bodyBrace? found search).1⟩

/-! ## Two heads -/

section Heads

variable {other otherBody : Nat} (isHead : IsHead document head) (isOther : IsHead document other)
  (bodyEq : bodyLine? document head = some body)
  (otherEq : bodyLine? document other = some otherBody)

include isHead isOther bodyEq otherEq

/-- The body of a head between another head and its body is opened above that body. -/
theorem body_lt_of_between (below : head < other) (between : other ≤ body) : otherBody < body := by
  obtain ⟨start, brace, isCode, opened⟩ := exists_isOpened isHead bodyEq
  obtain ⟨otherStart, otherBrace, _, otherOpened⟩ := exists_isOpened isOther otherEq
  have inside : start.startStack.length < otherStart.startStack.length := by
    apply Document.lt_startStack below opened.head_eq isCode _ otherOpened.head_eq
    intro index line atLeast isBelow
    exact opened.deeper index line atLeast (Nat.le_trans (Nat.le_of_lt isBelow) between)
  by_contra notAbove
  -- the outer body would be passed by the search for the inner one, which it ends
  have deep := otherOpened.deeper body brace between (Nat.le_of_not_lt notAbove) opened.body_eq
    opened.opens.isCode
  have depthEq := opened.opens.depth_eq
  omega

/-- The bodies of two heads stand in the order of the heads exactly if the lower head does not lie
between the upper one and its body. -/
theorem body_lt_iff (below : head < other) : body < otherBody ↔ body < other := by
  constructor
  · intro ordered
    by_contra between
    have above := body_lt_of_between isHead isOther bodyEq otherEq below (Nat.le_of_not_lt between)
    omega
  · intro apart
    obtain ⟨_, _, _, otherOpened⟩ := exists_isOpened isOther otherEq
    exact Nat.lt_of_lt_of_le apart otherOpened.not_above

theorem body_ne (below : head < other) : body ≠ otherBody := by
  by_cases between : other ≤ body
  · have above := body_lt_of_between isHead isOther bodyEq otherEq below between
    omega
  · have ordered := (body_lt_iff isHead isOther bodyEq otherEq below).mpr (Nat.lt_of_not_le between)
    omega

end Heads

/-! ## The place of an issue -/

/-- A column behind the last character of the code that is no white space, a brace. -/
def IsBehindBrace (line : ScannedLine) (column : Nat) : Prop :=
  ∃ front spaces before after, line.code = front ++ '\x7b' :: spaces ∧
    (∀ letter ∈ spaces, isSpace letter = true) ∧ line.text = before ++ '\x7b' :: after ∧
    byteLength before = byteLength front ∧ column = before.length + 1

theorem lastBrace_eq {front behind : List Char} (absent : '\x7b' ∉ behind) :
    lastBrace (front ++ '\x7b' :: behind) = byteLength front := by
  have passed : ∀ letter ∈ behind.reverse, (letter != '\x7b') = true := by
    intro letter member
    exact bne_iff_ne.mpr fun same => absent (same ▸ List.mem_reverse.mp member)
  rw [lastBrace, List.reverse_append, List.reverse_cons, List.append_assoc,
    List.dropWhile_append_of_pos passed, List.singleton_append,
    List.dropWhile_cons_of_neg (by decide), List.drop_one, List.tail_cons, byteLength_reverse]

theorem isBehindBrace_column {line : ScannedLine} (holds : document.Holds body line)
    (ends : endsIn "\x7b" line.trimmed = true) :
    IsBehindBrace line (line.column (lastBrace line.code) + 1) := by
  obtain ⟨shown, trimmedEq⟩ := List.isSuffixOf_iff_suffix.mp ends
  obtain ⟨trailing, codeEq, spaces⟩ := exists_eq_append_trim line.code
  have shape : line.code =
      (line.code.takeWhile isSpace ++ shown) ++ '\x7b' :: trailing := by
    conv_lhs => rw [codeEq, ← ScannedLine.trimmed, ← trimmedEq]
    simp
  generalize line.code.takeWhile isSpace ++ shown = front at shape
  have noBrace : '\x7b' ∉ trailing := fun member => absurd (spaces _ member) (by decide)
  obtain ⟨before, after, textEq, measured, _⟩ :=
    exists_letter_of_blankWhere (by decide) (holds.code_eq.symm.trans shape)
  have columnEq := charColumn_append before ('\x7b' :: after)
  rw [← textEq, measured] at columnEq
  refine ⟨front, trailing, before, after, shape, spaces, textEq, measured, ?_⟩
  rw [ScannedLine.column, shape, lastBrace_eq noBrace, columnEq]

/-! ## Issues -/

/-- The body of the head on a line is opened and does not begin with a blank line. -/
def IsReported (document : Document) (head : Nat) : Prop :=
  IsHead document head ∧ ∃ body, bodyLine? document head = some body ∧
    isSpaced (document.scan.drop (body + 1)) = false

/-- The issue for the head on a line. -/
def issueAt? (document : Document) (head : Nat) : Option Issue :=
  (document.scan[head]?).bind fun line =>
    if line.beginsCode then
      (headKind? line).bind fun kind =>
        issueOfHead? kind line.startStack.length (document.placedLines.drop head)
    else none

/-- The issues are those for the heads, from the first line on. -/
theorem issuesOfLines_eq (document : Document) :
    issuesOfLines document.placedLines =
      (List.range document.scan.length).filterMap (issueAt? document) := by
  have each : ∀ lines first, document.scan.drop first = lines →
      issuesOfLines (PlacedLine.ofLines first lines) =
        (List.range' first lines.length).filterMap (issueAt? document) := by
    intro lines
    induction lines with
    | nil => exact fun _ _ => rfl
    | cons line rest inductionHypothesis =>
        intro first dropped
        have found : document.scan[first]? = some line := by
          rw [← List.head?_drop, dropped]
          rfl
        have droppedRest : document.scan.drop (first + 1) = rest := by
          rw [← List.drop_drop, dropped]
          rfl
        have step : issuesOfLines (PlacedLine.ofLines first (line :: rest)) =
            (issueAt? document first).toList ++
              issuesOfLines (PlacedLine.ofLines (first + 1) rest) := by
          rw [issueAt?, found, Option.bind_some, Document.drop_placedLines, dropped]
          rfl
        rw [step, inductionHypothesis (first + 1) droppedRest, List.length_cons,
          List.range'_succ, List.filterMap_cons]
        cases issueAt? document first with
        | none => rfl
        | some issue => rfl
  rw [Document.placedLines, each document.scan 0 rfl, List.range_eq_range']

theorem issueAt?_eq_some (issue : Issue) :
    issueAt? document head = some issue ↔ IsHead document head ∧
      ∃ start kind placed, document.scan[head]? = some start ∧ headKind? start = some kind ∧
        bodyBrace? start.startStack.length (document.placedLines.drop head) = some placed ∧
        isSpaced placed.following = false ∧
        issue = info.openIssue placed.index (placed.line.column (lastBrace placed.line.code) + 1)
          kind.message := by
  rw [issueAt?, Option.bind_eq_some_iff]
  constructor
  · rintro ⟨start, found, reported⟩
    split at reported
    · next begins =>
        obtain ⟨kind, isHead, reported⟩ := Option.bind_eq_some_iff.mp reported
        unfold issueOfHead? at reported
        split at reported
        · cases reported
        · next placed search =>
            split at reported
            · cases reported
            · next notSpaced =>
                cases reported
                exact ⟨⟨start, kind, found, begins, isHead⟩, start, kind, placed, found, isHead,
                  search, Bool.eq_false_iff.mpr notSpaced, rfl⟩
    · cases reported
  · rintro ⟨⟨line, _, lineFound, begins, _⟩, start, kind, placed, found, isHead, search,
      notSpaced, rfl⟩
    cases lineFound.symm.trans found
    refine ⟨line, lineFound, ?_⟩
    rw [if_pos begins, isHead, Option.bind_some, issueOfHead?, search]
    dsimp only
    rw [notSpaced, if_neg Bool.false_ne_true]

/-- The issue for a head stands behind the brace that opens its body. -/
theorem isOpened_of_issueAt? {issue : Issue} (reported : issueAt? document head = some issue) :
    IsReported document head ∧ bodyLine? document head = some issue.line ∧
      ∃ start brace, IsOpened document head issue.line start brace ∧
        IsBehindBrace brace issue.character := by
  obtain ⟨isHead, start, kind, placed, found, _, search, notSpaced, rfl⟩ :=
    (issueAt?_eq_some issue).mp reported
  obtain ⟨opened, followingEq⟩ := isOpened_of_bodyBrace? found search
  have bodyEq : bodyLine? document head = some placed.index :=
    (bodyLine?_eq_some found).mpr ⟨placed, rfl, search⟩
  have holds := Document.holds_of_getElem?_scan opened.body_eq
  have behind := isBehindBrace_column holds opened.opens.ends
  exact ⟨⟨isHead, placed.index, bodyEq, followingEq ▸ notSpaced⟩, bodyEq, start, placed.line,
    opened, behind⟩

theorem exists_issueAt? (reported : IsReported document head) :
    ∃ issue, issueAt? document head = some issue := by
  obtain ⟨isHead, body, bodyEq, notSpaced⟩ := reported
  obtain ⟨start, kind, found, begins, kindEq⟩ := isHead
  obtain ⟨placed, rfl, search⟩ := (bodyLine?_eq_some found).mp bodyEq
  have followingEq := (isOpened_of_bodyBrace? found search).2
  exact ⟨_, (issueAt?_eq_some _).mpr ⟨⟨start, kind, found, begins, kindEq⟩, start, kind, placed,
    found, kindEq, search, followingEq ▸ notSpaced, rfl⟩⟩

theorem lt_length_of_issueAt? {issue : Issue} (reported : issueAt? document head = some issue) :
    head < document.scan.length := by
  obtain ⟨_, start, _, _, found, _⟩ := (issueAt?_eq_some issue).mp reported
  exact (List.getElem?_eq_some_iff.mp found).1

theorem mem_issuesOfLines {issue : Issue} :
    issue ∈ issuesOfLines document.placedLines ↔
      ∃ head, issueAt? document head = some issue := by
  rw [issuesOfLines_eq, List.mem_filterMap]
  constructor
  · rintro ⟨head, _, reported⟩
    exact ⟨head, reported⟩
  · rintro ⟨head, reported⟩
    exact ⟨head, List.mem_range.mpr (lt_length_of_issueAt? reported), reported⟩

/-- What holds of the issues of any two heads, one below the other, holds of the issues in their
order, and the other way round. -/
theorem pairwise_issuesOfLines {related : Issue → Issue → Prop} :
    (issuesOfLines document.placedLines).Pairwise related ↔
      ∀ head other, head < other → ∀ issue, issueAt? document head = some issue →
        ∀ later, issueAt? document other = some later → related issue later := by
  rw [issuesOfLines_eq, List.pairwise_filterMap, List.pairwise_iff_getElem]
  simp only [List.getElem_range, List.length_range]
  constructor
  · intro each head other below issue reported later reportedLater
    exact each head other (lt_length_of_issueAt? reported) (lt_length_of_issueAt? reportedLater)
      below issue reported later reportedLater
  · intro each head other _ _ below
    exact each head other below

/-- The body of a head is opened on the line of the issue for the head. -/
theorem forall₂_issuesOfLines (document : Document) :
    List.Forall₂ (fun head issue => bodyLine? document head = some issue.line)
      ((List.range document.scan.length).filter fun head => (issueAt? document head).isSome)
      (issuesOfLines document.placedLines) := by
  rw [issuesOfLines_eq]
  generalize List.range document.scan.length = heads
  induction heads with
  | nil => exact .nil
  | cons head rest inductionHypothesis =>
      rw [List.filter_cons, List.filterMap_cons]
      cases reported : issueAt? document head with
      | none => exact inductionHypothesis
      | some issue => exact .cons (isOpened_of_issueAt? reported).2.1 inductionHypothesis

/-! ## Results -/

/-- No two heads have the same body, so no line is reported twice. The lines reported are those on
which the bodies of heads are opened, unless a body is spaced. Such a line stands at or below its
head, a brace of statements is open at its end beside what was open before the head, the lines of
code down to it end deeper than the head began, and its issue stands behind the brace with which its
code ends. -/
theorem heads_haveOwnBodies (document : Document) :
    (∀ head other body, IsHead document head → IsHead document other →
      bodyLine? document head = some body → bodyLine? document other = some body → head = other) ∧
    ∀ options, ∃ issues, rule.check document options = .ok issues ∧
      issues.Pairwise (fun issue later => issue.line ≠ later.line) ∧
      (∀ line, (∃ issue ∈ issues, issue.line = line) ↔
        ∃ head, IsReported document head ∧ bodyLine? document head = some line) ∧
      ∀ issue ∈ issues, ∃ head start brace, IsReported document head ∧
        bodyLine? document head = some issue.line ∧
        IsOpened document head issue.line start brace ∧ IsBehindBrace brace issue.character := by
  constructor
  · intro head other body isHead isOther bodyEq otherEq
    rcases Nat.lt_trichotomy head other with below | same | above
    · exact absurd rfl (body_ne isHead isOther bodyEq otherEq below)
    · exact same
    · exact absurd rfl (body_ne isOther isHead otherEq bodyEq above)
  · intro options
    refine ⟨_, rfl, ?once, ?lines, ?places⟩
    case once =>
      apply pairwise_issuesOfLines.mpr
      intro head other below issue reported later reportedLater
      obtain ⟨⟨isHead, _⟩, bodyEq, _⟩ := isOpened_of_issueAt? reported
      obtain ⟨⟨isOther, _⟩, otherEq, _⟩ := isOpened_of_issueAt? reportedLater
      exact body_ne isHead isOther bodyEq otherEq below
    case lines =>
      intro line
      constructor
      · rintro ⟨issue, member, rfl⟩
        obtain ⟨head, reported⟩ := mem_issuesOfLines.mp member
        obtain ⟨isReported, bodyEq, _⟩ := isOpened_of_issueAt? reported
        exact ⟨head, isReported, bodyEq⟩
      · rintro ⟨head, isReported, bodyEq⟩
        obtain ⟨issue, reported⟩ := exists_issueAt? isReported
        have sameLine := (isOpened_of_issueAt? reported).2.1.symm.trans bodyEq
        exact ⟨issue, mem_issuesOfLines.mpr ⟨head, reported⟩, Option.some.inj sameLine⟩
    case places =>
      intro issue member
      obtain ⟨head, reported⟩ := mem_issuesOfLines.mp member
      obtain ⟨isReported, bodyEq, start, brace, opened, behind⟩ := isOpened_of_issueAt? reported
      exact ⟨head, start, brace, isReported, bodyEq, opened, behind⟩

example :
    let document : Document := ⟨"function f(\n    a,\n) \x7b\n    run();\n\x7d".toList⟩
    bodyLine? document 0 = some 2 ∧ bodyLine? document 3 = none := by
  decide +kernel

/-- The issues come in the order of their heads. So their places ascend exactly if no reported head
lies between another one and its body. -/
theorem issues_inOrder_iff (document : Document) (options : RuleOptions) :
    ∃ issues, rule.check document options = .ok issues ∧
      (∃ heads : List Nat, heads.Pairwise (· < ·) ∧
        (∀ head, head ∈ heads ↔ IsReported document head) ∧
        List.Forall₂ (fun head issue => bodyLine? document head = some issue.line) heads issues) ∧
      (Issue.IsAscending issues ↔ ∀ outer inner body, IsReported document outer →
        IsReported document inner → bodyLine? document outer = some body → outer < inner →
          body < inner) := by
  refine ⟨_, rfl, ⟨_, ?ordered, ?heads, forall₂_issuesOfLines document⟩, ?ascending⟩
  case ordered => exact List.pairwise_lt_range.filter _
  case heads =>
    intro head
    rw [List.mem_filter, List.mem_range, Option.isSome_iff_exists]
    constructor
    · rintro ⟨_, issue, reported⟩
      exact (isOpened_of_issueAt? reported).1
    · intro isReported
      obtain ⟨issue, reported⟩ := exists_issueAt? isReported
      exact ⟨lt_length_of_issueAt? reported, issue, reported⟩
  case ascending =>
    rw [Issue.IsAscending, pairwise_issuesOfLines]
    constructor
    · intro ordered outer inner body isOuter isInner bodyEq below
      obtain ⟨issue, reported⟩ := exists_issueAt? isOuter
      obtain ⟨later, reportedLater⟩ := exists_issueAt? isInner
      have outerEq := (isOpened_of_issueAt? reported).2.1
      have innerEq := (isOpened_of_issueAt? reportedLater).2.1
      have different := body_ne isOuter.1 isInner.1 outerEq innerEq below
      have onLines := ordered outer inner below issue reported later reportedLater
      have apart := (body_lt_iff isOuter.1 isInner.1 outerEq innerEq below).mp (by omega)
      rw [outerEq] at bodyEq
      exact Option.some.inj bodyEq ▸ apart
    · intro apart head other below issue reported later reportedLater
      obtain ⟨isReported, bodyEq, _⟩ := isOpened_of_issueAt? reported
      obtain ⟨isOther, otherEq, _⟩ := isOpened_of_issueAt? reportedLater
      have ahead := apart head other issue.line isReported isOther bodyEq below
      exact Or.inl ((body_lt_iff isReported.1 isOther.1 bodyEq otherEq below).mpr ahead)

/-- A method of a class that is a default value stands between the function and its body, so the two
issues descend. -/
theorem issues_notInOrder :
    let document : Document :=
      ⟨"function f(a = class \x7b\n    m() \x7b\n        go();\n    \x7d\n".toList ++
        "\x7d) \x7b\n    run();\n\x7d".toList⟩
    ∃ issues, rule.check document .enabled = .ok issues ∧
      issues.map (fun issue => (issue.line, issue.character)) = [(4, 4), (1, 9)] ∧
      ¬ Issue.IsAscending issues := by
  intro document
  refine ⟨_, rfl, ?_⟩
  unfold Issue.IsAscending
  decide +kernel

end FunctionEmptyLine

end ScriptLint
