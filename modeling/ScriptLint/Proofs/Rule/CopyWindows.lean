import ScriptLint.Proofs.Rule.CopyLines
import ScriptLint.Proofs.Rule.Order

/-!
# The windows of copies

A copy begins with two declarations, and neither its loop nor its step declares anything. So no two
copies overlap, and the rule, which goes on behind a copy it has found, reports what a look at any
four neighbouring lines reports.

Which windows those are is said by the forms of their lines. The step may go on behind the element
that it copies, and then the loop is reported although it does more than copy.
-/

namespace ScriptLint.ArrayCopy

open Text Text.Pattern

/-! ## Lines of different forms -/

section Forms

variable {name rest code copy index bound tail target source position : List Char}

/-- The code declares some name. -/
def IsDeclaration (code : List Char) : Prop :=
  ∃ name rest, Declares ["const", "let", "var"] name rest code

theorem IsEmptyArray.isDeclaration (array : IsEmptyArray copy code) : IsDeclaration code := by
  obtain ⟨rest, _, declares⟩ := array
  exact ⟨copy, rest, declares⟩

theorem IsLengthVariable.isDeclaration (length : IsLengthVariable bound code) :
    IsDeclaration code := by
  obtain ⟨rest, _, declares⟩ := length
  exact ⟨bound, rest, declares⟩

theorem IsIndexVariable.isDeclaration (counter : IsIndexVariable index code) :
    IsDeclaration code := by
  obtain ⟨rest, _, keyword, member, declared⟩ := counter
  exact ⟨index, rest, keyword, List.mem_cons_of_mem "const" member, declared⟩

theorem IsLoop.not_isDeclaration (loop : IsLoop index bound code) : ¬ IsDeclaration code := by
  obtain ⟨_, _, _, _, _, _, _, _, _, _, _, _, _, _, _, _, _, rfl⟩ := loop
  rintro ⟨name, rest, keyword, member, _, _, _, _, _, _, shape⟩
  have others : ∀ word ∈ ["const", "let", "var"],
      ∃ first letters, word.toList = first :: letters ∧ first ≠ 'f' := by
    simp
  obtain ⟨first, letters, keywordEq, notF⟩ := others keyword member
  rw [keywordEq] at shape
  exact notF (List.cons.inj shape).1.symm

/-- The word of a declaration ends with white space, so no mark follows it. -/
theorem IsDeclaration.ne_append {word further : List Char} {mark : Char}
    (declaration : IsDeclaration code) (named : ∀ letter ∈ word, isName letter = true)
    (outside : isName mark = false) (visible : isSpace mark = false) :
    code ≠ word ++ mark :: further := by
  obtain ⟨name, rest, keyword, member, blanks, more, someBlank, spaced, _, _, rfl⟩ := declaration
  have letters : ∀ word ∈ ["const", "let", "var"], ∀ letter ∈ word.toList,
      isName letter = true := by
    simp only [List.forall_mem_cons]
    exact ⟨forall_of_all (by decide), forall_of_all (by decide), forall_of_all (by decide), nofun⟩
  obtain ⟨blank, others, rfl⟩ := List.exists_cons_of_ne_nil someBlank
  have isBlank : isSpace blank = true := spaced blank List.mem_cons_self
  intro shape
  have behind := (eq_of_endsClass (letters keyword member)
    (endsClass_cons (isName_of_isSpace isBlank) _) named (endsClass_cons outside further) shape).2
  rw [(List.cons.inj behind).1, visible] at isBlank
  cases isBlank

theorem IsCopyStep.not_isDeclaration (step : IsCopyStep copy index tail code) :
    ¬ IsDeclaration code := by
  intro declaration
  obtain ⟨source, sets | appends⟩ := step
  · obtain ⟨isCopy, _, _, _, blanks, more, _, _, shape⟩ := sets
    exact declaration.ne_append isCopy.2 (by decide) (by decide) shape
  · obtain ⟨isCopy, _, _, blanks, more, _, _, shape⟩ := appends
    exact declaration.ne_append isCopy.2 (by decide) (by decide) shape

end Forms

/-! ## Lines that are reported -/

section Windows

variable {first second third fourth line : CodeLine} {lines : List CodeLine} {start other : Nat}

theorem isIndexedCopy_iff {array index head body : List Char} :
    isIndexedCopy array index head body = true ↔ ∃ copy counter bound tail,
      IsEmptyArray copy array ∧ IsIndexVariable counter index ∧ IsLoop counter bound head ∧
        IsCopyStep copy counter tail body := by
  constructor
  · intro isCopy
    unfold isIndexedCopy at isCopy
    split at isCopy
    · next copy counter loopIndex bound target stepIndex arrayEq indexEq loopEq stepEq =>
        simp only [Bool.and_eq_true, beq_iff_eq] at isCopy
        obtain ⟨⟨rfl, rfl⟩, rfl⟩ := isCopy
        obtain ⟨tail, step⟩ := copyStep?_eq_some_iff.mp stepEq
        exact ⟨_, _, bound, tail, captured?_emptyArray.mp arrayEq,
          captured?_indexVariable.mp indexEq, loopBound?_eq_some_iff.mp loopEq, step⟩
    · cases isCopy
  · rintro ⟨copy, counter, bound, tail, isArray, isIndex, isLoop, isStep⟩
    rw [isIndexedCopy, captured?_emptyArray.mpr isArray, captured?_indexVariable.mpr isIndex,
      loopBound?_eq_some_iff.mpr isLoop, copyStep?_eq_some_iff.mpr ⟨tail, isStep⟩]
    simp

theorem isLengthCopy_iff {length array head body : List Char} :
    isLengthCopy length array head body = true ↔ ∃ copy counter bound tail,
      IsLengthVariable bound length ∧ IsEmptyArray copy array ∧ IsLoop counter bound head ∧
        IsCopyStep copy counter tail body := by
  constructor
  · intro isCopy
    unfold isLengthCopy at isCopy
    split at isCopy
    · next bound copy counter loopBound target stepIndex lengthEq arrayEq loopEq stepEq =>
        simp only [Bool.and_eq_true, beq_iff_eq] at isCopy
        obtain ⟨⟨rfl, rfl⟩, rfl⟩ := isCopy
        obtain ⟨tail, step⟩ := copyStep?_eq_some_iff.mp stepEq
        exact ⟨_, _, _, tail, captured?_lengthVariable.mp lengthEq, captured?_emptyArray.mp arrayEq,
          loopBound?_eq_some_iff.mp loopEq, step⟩
    · cases isCopy
  · rintro ⟨copy, counter, bound, tail, isLength, isArray, isLoop, isStep⟩
    rw [isLengthCopy, captured?_lengthVariable.mpr isLength, captured?_emptyArray.mpr isArray,
      loopBound?_eq_some_iff.mpr isLoop, copyStep?_eq_some_iff.mpr ⟨tail, isStep⟩]
    simp

/-- A copy begins with two declarations, and its other two lines declare nothing. -/
theorem declares_of_reportedLine? (reported : reportedLine? first second third fourth = some line) :
    IsDeclaration first.code ∧ IsDeclaration second.code ∧ ¬ IsDeclaration third.code ∧
      ¬ IsDeclaration fourth.code := by
  unfold reportedLine? at reported
  split at reported
  · next isIndexed =>
      obtain ⟨_, _, _, _, array, counter, loop, step⟩ := isIndexedCopy_iff.mp isIndexed
      exact ⟨array.isDeclaration, counter.isDeclaration, loop.not_isDeclaration,
        step.not_isDeclaration⟩
  · split at reported
    · next isLength =>
        obtain ⟨_, _, _, _, length, array, loop, step⟩ := isLengthCopy_iff.mp isLength
        exact ⟨length.isDeclaration, array.isDeclaration, loop.not_isDeclaration,
          step.not_isDeclaration⟩
    · cases reported

/-! ## Windows -/

/-- The line on which a copy is reported that begins with the first of these lines. -/
def copyLine? : List CodeLine → Option CodeLine
  | first :: second :: third :: fourth :: _ => reportedLine? first second third fourth
  | _ => none

/-- The lines that are reported if copies are looked for from every line on. -/
def everyCopyLine (lines : List CodeLine) : List CodeLine :=
  (List.range lines.length).filterMap fun start => copyLine? (lines.drop start)

/-- The lines, by their numbers, with which a copy begins. -/
def copyStarts (lines : List CodeLine) : List Nat :=
  (List.range lines.length).filter fun start => (copyLine? (lines.drop start)).isSome

theorem exists_of_copyLine? (found : copyLine? lines = some line) :
    ∃ first second third fourth rest, lines = first :: second :: third :: fourth :: rest ∧
      reportedLine? first second third fourth = some line := by
  unfold copyLine? at found
  split at found
  · next first second third fourth rest => exact ⟨first, second, third, fourth, rest, rfl, found⟩
  · cases found

/-- The line with this number declares a name. -/
def DeclaresAt (lines : List CodeLine) (number : Nat) : Prop :=
  ∃ line, lines[number]? = some line ∧ IsDeclaration line.code

theorem declaresAt_of_copyLine? (found : (copyLine? (lines.drop start)).isSome) :
    DeclaresAt lines start ∧ DeclaresAt lines (start + 1) ∧ ¬ DeclaresAt lines (start + 2) ∧
      ¬ DeclaresAt lines (start + 3) := by
  obtain ⟨line, foundEq⟩ := Option.isSome_iff_exists.mp found
  obtain ⟨first, second, third, fourth, rest, linesEq, reported⟩ := exists_of_copyLine? foundEq
  obtain ⟨isFirst, isSecond, notThird, notFourth⟩ := declares_of_reportedLine? reported
  have at_eq (offset : Nat) : lines[start + offset]? =
      (first :: second :: third :: fourth :: rest)[offset]? := by
    rw [← linesEq, List.getElem?_drop]
  refine ⟨⟨first, at_eq 0, isFirst⟩, ⟨second, at_eq 1, isSecond⟩, ?_, ?_⟩
  · rintro ⟨other, otherEq, declares⟩
    cases (at_eq 2).symm.trans otherEq
    exact notThird declares
  · rintro ⟨other, otherEq, declares⟩
    cases (at_eq 3).symm.trans otherEq
    exact notFourth declares

/-- Two copies have no line in common. -/
theorem add_four_le_of_copyLine? (found : (copyLine? (lines.drop start)).isSome)
    (foundLater : (copyLine? (lines.drop other)).isSome) (later : start < other) :
    start + 4 ≤ other := by
  obtain ⟨_, _, notThird, notFourth⟩ := declaresAt_of_copyLine? found
  obtain ⟨isFirst, isSecond, _, _⟩ := declaresAt_of_copyLine? foundLater
  by_contra near
  have cases : other = start + 1 ∨ other = start + 2 ∨ other = start + 3 := by omega
  rcases cases with rfl | rfl | rfl
  · exact notThird isSecond
  · exact notThird isFirst
  · exact notFourth isFirst

/-! ## All windows -/

theorem everyCopyLine_cons (first : CodeLine) (rest : List CodeLine) :
    everyCopyLine (first :: rest) =
      (copyLine? (first :: rest)).toList ++ everyCopyLine rest := by
  rw [everyCopyLine, List.length_cons, List.range_succ_eq_map, List.filterMap_cons,
    List.drop_zero, List.filterMap_map]
  cases copyLine? (first :: rest) <;> rfl

/-- Behind a copy the next one begins, if any does, after its four lines. -/
theorem everyCopyLine_of_reported {rest : List CodeLine}
    (reported : reportedLine? first second third fourth = some line) :
    everyCopyLine (first :: second :: third :: fourth :: rest) = line :: everyCopyLine rest := by
  have found : copyLine? (first :: second :: third :: fourth :: rest) = some line := reported
  have none_within (offset : Nat) (inside : 0 < offset) (within : offset < 4) :
      copyLine? ((first :: second :: third :: fourth :: rest).drop offset) = none := by
    rw [← Option.not_isSome_iff_eq_none]
    intro foundLater
    have isFound : (copyLine? ((first :: second :: third :: fourth :: rest).drop 0)).isSome := by
      rw [List.drop_zero, found]
      rfl
    have apart := add_four_le_of_copyLine? isFound foundLater inside
    omega
  have noSecond : copyLine? (second :: third :: fourth :: rest) = none :=
    none_within 1 (by omega) (by omega)
  have noThird : copyLine? (third :: fourth :: rest) = none := none_within 2 (by omega) (by omega)
  have noFourth : copyLine? (fourth :: rest) = none := none_within 3 (by omega) (by omega)
  simp only [everyCopyLine_cons, found, noSecond, noThird, noFourth, Option.toList_some,
    Option.toList_none, List.nil_append, List.singleton_append]

/-- To go on behind each copy that was found loses nothing. -/
theorem reportedLines_eq_everyCopyLine (lines : List CodeLine) :
    reportedLines lines = everyCopyLine lines := by
  fun_induction reportedLines lines with
  | case1 first second third fourth rest line reported inductionHypothesis =>
      rw [everyCopyLine_of_reported reported, inductionHypothesis]
  | case2 first second third fourth rest notReported inductionHypothesis =>
      have notFound : copyLine? (first :: second :: third :: fourth :: rest) = none := notReported
      rw [everyCopyLine_cons, notFound, inductionHypothesis]
      rfl
  | case3 lines short =>
      rcases lines with _ | ⟨first, _ | ⟨second, _ | ⟨third, _ | ⟨fourth, rest⟩⟩⟩⟩
      · rfl
      · rfl
      · rfl
      · rfl
      · exact absurd rfl (short first second third fourth rest)

end Windows

/-- The rule reports the copies that a look at every four neighbouring lines finds. No two of them
have a line in common, and no line is reported twice. -/
theorem check_eq_everyCopyLine (document : Document) (options : RuleOptions) :
    rule.check document options = .ok ((everyCopyLine (codeLines document)).map issueOf) ∧
      (copyStarts (codeLines document)).Pairwise (fun start other => start + 4 ≤ other) ∧
      ((everyCopyLine (codeLines document)).map fun line => (issueOf line).line).Nodup := by
  refine ⟨?_, ?_, ?_⟩
  · rw [← reportedLines_eq_everyCopyLine]
    rfl
  · have ordered : (List.range (codeLines document).length).Pairwise (· < ·) :=
      List.pairwise_lt_range
    refine (ordered.filter _).imp_of_mem fun {start other} isStart isOther later => ?_
    exact add_four_le_of_copyLine? (List.mem_filter.mp isStart).2 (List.mem_filter.mp isOther).2 later
  · rw [← reportedLines_eq_everyCopyLine]
    refine List.pairwise_map.mpr
      (((pairwise_codeLines document).sublist (reportedLines_sublist _)).imp ?_)
    exact fun before => Nat.ne_of_lt before

/-! ## What is reported -/

/-- The last character of the code that is neither white space nor a semicolon. -/
def lastMark? (code : List Char) : Option Char :=
  lastOutside? (fun letter => isSpace letter || letter == ';') code

theorem lastMark?_append {back : List Char} {mark : Char} (front : List Char)
    (found : lastMark? back = some mark) : lastMark? (front ++ back) = some mark :=
  lastOutside?_append_of_eq_some front found

/-- An ending has no mark of its own. -/
theorem lastMark?_append_ending (front : List Char) {ending : List Char}
    (isEnding : IsEnding ending) : lastMark? (front ++ ending) = lastMark? front := by
  have inside : ∀ letter ∈ ending, (isSpace letter || letter == ';') = true := by
    intro letter member
    obtain ⟨blanks, spaced, rfl | rfl⟩ := isEnding
    · rw [spaced letter member, Bool.true_or]
    · rcases List.mem_append.mp member with isBlank | isMark
      · rw [spaced letter isBlank, Bool.true_or]
      · have isSemicolon : letter = ';' := by simpa using isMark
        rw [isSemicolon, beq_self_eq_true, Bool.or_true]
  rw [lastMark?, lastOutside?_append, lastOutside?_eq_none inside]
  rfl

theorem IsEmptyArray.lastMark?_eq {copy code : List Char} (array : IsEmptyArray copy code) :
    lastMark? code = some ']' := by
  obtain ⟨_, ⟨typing, blanks, ending, _, _, isEnding, rfl⟩, keyword, _, gap, more, _, _, _, _, rfl⟩ :=
    array
  have elements : lastMark? ("[]".toList ++ ending) = some ']' :=
    lastMark?_append_ending "[]".toList isEnding
  iterate 7 apply lastMark?_append
  exact elements

theorem IsLengthVariable.lastMark?_eq {bound code : List Char}
    (length : IsLengthVariable bound code) : lastMark? code = some 'h' := by
  obtain ⟨_, ⟨typing, blanks, measured, ending, _, _, _, isEnding, rfl⟩, keyword, _, gap, more, _, _,
    _, _, rfl⟩ := length
  have member : lastMark? (".length".toList ++ ending) = some 'h' :=
    lastMark?_append_ending ".length".toList isEnding
  iterate 8 apply lastMark?_append
  exact member

/-- Behind the element of a step there is a mark of its own. -/
theorem IsCopyStep.lastMark?_eq {copy index tail code : List Char}
    (step : IsCopyStep copy index tail code) (isEnding : IsEnding tail) :
    lastMark? code = some ']' ∨ lastMark? code = some ')' := by
  obtain ⟨source, ⟨_, _, _, _, blanks, more, _, _, rfl⟩ | ⟨_, _, _, blanks, more, _, _, rfl⟩⟩ := step
  · left
    have element : lastMark? ("]".toList ++ tail) = some ']' :=
      lastMark?_append_ending "]".toList isEnding
    iterate 10 apply lastMark?_append
    exact element
  · right
    have argument : lastMark? (")".toList ++ tail) = some ')' :=
      lastMark?_append_ending ")".toList isEnding
    iterate 8 apply lastMark?_append
    exact argument

/-- A window is reported exactly if its lines have the forms of a copy. In one of the two orders the
array is the line that is reported. -/
theorem reportedLine?_eq_some_iff {first second third fourth line : CodeLine} :
    reportedLine? first second third fourth = some line ↔
      ∃ copy index bound tail, IsCopyStep copy index tail fourth.code ∧
        IsLoop index bound third.code ∧
        ((IsEmptyArray copy first.code ∧ IsIndexVariable index second.code ∧ line = first) ∨
          (IsLengthVariable bound first.code ∧ IsEmptyArray copy second.code ∧ line = second)) := by
  unfold reportedLine?
  constructor
  · intro reported
    split at reported
    · next isIndexed =>
        obtain ⟨copy, index, bound, tail, array, counter, loop, step⟩ :=
          isIndexedCopy_iff.mp isIndexed
        exact ⟨copy, index, bound, tail, step, loop,
          Or.inl ⟨array, counter, (Option.some.inj reported).symm⟩⟩
    · split at reported
      · next isLength =>
          obtain ⟨copy, index, bound, tail, length, array, loop, step⟩ :=
            isLengthCopy_iff.mp isLength
          exact ⟨copy, index, bound, tail, step, loop,
            Or.inr ⟨length, array, (Option.some.inj reported).symm⟩⟩
      · cases reported
  · rintro ⟨copy, index, bound, tail, step, loop,
      ⟨array, counter, rfl⟩ | ⟨length, array, rfl⟩⟩
    · rw [if_pos (isIndexedCopy_iff.mpr ⟨copy, index, bound, tail, array, counter, loop, step⟩)]
    · -- the first line gives a length, so it is no array and the other order does not come first
      have notIndexed : ¬ isIndexedCopy first.code line.code third.code fourth.code = true := by
        intro isIndexed
        obtain ⟨_, _, _, _, other, _⟩ := isIndexedCopy_iff.mp isIndexed
        have same := other.lastMark?_eq.symm.trans length.lastMark?_eq
        exact absurd (Option.some.inj same) (by decide)
      rw [if_neg notIndexed,
        if_pos (isLengthCopy_iff.mpr ⟨copy, index, bound, tail, length, array, loop, step⟩)]

theorem mem_everyCopyLine {lines : List CodeLine} {line : CodeLine} :
    line ∈ everyCopyLine lines ↔ ∃ before first second third fourth after,
      lines = before ++ first :: second :: third :: fourth :: after ∧
        reportedLine? first second third fourth = some line := by
  rw [everyCopyLine, List.mem_filterMap]
  constructor
  · rintro ⟨start, _, found⟩
    obtain ⟨first, second, third, fourth, rest, dropEq, reported⟩ := exists_of_copyLine? found
    refine ⟨lines.take start, first, second, third, fourth, rest, ?_, reported⟩
    rw [← dropEq, List.take_append_drop]
  · rintro ⟨before, first, second, third, fourth, after, rfl, reported⟩
    refine ⟨before.length, ?_, ?_⟩
    · rw [List.mem_range, List.length_append, List.length_cons]
      omega
    · rw [List.drop_left]
      exact reported

/-- The rule reports the array of every four neighbouring lines of code that have the forms of a
copy, whatever follows the element in the step, and nothing else. -/
theorem check_reports_iff (document : Document) (options : RuleOptions) :
    ∃ issues, rule.check document options = .ok issues ∧ ∀ issue, issue ∈ issues ↔
      ∃ before first second third fourth after copy index bound tail,
        codeLines document = before ++ first :: second :: third :: fourth :: after ∧
          IsCopyStep copy index tail fourth.code ∧ IsLoop index bound third.code ∧
          ((IsEmptyArray copy first.code ∧ IsIndexVariable index second.code ∧
              issue = issueOf first) ∨
            (IsLengthVariable bound first.code ∧ IsEmptyArray copy second.code ∧
              issue = issueOf second)) := by
  refine ⟨_, rfl, fun issue => ?_⟩
  rw [issues, reportedLines_eq_everyCopyLine, List.mem_map]
  constructor
  · rintro ⟨line, member, rfl⟩
    obtain ⟨before, first, second, third, fourth, after, shape, reported⟩ :=
      mem_everyCopyLine.mp member
    obtain ⟨copy, index, bound, tail, step, loop,
      ⟨array, counter, rfl⟩ | ⟨length, array, rfl⟩⟩ := reportedLine?_eq_some_iff.mp reported
    · exact ⟨before, line, second, third, fourth, after, copy, index, bound, tail, shape, step, loop,
        Or.inl ⟨array, counter, rfl⟩⟩
    · exact ⟨before, first, line, third, fourth, after, copy, index, bound, tail, shape, step, loop,
        Or.inr ⟨length, array, rfl⟩⟩
  · rintro ⟨before, first, second, third, fourth, after, copy, index, bound, tail, shape, step, loop,
      ⟨array, counter, rfl⟩ | ⟨length, array, rfl⟩⟩
    · refine ⟨first, mem_everyCopyLine.mpr ⟨before, first, second, third, fourth, after, shape, ?_⟩,
        rfl⟩
      exact reportedLine?_eq_some_iff.mpr ⟨copy, index, bound, tail, step, loop,
        Or.inl ⟨array, counter, rfl⟩⟩
    · refine ⟨second, mem_everyCopyLine.mpr ⟨before, first, second, third, fourth, after, shape, ?_⟩,
        rfl⟩
      exact reportedLine?_eq_some_iff.mpr ⟨copy, index, bound, tail, step, loop,
        Or.inr ⟨length, array, rfl⟩⟩

/-- Four lines, the step of which doubles the element that it copies. -/
def doublingLoop : Document :=
  ⟨("const out = [];\nlet i = 0;\nfor (i = 0; i < items.length; i++) \x7b\n" ++
    "    out[i] = items[i] * 2;\n\x7d").toList⟩

/-- A loop that doubles the elements is reported as a copy, although its step is none. -/
theorem check_reportsDoublingLoop :
    (∃ issue, rule.check doublingLoop .enabled = .ok [issue] ∧ issue.line = 0) ∧
      (codeLines doublingLoop).map (fun line => line.code) = ["const out = [];".toList,
        "let i = 0;".toList, "for (i = 0; i < items.length; i++) \x7b".toList,
        "out[i] = items[i] * 2;".toList, "\x7d".toList] ∧
      ∀ copy index tail, IsCopyStep copy index tail "out[i] = items[i] * 2;".toList →
        ¬ IsEnding tail := by
  have reported : everyCopyLine (codeLines doublingLoop) =
      [⟨0, "const out = [];".toList, "const out = [];".toList⟩] := by
    decide +kernel
  have issuesEq : issues doublingLoop = _ := congrArg (List.map issueOf)
    ((reportedLines_eq_everyCopyLine (codeLines doublingLoop)).trans reported)
  refine ⟨⟨_, congrArg Except.ok issuesEq, rfl⟩, by decide +kernel,
    fun copy index tail step isEnding => ?_⟩
  rcases step.lastMark?_eq isEnding with isBracket | isParenthesis
  · exact absurd isBracket (by decide)
  · exact absurd isParenthesis (by decide)

end ScriptLint.ArrayCopy
