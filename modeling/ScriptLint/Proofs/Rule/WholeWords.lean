import ScriptLint.Proofs.Rule.Matches
import ScriptLint.Proofs.Outline.NameEdges

/-!
# Whole words

The keyword for a variable, the type that accepts everything and the call of a logging function are
searched for by word edges, and a word edge takes a dollar sign for no part of a word. So what is
reported is a whole identifier exactly if no dollar sign stands at such an edge. The names of an
outline are whole unless they begin directly behind the word for a function.
-/

namespace ScriptLint

open Text Text.Pattern

variable {document : Document} {index : Nat} {line : ScannedLine}

/-- The issue covers these letters of its line. -/
structure Issue.Covers (document : Document) (issue : Issue) (letters : List Char) : Prop where
  length_eq : issue.length = some letters.length
  isPrefix : letters <+: (document.line issue.line).drop issue.character

namespace RuleInfo

variable {info : RuleInfo} {report : Match → Option Finding} {found : Match} {finding : Finding}
  {before run after : List Char}

/-- The issue for a run of the code stands where the run stands in the document. -/
theorem yields_shows (reported : report found = some finding)
    (member : (line, index) ∈ document.scan.zipIdx) (nonempty : run ≠ [])
    (noSpace : ' ' ∉ run) (codeEq : line.code = before ++ (run ++ after))
    (startEq : finding.start = byteLength before) (sizeEq : finding.size = byteLength run) :
    Yields (info.issueOfMatch? report index line found) fun issue => ∀ reported ∈ issue,
      reported.length = some run.length ∧
        document.Shows reported.line reported.character run before.getLast? after.head? := by
  have visible : ∀ letter ∈ run, letter ≠ ' ' := fun _ member same => noSpace (same ▸ member)
  have shows := Document.shows_of_code member nonempty visible codeEq
  have inCode : (spanBehind before run).IsIn line.code :=
    ⟨before, after, codeEq.trans (List.append_assoc _ _ _).symm, rfl, rfl⟩
  have inText := (Document.holds_of_mem_zipIdx member).isIn_text inCode nonempty visible
  have columns : line.column (finding.start + finding.size) =
      line.column finding.start + run.length := by
    rw [startEq, sizeEq]
    exact inText.charColumn_stop
  unfold issueOfMatch?
  rw [reported]
  dsimp only
  split
  · exact .ok nofun
  · rw [columns, spanLength, if_pos (Nat.le_add_right _ _), Nat.add_sub_cancel_left]
    refine .ok ?_
    rintro reported ⟨⟩
    rw [startEq]
    exact ⟨rfl, shows⟩

end RuleInfo

/-! ## Word edges -/

section Edges

variable {before word after : List Char}

/-- In front of a word a word edge has no word character. -/
theorem noWord_before
    (edge : before.getLast?.any isWord ≠ (word ++ after).head?.any isWord)
    (isLetter : word.head?.any isWord = true) : before.getLast?.any isWord = false := by
  have nonempty : word ≠ [] := by
    rintro rfl
    cases isLetter
  rw [List.head?_append_of_ne_nil _ nonempty, isLetter] at edge
  exact Bool.eq_false_iff.mpr edge

/-- Behind a word a word edge has no word character. -/
theorem noWord_behind
    (edge : (before ++ word).getLast?.any isWord ≠ after.head?.any isWord)
    (isLetter : word.getLast?.any isWord = true) : after.head?.any isWord = false := by
  have nonempty : word ≠ [] := by
    rintro rfl
    cases isLetter
  rw [List.getLast?_append_of_ne_nil _ nonempty, isLetter] at edge
  exact Bool.eq_false_iff.mpr (Ne.symm edge)

end Edges

/-! ## Rules -/

variable (options : RuleOptions)

/-- The keyword for a variable is reported, and it is whole unless a dollar sign stands in front of
it. -/
theorem NoVar.yields_covers (ascii : document.IsAscii) :
    Yields (rule.check document options) fun issues => ∀ issue ∈ issues,
      issue.Covers document "var".toList ∧
        (document.IsWholeAt issue.line issue.character "var".length ↔
          document.letterBefore? issue.line issue.character ≠ some '$') := by
  apply RuleInfo.yields_reportMatches_of
  intro entry member found foundMember
  obtain ⟨before, after, codeEq, startEq, fits⟩ :=
    (isMatch_of_mem_searchAll foundMember).exists_fits
  simp only [keyword, fits_inOrder_cons, fits_inOrder_nil, fits_literal, fits_atWordEdge, fits_gap]
    at fits
  obtain ⟨_, _, lettersEq, ⟨rfl, edge⟩, _, _, rfl, rfl, space, _, rfl, ⟨someSpace, spaced⟩, rfl⟩ :=
    fits
  obtain ⟨blank, others, rfl⟩ := List.exists_cons_of_ne_nil someSpace
  have isSpace := spaced blank List.mem_cons_self
  rw [lettersEq, List.append_assoc, List.nil_append, List.append_nil, List.append_assoc] at codeEq
  rw [List.append_nil, List.append_assoc] at edge
  refine (RuleInfo.yields_shows rfl member (by decide) (by decide) codeEq startEq rfl).mono ?_
  rintro issue shown reported isReported
  obtain ⟨lengthEq, shows⟩ := shown reported isReported
  refine ⟨⟨lengthEq, shows.isPrefix⟩, ?_⟩
  have noDollar : document.letterAt? reported.line (reported.character + "var".length) ≠
      some '$' := by
    intro dollar
    obtain rfl := Option.some.inj (shows.meets_behind.eq_dollar_iff.mp dollar)
    exact absurd isSpace (by decide)
  exact (shows.isWholeAt_iff_dollar ascii (noWord_before edge (by decide))
    (isWord_of_isSpace isSpace)).trans (and_iff_left noDollar)

/-- The type that accepts everything is reported, and it is whole unless a dollar sign stands behind
it. -/
theorem NoAny.yields_covers (ascii : document.IsAscii) :
    Yields (rule.check document options) fun issues => ∀ issue ∈ issues,
      issue.Covers document "any".toList ∧
        (document.IsWholeAt issue.line issue.character "any".length ↔
          document.letterAt? issue.line (issue.character + "any".length) ≠ some '$') := by
  apply RuleInfo.yields_reportMatches_of
  intro entry member found foundMember
  have isMatch := isMatch_of_mem_searchAll foundMember
  have records : typeAnnotated.Records 1 := by
    simp [typeAnnotated, Records]
  obtain ⟨span, recorded⟩ := Option.isSome_iff_exists.mp (isMatch.isSome_group? records)
  have bodiesEq : typeAnnotated.bodies 1 = [literal "any"] := by
    simp [typeAnnotated, bodies]
  obtain ⟨before, front, back, after, codeEq, startEq, fitsFront, fitsAny, fitsBack⟩ :=
    @IsMatch.exists_around _ [literal ":", spaces] [atWordEdge] _ _ _ _ isMatch bodiesEq recorded
  have isAny : span.letters = "any".toList := fits_literal.mp fitsAny
  simp only [fits_inOrder_cons, fits_inOrder_nil, fits_atWordEdge] at fitsBack
  obtain ⟨_, _, rfl, ⟨rfl, edge⟩, rfl⟩ := fitsBack
  -- in front of the type stands white space or the colon
  have apart : (inOrder [literal ":", spaces]).FinishesIn Declaration.IsApart := by
    apply finishesIn_inOrder
    simp only [List.forall_mem_cons]
    exact ⟨Declaration.finishesIn_literal (by decide), Declaration.finishesIn_spaces,
      List.forall_mem_nil _⟩
  have moves : (inOrder [literal ":", spaces]).Moves :=
    moves_inOrder List.mem_cons_self (Declaration.moves_literal List.mem_cons_self)
  have begins : (before ++ front).getLast?.any isName = false := by
    apply Declaration.any_isName_eq_false
    rw [List.getLast?_append_of_ne_nil _ (fitsFront.hasEnds.ne_nil moves)]
    exact fitsFront.hasEnds.last Declaration.IsApart apart
  have reported : report found =
      some ⟨span.start, span.size, "Avoid the any type; use a specific type or unknown"⟩ := by
    rw [report, recorded]
    rfl
  have sizeEq : span.size = byteLength "any".toList := by
    obtain ⟨_, _, _, _, stopEq⟩ := isMatch.group_isIn recorded
    rw [Span.size, stopEq, Nat.add_sub_cancel_left, isAny]
  rw [isAny, ← List.append_assoc, List.nil_append, List.nil_append] at codeEq
  rw [isAny] at edge
  refine (RuleInfo.yields_shows reported member (by decide) (by decide) codeEq startEq
    sizeEq).mono ?_
  rintro issue shown reported isReported
  obtain ⟨lengthEq, shows⟩ := shown reported isReported
  refine ⟨⟨lengthEq, shows.isPrefix⟩, ?_⟩
  calc document.IsWholeAt reported.line reported.character "any".length
    _ ↔ (before ++ front).getLast?.any isName = false ∧ after.head?.any isName = false :=
        shows.isWholeAt_iff ascii
    _ ↔ after.head?.any isName = false := and_iff_right begins
    _ ↔ after.head? ≠ some '$' := any_isName_iff (noWord_behind edge (by decide))
    _ ↔ document.letterAt? reported.line (reported.character + "any".length) ≠ some '$' :=
        not_congr shows.meets_behind.eq_dollar_iff.symm

/-- The logging functions of the console. -/
def NoConsole.calls : List String :=
  ["console.log", "console.warn", "console.error", "console.info", "console.debug"]

theorem NoConsole.exists_call {word : String}
    (member : word ∈ ["log", "warn", "error", "info", "debug"]) :
    ∃ call ∈ calls, "console.".toList ++ word.toList = call.toList := by
  simp only [List.mem_cons, List.not_mem_nil, or_false] at member
  rcases member with rfl | rfl | rfl | rfl | rfl
  · exact ⟨"console.log", by decide, rfl⟩
  · exact ⟨"console.warn", by decide, rfl⟩
  · exact ⟨"console.error", by decide, rfl⟩
  · exact ⟨"console.info", by decide, rfl⟩
  · exact ⟨"console.debug", by decide, rfl⟩

theorem NoConsole.edges_of_mem_calls : ∀ call ∈ calls, call.toList ≠ [] ∧
    ' ' ∉ call.toList ∧ call.toList.head?.any isWord = true ∧
      call.toList.getLast?.any isWord = true := by
  decide

/-- The call of a logging function is reported, and it is whole unless a dollar sign stands on one
of its sides. -/
theorem NoConsole.yields_covers (ascii : document.IsAscii) :
    Yields (rule.check document options) fun issues => ∀ issue ∈ issues,
      ∃ call ∈ calls, issue.Covers document call.toList ∧
        (document.IsWholeAt issue.line issue.character call.length ↔
          document.letterBefore? issue.line issue.character ≠ some '$' ∧
            document.letterAt? issue.line (issue.character + call.length) ≠ some '$') := by
  apply RuleInfo.yields_reportMatches_of
  intro entry member found foundMember
  have isMatch := isMatch_of_mem_searchAll foundMember
  have records : consoleCall.Records 1 := by
    simp [consoleCall, Records]
  obtain ⟨span, recorded⟩ := Option.isSome_iff_exists.mp (isMatch.isSome_group? records)
  obtain ⟨before, after, codeEq, startEq, fits⟩ := isMatch.exists_fits
  simp only [consoleCall, fits_inOrder_cons, fits_inOrder_nil, fits_literal, fits_atWordEdge,
    fits_group, fits_wordOf] at fits
  obtain ⟨_, _, lettersEq, ⟨rfl, edgeBefore⟩, _, _, rfl, rfl, _, _, rfl, ⟨word, isWord, rfl⟩, _, _,
    rfl, ⟨rfl, edgeBehind⟩, rfl⟩ := fits
  obtain ⟨call, isCall, callEq⟩ := exists_call isWord
  obtain ⟨nonempty, noSpace, begins, ends⟩ := edges_of_mem_calls call isCall
  rw [List.append_nil, List.append_nil, List.nil_append, callEq] at lettersEq
  rw [lettersEq, List.append_assoc] at codeEq
  rw [List.append_nil, List.append_nil, callEq] at edgeBefore
  rw [List.append_nil, List.append_assoc, callEq, List.nil_append] at edgeBehind
  have sizeEq : found.whole.size = byteLength call.toList := by
    obtain ⟨_, _, _, _, stopEq⟩ := isMatch.whole_isIn
    rw [Span.size, stopEq, Nat.add_sub_cancel_left, lettersEq]
  have reported : report found = some ⟨found.whole.start, found.whole.size,
      "Unexpected console." ++ String.ofList span.letters ++ " call"⟩ := by
    rw [report, recorded]
    rfl
  refine (RuleInfo.yields_shows reported member nonempty noSpace codeEq startEq sizeEq).mono ?_
  rintro issue shown reported isReported
  obtain ⟨lengthEq, shows⟩ := shown reported isReported
  exact ⟨call, isCall, ⟨lengthEq, shows.isPrefix⟩, shows.isWholeAt_iff_dollar ascii
    (noWord_before edgeBefore begins) (noWord_behind edgeBehind ends)⟩

/-! ## Names and keywords -/

/-- In ASCII, every declared name and every reported keyword stands where it is reported. A name is
whole unless it is that of a function and begins directly behind the word for a function; a keyword
is whole unless a dollar sign stands at one of its word edges. -/
theorem reportedNames_areWhole_iff (ascii : document.IsAscii) :
    (∀ declaration ∈ (Outline.ofDocument document).declarations,
      declaration.name <+: (document.line declaration.line).drop declaration.character ∧
        (document.IsWholeAt declaration.line declaration.character declaration.name.length ↔
          ¬(declaration.kind = .function ∧
            "function".toList <:+ (document.line declaration.line).take declaration.character))) ∧
      (Yields (NoVar.rule.check document options) fun issues => ∀ issue ∈ issues,
        issue.Covers document "var".toList ∧
          (document.IsWholeAt issue.line issue.character "var".length ↔
            document.letterBefore? issue.line issue.character ≠ some '$')) ∧
      (Yields (NoAny.rule.check document options) fun issues => ∀ issue ∈ issues,
        issue.Covers document "any".toList ∧
          (document.IsWholeAt issue.line issue.character "any".length ↔
            document.letterAt? issue.line (issue.character + "any".length) ≠ some '$')) ∧
      Yields (NoConsole.rule.check document options) fun issues => ∀ issue ∈ issues,
        ∃ call ∈ NoConsole.calls, issue.Covers document call.toList ∧
          (document.IsWholeAt issue.line issue.character call.length ↔
            document.letterBefore? issue.line issue.character ≠ some '$' ∧
              document.letterAt? issue.line (issue.character + call.length) ≠ some '$') :=
  ⟨fun _ member => Declaration.isWholeAt_iff ascii member, NoVar.yields_covers options ascii,
    NoAny.yields_covers options ascii, NoConsole.yields_covers options ascii⟩

/-- A document with a call of a function whose name begins with the word for a function, above a
variable. -/
def callAboveVariable : Document := .ofString "functionCall();\nvar total = 0;"

/-- The call reads like the head of a function whose name begins directly behind the word for a
function, so that name is no whole identifier. The name of the variable and its keyword are. -/
theorem callAboveVariable_names :
    callAboveVariable.IsAscii ∧ ¬callAboveVariable.IsWholeAt 0 8 4 ∧
      callAboveVariable.IsWholeAt 1 4 5 ∧ callAboveVariable.IsWholeAt 1 0 3 := by
  have ascii : callAboveVariable.IsAscii :=
    List.all_eq_true.mp (show callAboveVariable.text.all isAscii = true by decide)
  have isFunction : ⟨.function, "Call".toList, 0, 8, none, none⟩ ∈
      (Outline.ofDocument callAboveVariable).declarations := by
    decide +kernel
  have isVariable : ⟨.binding, "total".toList, 1, 4, none, none⟩ ∈
      (Outline.ofDocument callAboveVariable).declarations := by
    decide +kernel
  have isReported : NoVar.rule.check callAboveVariable .enabled =
      .ok [NoVar.info.issue 1 0 3 "Use let or const instead of var"] := by
    decide +kernel
  obtain ⟨names, ⟨issues, checked, covers⟩, -, -⟩ := reportedNames_areWhole_iff .enabled ascii
  refine ⟨ascii, ?_, ?_, ?_⟩
  · intro whole
    exact (names _ isFunction).2.mp whole ⟨rfl, by decide +kernel⟩
  · exact (names _ isVariable).2.mpr fun behind => DeclarationKind.noConfusion behind.1
  · obtain rfl := Except.ok.inj (isReported.symm.trans checked)
    exact (covers _ (List.mem_singleton_self _)).2.mpr (by decide +kernel)

/-- A name that begins with a dollar sign and the word for a variable is reported as that word. -/
theorem dollarName_isReported :
    NoVar.rule.check (.ofString "let $var = 1;") .enabled =
        .ok [NoVar.info.issue 0 5 3 "Use let or const instead of var"] ∧
      ¬(Document.ofString "let $var = 1;").IsWholeAt 0 5 3 := by
  constructor
  · decide +kernel
  · rintro ⟨begins, -⟩
    exact absurd begins (by decide +kernel)

end ScriptLint
