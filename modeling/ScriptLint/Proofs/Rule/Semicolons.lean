import ScriptLint.Proofs.Document.Phrases
import ScriptLint.Rule.Semicolons

/-!
# Semicolons in structured programs

On a program of assignments, calls, calls that are spread over lines and conditional blocks, nested
to any depth and with blank lines, comments and indentation anywhere, the rule reports exactly the
ends of statements that lack a semicolon, or those that have one, each at its place.
-/

namespace ScriptLint.Semicolons

open Text Text.Pattern

/-- The words that are no names: those with which lines begin that need no semicolon, and those
behind which a parenthesis is no call. -/
def reservedWords : List String := exemptWords ++ headerWords

/-! ## The code of statements -/

section Code

variable {word blanks others letters : List Char} {first last : Char}

theorem isWord_of_exempt {exempt : String} (member : exempt ∈ exemptWords) :
    ∀ letter ∈ exempt.toList, isWord letter = true := by
  have each : ∀ exempt ∈ exemptWords, exempt.toList.all isWord = true := by decide
  exact List.all_eq_true.mp (each exempt member)

theorem exists_of_exemptStart (occurs : exemptStart.occursIn letters = true) :
    (∃ exempt ∈ exemptWords, ∃ after, letters = exempt.toList ++ after ∧ EndsClass isWord after) ∨
      ∃ space after, letters = "async".toList ++ space :: after ∧ isSpace space = true ∧
        (trimStart after).head? = some 'f' := by
  obtain ⟨before, run, after, same, fits⟩ := occursIn_iff_fits.mp occurs
  simp only [exemptStart, fits_inOrder_cons, fits_inOrder_nil, fits_atStart, fits_atWordEdge,
    fits_firstOf, List.mem_cons, List.not_mem_nil, or_false] at fits
  obtain ⟨_, _, rfl, ⟨rfl, rfl⟩, _, _, rfl, ⟨_, rfl | rfl, begins⟩, _, _, rfl, ⟨rfl, edge⟩, rfl⟩ :=
    fits
  · left
    obtain ⟨exempt, member, rfl⟩ := fits_wordOf.mp begins
    refine ⟨exempt, member, after, by simpa using same, ?_⟩
    have nonempty : ∀ exempt ∈ exemptWords, exempt.toList ≠ [] := by decide
    have shown := getLast?_append_any (nonempty exempt member) (isWord_of_exempt member) []
    rw [List.nil_append, shown] at edge
    exact Bool.eq_false_iff.mpr edge.symm
  · right
    simp only [fits_inOrder_cons, fits_inOrder_nil, fits_literal, fits_gap] at begins
    obtain ⟨_, _, rfl, rfl, gap, _, rfl, ⟨someGap, spaced⟩, _, _, rfl, rfl, rfl⟩ := begins
    obtain ⟨space, rest, rfl⟩ := List.exists_cons_of_ne_nil someGap
    rw [List.forall_mem_cons] at spaced
    refine ⟨space, rest ++ ("function".toList ++ after), by simpa using same, spaced.1, ?_⟩
    have visible : EndsClass isSpace ("function".toList ++ after) := endsClass_cons rfl _
    rw [trimStart, dropWhile_of_endsClass spaced.2 visible]
    rfl

/-- Code that begins with a free name, or with no word at all, begins with none of the exempt
words. -/
theorem not_exemptStart (alphabetic : ∀ letter ∈ word, letter.isAlpha = true)
    (free : ∀ exempt ∈ exemptWords, word ≠ exempt.toList)
    (ends : EndsClass isWord (blanks ++ first :: others))
    (spaced : ∀ letter ∈ blanks, isSpace letter = true) (visible : isSpace first = false)
    (other : first ≠ 'f') : exemptStart.occursIn (word ++ (blanks ++ first :: others)) = false := by
  have inside : ∀ letter ∈ word, isWord letter = true :=
    fun letter member => isWord_of_isAlpha (alphabetic letter member)
  rw [Bool.eq_false_iff]
  intro occurs
  rcases exists_of_exemptStart occurs with ⟨exempt, member, after, same, endsExempt⟩ |
    ⟨space, after, same, isSpace, function⟩
  · have insideExempt := isWord_of_exempt member
    have sameWord := (eq_of_endsClass inside ends insideExempt endsExempt same).1
    exact free exempt member sameWord
  · have insideAsync : ∀ letter ∈ "async".toList, letter.isAlpha = true :=
      List.all_eq_true.mp (by decide)
    have endsAlpha : EndsClass Char.isAlpha (blanks ++ first :: others) :=
      ends.mono fun letter => isWord_of_isAlpha
    have endsSpace : EndsClass Char.isAlpha (space :: after) :=
      endsClass_cons (isAlpha_of_isSpace isSpace) after
    have restEq := (eq_of_endsClass alphabetic endsAlpha insideAsync endsSpace same).2
    cases blanks with
    | nil =>
        rw [(List.cons.inj restEq).1, isSpace] at visible
        cases visible
    | cons blank blanks =>
        rw [List.forall_mem_cons] at spaced
        have firstEnds : EndsClass Text.isSpace (first :: others) := endsClass_cons visible others
        have afterEq : blanks ++ first :: others = after := (List.cons.inj restEq).2
        rw [← afterEq, trimStart, dropWhile_of_endsClass spaced.2 firstEnds] at function
        exact other (Option.some.inj function)

/-- A letter, or a mark that ends a statement. -/
def endsCode (letter : Char) : Bool := letter.isAlpha || letter == ')' || letter == ';'

theorem not_endsIn_of_endsCode (ends : letters.getLast? = some last) (isEnd : endsCode last = true)
    {marker : String} (nonempty : marker.toList ≠ [])
    (other : marker.toList.getLast?.any endsCode = false) : endsIn marker letters = false := by
  refine not_endsIn (List.getLast?_eq_some_getLast nonempty) ends ?_
  intro same
  rw [List.getLast?_eq_some_getLast nonempty, same, Option.any_some, isEnd] at other
  cases other

theorem not_endsWithOperator (ends : letters.getLast? = some last) (isEnd : endsCode last = true) :
    endsWithOperator letters = false := by
  have otherLast : ∀ operator ∈ trailingOperators,
      operator.toList ≠ [] ∧ operator.toList.getLast?.any endsCode = false := by decide
  have noOperator : trailingOperators.any (endsIn · letters) = false := by
    rw [List.any_eq_false]
    intro operator member
    obtain ⟨nonempty, other⟩ := otherLast operator member
    exact Bool.eq_false_iff.mp (not_endsIn_of_endsCode ends isEnd nonempty other)
  rw [endsWithOperator, noOperator, Bool.and_false]

theorem endsIn_semicolon_append (front : List Char) {back : List Char} (nonempty : back ≠ []) :
    endsIn ";" (front ++ back) = endsIn ";" back := by
  obtain ⟨initial, mark, rfl⟩ := (List.eq_nil_or_concat' back).resolve_left nonempty
  simp [endsIn, List.isSuffixOf, List.isPrefixOf]

/-- Code that is read as a statement up to its semicolon. -/
structure IsStatement (letters : List Char) : Prop where
  begins : letters.head?.any beginsRow = true
  ends : ∃ last, letters.getLast? = some last ∧ endsCode last = true ∧ last ≠ ';'
  not_exempt : ∀ more, exemptStart.occursIn (letters ++ more) = false

end Code

/-! ## Rows -/

/-- The issue on a row. The mark says whether the statement that ends there has a semicolon; there
is none on the rows where no statement ends. -/
def issueOfRow? (style : SemicolonStyle) (index : Nat) (row : Row) (mark : Option Bool) :
    Option Issue :=
  match style, mark with
  | .required, some false =>
      some (info.issue index row.width 0 "Missing semicolon at end of statement")
  | .forbidden, some true =>
      some (info.issue index (row.width - 1) 1 "Unnecessary semicolon at end of statement")
  | _, _ => none

theorem issueOfRow?_none (style : SemicolonStyle) (index : Nat) (row : Row) :
    issueOfRow? style index row none = none := by
  cases style with
  | required => rfl
  | forbidden => rfl

/-- The rule as a check of rows. -/
def lineCheck (style : SemicolonStyle) : LineCheck (Option Bool) where
  issue? := issueOfLine? style
  asks := isFollowedByStart
  expect? := issueOfRow? style
  silent placed noCode := by
    have noStatement : endsStatement placed = false := by
      simp only [endsStatement, ScannedLine.beginsCode, noCode, Bool.false_and]
    rw [issueOfLine?, if_neg (ne_true_of_eq_false noStatement)]

section Rows

variable {style : SemicolonStyle} {index : Nat} {start stop : List Frame} {margin : Margin}
  {phrase : Phrase}

theorem asks_eq {line : ScannedLine} {row : Row} (shows : line.IsOf row start stop)
    (begins : row.body.letters.head?.any beginsRow = true) :
    (lineCheck style).asks (some line) = true := by
  change (!line.startsInTemplate && !startsWithContinuation line.trimmed) = true
  rw [shows.startsInTemplate_eq, shows.trimmed_eq, not_startsWithContinuation begins]
  rfl

/-- A row on which no statement ends. -/
theorem reports_other (moves : phrase.Moves index start stop)
    (begins : phrase.letters.head?.any beginsRow = true)
    (other : ∀ (line : ScannedLine) (following : List ScannedLine),
      line.IsOf ⟨margin, phrase.toBody⟩ start stop →
        endsStatement ⟨index, line, following⟩ = false) :
    (lineCheck style).Reports index start stop true true [(⟨margin, phrase.toBody⟩, none)] := by
  have movesRow : (Row.mk margin phrase.toBody).body.Moves index start stop := moves
  refine .row movesRow phrase.nonempty (fun line shows => asks_eq shows begins) ?_
  intro line following shows _
  change issueOfLine? style _ = issueOfRow? style index _ none
  rw [issueOfRow?_none, issueOfLine?, if_neg (ne_true_of_eq_false (other line following shows))]

theorem endsStatement_eq {row : Row} {line : ScannedLine} {following : List ScannedLine}
    (shows : line.IsOf row start stop) (code : row.body.letters ≠ [])
    (begins : row.body.letters.head?.any beginsRow = true) {last : Char}
    (ends : row.body.letters.getLast? = some last) (isEnd : endsCode last = true)
    (notExempt : exemptStart.occursIn row.body.letters = false)
    (closes : closesExpression line = true)
    (asked : isFollowedByStart (following.find? ScannedLine.isCode) = true) :
    endsStatement ⟨index, line, following⟩ = true := by
  have noExempt : isExempt row.body.letters = false := by
    rw [isExempt, notExempt, not_endsIn_of_endsCode ends isEnd (by decide) rfl,
      not_endsIn_of_endsCode ends isEnd (by decide) rfl,
      not_endsIn_of_endsCode ends isEnd (by decide) rfl]
    rfl
  change (line.beginsCode && !line.isDecorator && !isExempt line.trimmed && closesExpression line &&
    !endsWithOperator line.trimmed && isFollowedByStart (following.find? ScannedLine.isCode)) = true
  rw [shows.beginsCode_eq code, shows.isDecorator_eq begins, shows.trimmed_eq, noExempt, closes,
    not_endsWithOperator ends isEnd, asked]
  rfl

/-- Of a line on which a statement ends what is reported depends on its last character alone. -/
theorem issueOfLine?_eq {row : Row} {line : ScannedLine} {following : List ScannedLine}
    (shows : line.IsOf row start stop) (code : row.body.letters ≠ [])
    (isEnd : endsStatement ⟨index, line, following⟩ = true) {chosen : Bool}
    (semicolon : endsIn ";" row.body.letters = chosen) :
    issueOfLine? style ⟨index, line, following⟩ = issueOfRow? style index row (some chosen) := by
  have endsLine : endsIn ";" (trimEnd line.code) = chosen := by
    rw [shows.trimEnd_eq code, endsIn_semicolon_append _ code, semicolon]
  rw [issueOfLine?, if_pos isEnd]
  cases chosen with
  | false =>
      cases style with
      | required =>
          simp only [endsLine, shows.column_trimEnd code]
          rfl
      | forbidden =>
          simp only [endsLine]
          rfl
  | true =>
      obtain ⟨front, bodyEq⟩ := List.isSuffixOf_iff_suffix.mp semicolon
      have same : row.indent.letters ++ row.body.letters =
          row.indent.letters ++ front ++ ";".toList := by
        rw [← bodyEq, List.append_assoc]
      have sizeEq : byteLength (trimEnd line.code) - 1 =
          byteLength (row.indent.letters ++ front) := by
        rw [shows.trimEnd_eq code, same, byteLength_append]
        exact Nat.add_sub_cancel _ _
      have widthEq : (row.indent.letters ++ front).length = row.width - 1 := by
        have lengths := congrArg List.length same
        rw [List.length_append, List.length_append, show ";".toList.length = 1 from rfl] at lengths
        exact (Nat.sub_eq_of_eq_add lengths).symm
      cases style with
      | required =>
          simp only [endsLine]
          rfl
      | forbidden =>
          simp only [endsLine, sizeEq, shows.column_eq code same, widthEq]
          rfl

/-- A row on which a statement ends. -/
theorem reports_statement (chosen : Bool) (moves : phrase.Moves index start stop)
    (statement : IsStatement phrase.letters)
    (closes : ∀ line : ScannedLine, line.startStack = start → line.endStack = stop →
      closesExpression line = true) :
    (lineCheck style).Reports index start stop true true
      [(⟨margin, (phrase.ended .semicolon chosen).toBody⟩, some chosen)] := by
  have lettersEq := phrase.letters_ended .semicolon chosen
  have movesRow : (phrase.ended .semicolon chosen).Moves index start stop :=
    Phrase.moves_ended moves rfl chosen
  have code : (phrase.ended .semicolon chosen).letters ≠ [] := Phrase.nonempty _
  have begins : (phrase.ended .semicolon chosen).letters.head?.any beginsRow = true := by
    rw [Phrase.head?_ended]
    exact statement.begins
  have notExempt : exemptStart.occursIn (phrase.ended .semicolon chosen).letters = false := by
    rw [lettersEq]
    exact statement.not_exempt _
  obtain ⟨last, ends, isEnd, noSemicolon⟩ := statement.ends
  refine .row movesRow code (fun line shows => asks_eq shows begins) ?_
  intro line following shows asked
  have closesLine := closes line shows.startStack_eq shows.endStack_eq
  change issueOfLine? style _ = issueOfRow? style index _ (some chosen)
  cases chosen with
  | false =>
      have statementEnds : endsStatement ⟨index, line, following⟩ = true :=
        endsStatement_eq shows code begins ends isEnd notExempt closesLine asked
      exact issueOfLine?_eq shows code statementEnds (not_endsIn rfl ends noSemicolon.symm)
  | true =>
      have endsSemicolon : (phrase.ended .semicolon true).letters.getLast? = some ';' := by
        rw [lettersEq]
        exact List.getLast?_concat
      have statementEnds : endsStatement ⟨index, line, following⟩ = true :=
        endsStatement_eq shows code begins endsSemicolon rfl notExempt closesLine asked
      exact issueOfLine?_eq shows code statementEnds (endsIn_of_eq_append lettersEq)

end Rows

/-! ## Statements -/

/-- A name that a statement may use. -/
abbrev Identifier : Type := Name reservedWords

theorem Identifier.free_of_exempt (name : Identifier) :
    ∀ exempt ∈ exemptWords, name.letters ≠ exempt.toList :=
  fun exempt member => name.free exempt (List.mem_append_left headerWords member)

def assignment (target value : Identifier) : Phrase :=
  (target.phrase.join .space (.ofMark .equals)).join .space value.phrase

def call (callee argument : Identifier) : Phrase :=
  callee.phrase.enclosing .none argument.phrase

/-- The first line of a call that is spread over lines. -/
def opening (callee : Identifier) : Phrase := callee.phrase.withMark .openParen

/-- The last line of a call that is spread over lines. -/
def closing : Phrase := .ofMark .closeParen

def condition (name : Identifier) : Phrase :=
  (Phrase.keyword "if" (by decide)).enclosing .space name.phrase

def blockEnd : Phrase := .ofMark .closeBrace

theorem letters_condition (name : Identifier) :
    (condition name).letters = Brace.conditionHead name.letters := by
  simp [condition, Brace.conditionHead, Phrase.letters_enclosing, Blank.space, Phrase.keyword,
    Phrase.word]

theorem isStatement_assignment (target value : Identifier) :
    IsStatement (assignment target value).letters where
  begins := by
    rw [assignment, Phrase.head?_join, Phrase.head?_join]
    exact target.begins
  ends := by
    obtain ⟨last, found, alphabetic⟩ := value.exists_getLast?
    refine ⟨last, Phrase.getLast?_join.trans found, by rw [endsCode, alphabetic]; rfl, ?_⟩
    rintro rfl
    cases alphabetic
  not_exempt more := by
    have lettersEq : (assignment target value).letters ++ more =
        target.letters ++ ([' '] ++ '=' :: (' ' :: value.letters ++ more)) := by
      simp [assignment, Phrase.join, Phrase.ofMark, Mark.letter, Blank.space]
    rw [lettersEq]
    exact not_exemptStart target.alphabetic target.free_of_exempt (endsClass_cons (by decide) _)
      (List.forall_mem_singleton.mpr rfl) rfl (by decide)

theorem isStatement_call (callee argument : Identifier) :
    IsStatement (call callee argument).letters where
  begins := by
    rw [call, Phrase.head?_enclosing]
    exact callee.begins
  ends := ⟨')', List.getLast?_concat, rfl, by decide⟩
  not_exempt more := by
    have lettersEq : (call callee argument).letters ++ more =
        callee.letters ++ ([] ++ '(' :: (argument.letters ++ ')' :: more)) := by
      simp [call, Phrase.letters_enclosing, Blank.none]
    rw [lettersEq]
    exact not_exemptStart callee.alphabetic callee.free_of_exempt (endsClass_cons (by decide) _)
      (List.forall_mem_nil _) rfl (by decide)

theorem isStatement_closing : IsStatement closing.letters where
  begins := rfl
  ends := ⟨')', rfl, rfl, by decide⟩
  not_exempt more := @not_exemptStart [] [] more ')' (List.forall_mem_nil _) (by decide)
    (endsClass_cons (by decide) more) (List.forall_mem_nil _) rfl (by decide)

/-- The innermost delimiter, if there is one, holds statements. -/
def HoldsStatements (stack : List Frame) : Prop := stack.head?.any Frame.isExpression = false

section Contracts

variable {style : SemicolonStyle} {index : Nat} {stack : List Frame} {margin : Margin}
  {line : ScannedLine} {frame : Frame}

theorem closesExpression_same (plain : HoldsStatements stack)
    (startEq : line.startStack = stack) (endEq : line.endStack = stack) :
    closesExpression line = true := by
  rw [HoldsStatements] at plain
  simp only [closesExpression, ScannedLine.startTop?, ScannedLine.endTop?, startEq, endEq, plain,
    Bool.false_eq_true, if_false, Bool.not_false]

/-- A line that ends the arguments of a call closes an expression. -/
theorem closesExpression_closing (plain : HoldsStatements stack)
    (startEq : line.startStack = .paren false :: stack) (endEq : line.endStack = stack) :
    closesExpression line = true := by
  rw [HoldsStatements] at plain
  simp [closesExpression, ScannedLine.startTop?, ScannedLine.endTop?, startEq, endEq, plain,
    Frame.isExpression]

theorem closesExpression_of_isExpression (isExpression : frame.isExpression = true)
    (endEq : line.endStack = frame :: stack) : closesExpression line = false := by
  simp only [closesExpression, ScannedLine.endTop?, endEq, List.head?_cons, Option.any_some,
    isExpression, Bool.not_true, Bool.false_and]
  split
  · rfl
  · rfl

theorem reports_assignment (plain : HoldsStatements stack)
    (target value : Identifier) (chosen : Bool) :
    (lineCheck style).Reports index stack stack true true
      [(⟨margin, ((assignment target value).ended .semicolon chosen).toBody⟩,
        some chosen)] := by
  have inertMark : ∀ letter ∈ (Phrase.ofMark .equals).letters, isInert letter = true :=
    List.forall_mem_singleton.mpr rfl
  have moves : (assignment target value).Moves index stack stack :=
    Phrase.moves_join (Phrase.moves_join (Phrase.moves_word _ _ stack) .space inertMark) .space
      value.isInert
  exact reports_statement chosen moves (isStatement_assignment target value) fun line =>
    closesExpression_same plain

theorem reports_call (plain : HoldsStatements stack)
    (callee argument : Identifier) (chosen : Bool) :
    (lineCheck style).Reports index stack stack true true
      [(⟨margin, ((call callee argument).ended .semicolon chosen).toBody⟩, some chosen)] := by
  have moves : (call callee argument).Moves index stack stack :=
    Phrase.moves_enclosing (Phrase.moves_word _ _ stack) .none argument.isInert
  exact reports_statement chosen moves (isStatement_call callee argument) fun line =>
    closesExpression_same plain

theorem reports_opening (callee : Identifier) :
    (lineCheck style).Reports index stack (.paren false :: stack) true true
      [(⟨margin, (opening callee).toBody⟩, none)] := by
  have moves : (opening callee).Moves index stack (.paren false :: stack) := by
    refine Phrase.moves_opening callee.nonempty callee.alphabetic ?_ stack
    exact fun header member => callee.free header (List.mem_append_right exemptWords member)
  have begins : (opening callee).letters.head?.any beginsRow = true := by
    rw [opening, Phrase.head?_withMark]
    exact callee.begins
  refine reports_other moves begins fun line following shows => ?_
  have inside : closesExpression line = false :=
    closesExpression_of_isExpression rfl shows.endStack_eq
  simp only [endsStatement, inside, Bool.and_false, Bool.false_and]

theorem reports_argument (name : Identifier) (comma : Bool) :
    (lineCheck style).Reports index (.paren false :: stack) (.paren false :: stack) true true
      [(⟨margin, (name.phrase.ended .comma comma).toBody⟩, none)] := by
  have moves : (name.phrase.ended .comma comma).Moves index (.paren false :: stack)
      (.paren false :: stack) :=
    Phrase.moves_ended (Phrase.moves_word _ _ _) rfl comma
  have begins : (name.phrase.ended .comma comma).letters.head?.any beginsRow = true := by
    rw [Phrase.head?_ended]
    exact name.begins
  refine reports_other moves begins fun line following shows => ?_
  have inside : closesExpression line = false :=
    closesExpression_of_isExpression rfl shows.endStack_eq
  simp only [endsStatement, inside, Bool.and_false, Bool.false_and]

theorem reports_closing (plain : HoldsStatements stack) (chosen : Bool) :
    (lineCheck style).Reports index (.paren false :: stack) stack true true
      [(⟨margin, (closing.ended .semicolon chosen).toBody⟩, some chosen)] := by
  have moves : closing.Moves index (.paren false :: stack) stack :=
    Phrase.moves_closing (Or.inl rfl) _ stack
  exact reports_statement chosen moves isStatement_closing fun line =>
    closesExpression_closing plain

/-- No statement ends on a line that opens or ends a block. -/
theorem endsStatement_of_endsIn {following : List ScannedLine} {marker : String}
    (isBrace : marker = "\x7b" ∨ marker = "\x7d") (ends : endsIn marker line.trimmed = true) :
    endsStatement ⟨index, line, following⟩ = false := by
  have exempt : isExempt line.trimmed = true := by
    rcases isBrace with rfl | rfl
    · simp only [isExempt, ends, Bool.or_true, Bool.true_or]
    · simp only [isExempt, ends, Bool.or_true, Bool.true_or]
  simp only [endsStatement, exempt, Bool.not_true, Bool.and_false, Bool.false_and]

theorem reports_condition (name : Identifier) :
    (lineCheck style).Reports index stack
      (.brace (Brace.kindAfter (condition name).letters stack.head?) index :: stack) true true
      [(⟨margin, (condition name).braced.toBody⟩, none)] := by
  have headMoves : (condition name).Moves index stack stack :=
    Phrase.moves_enclosing (Phrase.moves_word _ _ stack) .space name.isInert
  have inside : ∀ letter ∈ (condition name).letters, Brace.endsSegment letter = false := by
    rw [letters_condition, Brace.conditionHead]
    simp only [List.forall_mem_append]
    exact ⟨⟨Brace.endsSegment_of_all (by decide), name.endsSegment_eq⟩,
      List.forall_mem_singleton.mpr rfl⟩
  refine reports_other (Phrase.moves_braced headMoves inside) rfl fun line following shows => ?_
  refine endsStatement_of_endsIn (Or.inl rfl) ?_
  rw [shows.trimmed_eq]
  exact endsIn_of_eq_append rfl

theorem reports_blockEnd :
    (lineCheck style).Reports index (frame :: stack) stack true true
      [(⟨margin, blockEnd.toBody⟩, none)] := by
  have moves : blockEnd.Moves index (frame :: stack) stack :=
    Phrase.moves_closing (Or.inr rfl) frame stack
  refine reports_other moves rfl fun line following shows => ?_
  refine endsStatement_of_endsIn (Or.inr rfl) ?_
  rw [shows.trimmed_eq]
  rfl

end Contracts

/-! ## Programs -/

/-- A row between the two ends of a call that is spread over lines. -/
inductive ArgumentRow where
  | filler (margin : Margin)
  | value (margin : Margin) (name : Identifier) (comma : Bool)

/-- A program; its fillers are rows that are blank or comments. -/
inductive Program where
  | done
  | filler (margin : Margin) (rest : Program)
  | assignment (margin : Margin) (target value : Identifier) (semicolon : Bool) (rest : Program)
  | call (margin : Margin) (callee argument : Identifier) (semicolon : Bool) (rest : Program)
  /-- A call that is spread over lines. -/
  | spread (first : Margin) (callee : Identifier) (arguments : List ArgumentRow) (last : Margin)
      (semicolon : Bool) (rest : Program)
  /-- A condition with a program of its own. -/
  | block (first : Margin) (name : Identifier) (body : Program) (last : Margin) (rest : Program)

/-- The row of an argument; no statement ends there. -/
def ArgumentRow.row : ArgumentRow → Row × Option Bool
  | filler margin => (⟨margin, .empty⟩, none)
  | value margin name comma => (⟨margin, (name.phrase.ended .comma comma).toBody⟩, none)

/-- The rows of a program. A row on which a statement ends is marked by whether it has a
semicolon. -/
def Program.rows : Program → List (Row × Option Bool)
  | done => []
  | filler margin rest => (⟨margin, .empty⟩, none) :: rest.rows
  | assignment margin target value semicolon rest =>
      (⟨margin, ((Semicolons.assignment target value).ended .semicolon semicolon).toBody⟩,
        some semicolon) :: rest.rows
  | call margin callee argument semicolon rest =>
      (⟨margin, ((Semicolons.call callee argument).ended .semicolon semicolon).toBody⟩,
        some semicolon) :: rest.rows
  | spread first callee arguments last semicolon rest =>
      (⟨first, (opening callee).toBody⟩, none) :: (arguments.map ArgumentRow.row ++
        (⟨last, (closing.ended .semicolon semicolon).toBody⟩, some semicolon) :: rest.rows)
  | block first name body last rest =>
      (⟨first, (condition name).braced.toBody⟩, none) :: (body.rows ++
        (⟨last, blockEnd.toBody⟩, none) :: rest.rows)

section Runs

variable {style : SemicolonStyle} {index : Nat} {stack : List Frame}

theorem reports_arguments (arguments : List ArgumentRow) :
    (lineCheck style).Reports index (.paren false :: stack) (.paren false :: stack) true true
      (arguments.map ArgumentRow.row) := by
  induction arguments generalizing index with
  | nil => exact .nil
  | cons argument rest inductionHypothesis =>
      refine .cons ?_ inductionHypothesis
      cases argument with
      | filler margin => exact .filler (issueOfRow?_none _ _ _)
      | value margin name comma => exact reports_argument name comma

/-- A program leaves the stack as it was, and its rows are reported on as their marks say. -/
theorem Program.reports (program : Program) (plain : HoldsStatements stack) :
    (lineCheck style).Reports index stack stack true true program.rows := by
  induction program generalizing index stack with
  | done => exact .nil
  | filler margin rest inductionHypothesis =>
      exact .cons (.filler (issueOfRow?_none _ _ _)) (inductionHypothesis plain)
  | assignment margin target value semicolon rest inductionHypothesis =>
      exact .cons (reports_assignment plain target value semicolon) (inductionHypothesis plain)
  | call margin callee argument semicolon rest inductionHypothesis =>
      exact .cons (reports_call plain callee argument semicolon) (inductionHypothesis plain)
  | spread first callee arguments last semicolon rest inductionHypothesis =>
      refine .cons (reports_opening callee) (.append (reports_arguments arguments) ?_)
      exact .cons (reports_closing plain semicolon) (inductionHypothesis plain)
  | block first name body last rest bodyHypothesis restHypothesis =>
      -- inside of the block the innermost delimiter is its brace, which opens statements
      have plainInside := Brace.isExpression_conditionHead name.letters stack.head? index
      rw [← letters_condition] at plainInside
      refine .cons (reports_condition name) (.append (bodyHypothesis plainInside) ?_)
      exact .cons reports_blockEnd (restHypothesis plain)

end Runs

def Program.text (program : Program) : List Char := LineCheck.textOf program.rows

/-- The issues on the rows of a program. -/
def Program.issues (style : SemicolonStyle) (program : Program) : List Issue :=
  program.rows.zipIdx.filterMap fun entry => issueOfRow? style entry.2 entry.1.1 entry.1.2

/-- Whatever a program is, exactly the ends of its statements that lack a semicolon are reported if
semicolons are required, and exactly those that have one if they are forbidden, each once and at its
place. -/
theorem check_program_text (style : SemicolonStyle) (program : Program) :
    rule.check ⟨program.text⟩ (.semicolons style) = .ok (program.issues style) := by
  have reports : (lineCheck style).Reports 0 [] [] true true program.rows := program.reports rfl
  have issuesEq : issues style ⟨program.text⟩ = program.issues style := reports.issues_textOf
  change Except.ok (issues style ⟨program.text⟩) = Except.ok (program.issues style)
  rw [issuesEq]

example :
    let name : Identifier := ⟨['x'], by decide, List.all_eq_true.mp rfl, by decide⟩
    let indent : Blank := ⟨[' '], List.forall_mem_singleton.mpr ⟨rfl, by decide⟩⟩
    let margin : Margin := ⟨indent, ⟨[], nofun⟩, ⟨"// y".toList, Or.inr (by decide), by decide⟩⟩
    let program : Program :=
      .block margin name (.assignment margin name name true (.call margin name name false .done))
        margin .done
    String.ofList program.text = " if (x) \x7b// y\n x = x;// y\n x(x)// y\n \x7d// y" ∧
      (program.issues .required).map (fun issue => (issue.line, issue.character)) = [(2, 5)] ∧
      (program.issues .forbidden).map (fun issue => (issue.line, issue.character)) = [(1, 6)] := by
  decide

end ScriptLint.Semicolons
