import ScriptLint.Proofs.Source.Plain
import ScriptLint.Proofs.Source.Rescan
import ScriptLint.Proofs.Source.Stack
import ScriptLint.Proofs.Text.Bytes
import ScriptLint.Proofs.Text.Split
import ScriptLint.Rule.Basic

/-!
# Texts that are laid out in rows

A row is plain code with white space around it and perhaps a comment behind it. Whatever the white
space and the comment are, the scanned line shows the code at its place, and the stacks at the ends
of the line are determined by the code, whose effect on them is stated by `Body.Moves`.

What a rule reports on rows is stated by contracts that hold inside of every document: `Reports`
fixes the stacks around the rows and what the rule is told about the next line of code in front of
them and behind them, so that contracts of neighbouring rows can be put together.
-/

namespace ScriptLint

open Text

/-! ## Rows -/

/-- White space within a line. -/
structure Blank where
  letters : List Char
  spaced : ∀ letter ∈ letters, isSpace letter = true ∧ letter ≠ '\n'

/-- A comment up to the end of the line, or nothing. -/
structure Remark where
  letters : List Char
  opens : letters = [] ∨ "//".toList <+: letters
  inLine : '\n' ∉ letters

/-- Plain code without white space at its ends. -/
structure Body where
  letters : List Char
  plain : ∀ letter ∈ letters, isPlain letter = true
  starts : EndsClass isSpace letters
  ends : EndsClass isSpace letters.reverse

/-- What stands around the code of a row. -/
structure Margin where
  indent : Blank
  gap : Blank
  remark : Remark

/-- A row of a text; one without code is blank or a comment. -/
structure Row extends Margin where
  body : Body

namespace Blank

variable (blank : Blank)

theorem isSpace : ∀ letter ∈ blank.letters, Text.isSpace letter = true :=
  fun letter member => (blank.spaced letter member).1

theorem isInert : ∀ letter ∈ blank.letters, ScriptLint.isInert letter = true :=
  fun letter member =>
    isInert_of_isSpace (blank.isSpace letter member) (blank.spaced letter member).2

end Blank

/-- The characters of a row. -/
def Row.letters (row : Row) : List Char :=
  row.indent.letters ++ row.body.letters ++ row.gap.letters ++ row.remark.letters

/-- The column behind the code of a row. -/
def Row.width (row : Row) : Nat := row.indent.letters.length + row.body.letters.length

def Body.empty : Body := ⟨[], nofun, rfl, rfl⟩

theorem Row.not_mem_letters (row : Row) : '\n' ∉ row.letters := by
  intro member
  simp only [letters, List.mem_append] at member
  rcases member with ((inIndent | inBody) | inGap) | inRemark
  · exact (row.indent.spaced '\n' inIndent).2 rfl
  · exact (ne_of_isPlain (row.body.plain '\n' inBody)).2.2.2.2 rfl
  · exact (row.gap.spaced '\n' inGap).2 rfl
  · exact row.remark.inLine inRemark

/-! ## Carriage returns -/

theorem dropReturn_append (front : List Char) {back : List Char} (nonempty : back ≠ []) :
    dropReturn (front ++ back) = front ++ dropReturn back := by
  rw [dropReturn, dropReturn, List.getLast?_append_of_ne_nil _ nonempty]
  by_cases returns : back.getLast? = some '\r'
  · rw [if_pos returns, if_pos returns, List.dropLast_append_of_ne_nil nonempty]
  · rw [if_neg returns, if_neg returns]

theorem dropReturn_isPrefix (letters : List Char) : dropReturn letters <+: letters := by
  unfold dropReturn
  split
  · exact List.dropLast_prefix letters
  · exact List.prefix_rfl

def Blank.withoutReturn (blank : Blank) : Blank where
  letters := dropReturn blank.letters
  spaced letter member := blank.spaced letter ((dropReturn_isPrefix _).subset member)

def Remark.withoutReturn (remark : Remark) : Remark where
  letters := dropReturn remark.letters
  opens := by
    rcases remark.opens with empty | ⟨text, same⟩
    · left
      rw [empty]
      rfl
    · right
      rw [← same]
      by_cases someText : text = []
      · subst someText
        exact ⟨[], rfl⟩
      · rw [dropReturn_append _ someText]
        exact List.prefix_append _ _
  inLine member := remark.inLine ((dropReturn_isPrefix _).subset member)

theorem Body.dropReturn_letters (body : Body) : dropReturn body.letters = body.letters := by
  rw [dropReturn, if_neg]
  intro returns
  have ends := body.ends
  rw [EndsClass, List.head?_reverse, returns] at ends
  cases ends

/-- A carriage return at the end of a row belongs to what stands around the code. -/
theorem Row.exists_dropReturn (row : Row) :
    ∃ shown : Row, dropReturn row.letters = shown.letters ∧ shown.body = row.body ∧
      (row.body.letters ≠ [] → shown.indent = row.indent) := by
  -- the return ends the last part of the row that is not empty
  by_cases noRemark : row.remark.letters = []
  · by_cases noGap : row.gap.letters = []
    · have lettersEq : row.letters = row.indent.letters ++ row.body.letters := by
        simp [letters, noRemark, noGap]
      by_cases noBody : row.body.letters = []
      · refine ⟨{ row with indent := row.indent.withoutReturn }, ?_, rfl, absurd noBody⟩
        rw [lettersEq]
        simp [letters, noRemark, noGap, noBody, Blank.withoutReturn]
      · refine ⟨row, ?_, rfl, fun _ => rfl⟩
        rw [lettersEq, dropReturn_append _ noBody, row.body.dropReturn_letters]
    · refine ⟨{ row with gap := row.gap.withoutReturn }, ?_, rfl, fun _ => rfl⟩
      have lettersEq : row.letters = row.indent.letters ++ row.body.letters ++ row.gap.letters := by
        simp [letters, noRemark]
      rw [lettersEq, dropReturn_append _ noGap]
      simp [letters, noRemark, Blank.withoutReturn]
  · exact ⟨{ row with remark := row.remark.withoutReturn }, dropReturn_append _ noRemark, rfl,
      fun _ => rfl⟩

/-! ## Scanned rows -/

/-- The scanner reads code between two lines, with these delimiters open. -/
structure Scanner.IsAt (scanner : Scanner) (stack : List Frame) : Prop where
  mode_eq : scanner.mode = .code
  stack_eq : scanner.stack = stack

/-- On the line with the number the code leads from one stack to the other. -/
def Body.Moves (body : Body) (index : Nat) (start stop : List Frame) : Prop :=
  ∀ (scanner : Scanner) (indent : Blank), scanner.IsAt start →
    (scanner.begin.skim ⟨index, scanner.previous⟩ (indent.letters ++ body.letters)).stack = stop

/-- The line shows a row. -/
structure ScannedLine.IsOf (line : ScannedLine) (row : Row) (start stop : List Frame) : Prop where
  startsInTemplate_eq : line.startsInTemplate = false
  startStack_eq : line.startStack = start
  endStack_eq : line.endStack = stop
  trimmed_eq : line.trimmed = row.body.letters
  isCode_eq : line.isCode = !row.body.letters.isEmpty
  trimEnd_eq : row.body.letters ≠ [] →
    trimEnd line.code = row.indent.letters ++ row.body.letters
  text_begins : row.body.letters ≠ [] → row.indent.letters ++ row.body.letters <+: line.text

namespace ScannedLine.IsOf

variable {line : ScannedLine} {row : Row} {start stop : List Frame}

theorem beginsCode_eq (shows : line.IsOf row start stop) (code : row.body.letters ≠ []) :
    line.beginsCode = true := by
  rw [beginsCode, shows.isCode_eq, shows.startsInTemplate_eq, List.isEmpty_eq_false_iff.mpr code]
  rfl

/-- The columns of the code are those of the row. -/
theorem column_eq (shows : line.IsOf row start stop) (code : row.body.letters ≠ [])
    {front back : List Char} (same : row.indent.letters ++ row.body.letters = front ++ back) :
    line.column (byteLength front) = front.length := by
  obtain ⟨rest, textEq⟩ := shows.text_begins code
  rw [column, ← textEq, same, List.append_assoc, charColumn_append]

theorem column_trimEnd (shows : line.IsOf row start stop) (code : row.body.letters ≠ []) :
    line.column (byteLength (trimEnd line.code)) = row.width := by
  rw [shows.trimEnd_eq code, shows.column_eq code (List.append_nil _).symm, List.length_append]
  rfl

end ScannedLine.IsOf

namespace Scanner

variable {scanner : Scanner} {index : Nat} {start stop : List Frame} {row : Row}

theorem IsAt.isInCode_begin (isAt : scanner.IsAt start) : scanner.begin.IsInCode := by
  left
  rw [begin, isAt.mode_eq]
  rfl

/-- What is read of a row: its code, and spaces for the comment. -/
theorem IsAt.progressOver_row (isAt : scanner.IsAt start)
    (moves : row.body.Moves index start stop) :
    (scanner.progressOver index row.letters).within.leave = .code ∧
      (scanner.progressOver index row.letters).stack = stop ∧
      ∃ count, (scanner.progressOver index row.letters).code =
        row.indent.letters ++ row.body.letters ++
          (row.gap.letters ++ List.replicate count ' ') := by
  have plain : ∀ letter ∈ row.indent.letters ++ row.body.letters ++ row.gap.letters,
      isPlain letter = true := by
    simp only [List.forall_mem_append]
    refine ⟨⟨fun letter member => ?_, row.body.plain⟩, fun letter member => ?_⟩
    · exact isPlain_of_isInert (row.indent.isInert letter member)
    · exact isPlain_of_isInert (row.gap.isInert letter member)
  have inCode : (scanner.begin.skim ⟨index, scanner.previous⟩
      (row.indent.letters ++ row.body.letters ++ row.gap.letters)).IsInCode :=
    isAt.isInCode_begin.skim plain
  have stackEq : (scanner.begin.skim ⟨index, scanner.previous⟩
      (row.indent.letters ++ row.body.letters ++ row.gap.letters)).stack = stop := by
    rw [Progress.skim_append, Progress.stack_skim_of_isInert row.gap.isInert]
    exact moves scanner row.indent isAt
  rw [progressOver, Row.letters, isAt.isInCode_begin.readAll_append plain]
  obtain ⟨leaves, stays, count, reversedEq⟩ :=
    @Progress.IsInCode.readAll_comment _ ⟨index, scanner.previous⟩ inCode _ row.remark.opens
  refine ⟨leaves, stays.trans stackEq, count, ?_⟩
  rw [Progress.code, reversedEq, Progress.reversed_skim]
  simp [begin]

theorem IsAt.scanLine_row (isAt : scanner.IsAt start) (moves : row.body.Moves index start stop) :
    (scanner.scanLine index (dropReturn row.letters)).1.IsOf row start stop ∧
      (scanner.scanLine index (dropReturn row.letters)).2.IsAt stop := by
  obtain ⟨shown, lettersEq, bodyEq, indentEq⟩ := row.exists_dropReturn
  rw [lettersEq]
  have movesShown : shown.body.Moves index start stop := bodyEq ▸ moves
  obtain ⟨leaves, stackEq, count, codeEq⟩ := isAt.progressOver_row movesShown
  have blanks : ∀ letter ∈ shown.gap.letters ++ List.replicate count ' ',
      isSpace letter = true := by
    rw [List.forall_mem_append]
    refine ⟨shown.gap.isSpace, fun letter member => ?_⟩
    rw [List.eq_of_mem_replicate member]
    rfl
  have trimmedEq : (scanner.scanLine index shown.letters).1.trimmed = row.body.letters := by
    change trim (scanner.progressOver index shown.letters).code = row.body.letters
    rw [codeEq, ← bodyEq]
    exact trim_append shown.body.ends blanks shown.indent.isSpace shown.body.starts
  refine ⟨⟨?_, isAt.stack_eq, stackEq, trimmedEq, ?_, fun nonempty => ?_, fun nonempty => ?_⟩,
    ⟨leaves, stackEq⟩⟩
  · change scanner.isInTemplate = false
    rw [isInTemplate, isAt.mode_eq]
  · rw [ScannedLine.isCode_eq (scanner.code_scanLine index shown.letters), trimmedEq]
  · change trimEnd (scanner.progressOver index shown.letters).code = _
    rw [codeEq, bodyEq, indentEq nonempty]
    refine trimEnd_append ?_ blanks
    rw [List.reverse_append, EndsClass, List.head?_append_of_ne_nil]
    · exact row.body.ends
    · simpa using nonempty
  · change _ <+: shown.letters
    rw [Row.letters, bodyEq, indentEq nonempty, List.append_assoc]
    exact List.prefix_append _ _

end Scanner

/-! ## Contracts -/

/-- How the lines of a text are checked: what is reported on a line, what is asked about the next
line of code, and what has to be reported on a row with a mark. Nothing is reported on a line
without code. -/
structure LineCheck (α : Type) where
  issue? : PlacedLine → Option Issue
  asks : Option ScannedLine → Bool
  expect? : Nat → Row → α → Option Issue
  silent : ∀ placed, placed.line.isCode = false → issue? placed = none

namespace LineCheck

variable {α : Type} (check : LineCheck α)

/-- The rows as they are fed to the scanner, from a line number on. -/
def numberFrom (index : Nat) (rows : List (Row × α)) : List (Nat × List Char) :=
  ((rows.map fun marked => dropReturn marked.1.letters).zipIdx index).map fun entry =>
    (entry.2, entry.1)

/-- The issues that have to be reported on rows, from a line number on. -/
def expected (index : Nat) (rows : List (Row × α)) : List Issue :=
  (rows.zipIdx index).filterMap fun entry => check.expect? entry.2 entry.1.1 entry.1.2

/-- The issues on lines, from a line number on. -/
def issuesFrom (index : Nat) (lines : List ScannedLine) : List Issue :=
  (PlacedLine.ofLines index lines).filterMap check.issue?

theorem scanNumbered_singleton (scanner : Scanner) (index : Nat) (row : Row) (mark : α) :
    scanner.scanNumbered (numberFrom index [(row, mark)]) =
      [(scanner.scanLine index (dropReturn row.letters)).1] := rfl

theorem expected_singleton (index : Nat) (row : Row) (mark : α) :
    check.expected index [(row, mark)] = (check.expect? index row mark).toList := by
  change List.filterMap _ [_] = _
  rw [List.filterMap_cons]
  cases check.expect? index row mark with
  | none => rfl
  | some issue => rfl

theorem issuesFrom_cons (index : Nat) (line : ScannedLine) (following : List ScannedLine) :
    check.issuesFrom index (line :: following) =
      (check.issue? ⟨index, line, following⟩).toList ++ check.issuesFrom (index + 1) following := by
  rw [issuesFrom, PlacedLine.ofLines, List.filterMap_cons]
  cases check.issue? ⟨index, line, following⟩ with
  | none => rfl
  | some issue => rfl

/-- Inside of every document rows lead from one stack to the other, from what is asked about the
next line of code behind them to what is asked in front of them, and exactly the expected issues are
reported on them. -/
structure Reports (index : Nat) (start stop : List Frame) (before after : Bool)
    (rows : List (Row × α)) : Prop where
  leaves : ∀ scanner : Scanner, scanner.IsAt start →
    (scanner.behind (numberFrom index rows)).IsAt stop
  asks_eq : ∀ (scanner : Scanner) (following : List ScannedLine), scanner.IsAt start →
    check.asks (following.find? ScannedLine.isCode) = after →
      check.asks ((scanner.scanNumbered (numberFrom index rows) ++ following).find?
        ScannedLine.isCode) = before
  issues_eq : ∀ (scanner : Scanner) (following : List ScannedLine), scanner.IsAt start →
    check.asks (following.find? ScannedLine.isCode) = after →
      check.issuesFrom index (scanner.scanNumbered (numberFrom index rows) ++ following) =
        check.expected index rows ++ check.issuesFrom (index + rows.length) following

namespace Reports

variable {check} {index : Nat} {start middle stop : List Frame} {before between after : Bool}

theorem nil : check.Reports index start start before before [] where
  leaves _ isAt := isAt
  asks_eq _ _ _ same := same
  issues_eq _ _ _ _ := rfl

theorem append {rows others : List (Row × α)}
    (first : check.Reports index start middle before between rows)
    (second : check.Reports (index + rows.length) middle stop between after others) :
    check.Reports index start stop before after (rows ++ others) := by
  have numbered : numberFrom index (rows ++ others) =
      numberFrom index rows ++ numberFrom (index + rows.length) others := by
    simp only [numberFrom, List.map_append, List.zipIdx_append, List.length_map]
  constructor
  case leaves =>
    intro scanner isAt
    rw [numbered, Scanner.behind_append]
    exact second.leaves _ (first.leaves scanner isAt)
  case asks_eq =>
    intro scanner following isAt same
    rw [numbered, Scanner.scanNumbered_append, List.append_assoc]
    exact first.asks_eq scanner _ isAt (second.asks_eq _ following (first.leaves scanner isAt) same)
  case issues_eq =>
    intro scanner following isAt same
    have later := first.leaves scanner isAt
    -- for the first rows the second ones are among those that follow
    have expectedEq : check.expected index (rows ++ others) =
        check.expected index rows ++ check.expected (index + rows.length) others := by
      simp only [expected, List.zipIdx_append, List.filterMap_append]
    rw [numbered, Scanner.scanNumbered_append, List.append_assoc,
      first.issues_eq scanner _ isAt (second.asks_eq _ following later same),
      second.issues_eq _ following later same, expectedEq, List.length_append, List.append_assoc,
      Nat.add_assoc]

theorem cons {entry : Row × α} {rows : List (Row × α)}
    (first : check.Reports index start middle before between [entry])
    (second : check.Reports (index + 1) middle stop between after rows) :
    check.Reports index start stop before after (entry :: rows) :=
  append first second

/-- A row of code reports what is expected if every line that shows it does. -/
theorem row {row : Row} {mark : α} (moves : row.body.Moves index start stop)
    (code : row.body.letters ≠ [])
    (asks : ∀ line : ScannedLine, line.IsOf row start stop → check.asks (some line) = before)
    (issue : ∀ (line : ScannedLine) (following : List ScannedLine), line.IsOf row start stop →
      check.asks (following.find? ScannedLine.isCode) = after →
        check.issue? ⟨index, line, following⟩ = check.expect? index row mark) :
    check.Reports index start stop before after [(row, mark)] := by
  constructor
  case leaves => exact fun scanner isAt => (isAt.scanLine_row moves).2
  case asks_eq =>
    intro scanner following isAt same
    have shows := (isAt.scanLine_row moves).1
    have isCode : (scanner.scanLine index (dropReturn row.letters)).1.isCode = true := by
      rw [shows.isCode_eq, List.isEmpty_eq_false_iff.mpr code]
      rfl
    rw [scanNumbered_singleton, List.singleton_append, List.find?_cons_of_pos isCode]
    exact asks _ shows
  case issues_eq =>
    intro scanner following isAt same
    have issueEq := issue _ following (isAt.scanLine_row moves).1 same
    rw [scanNumbered_singleton, List.singleton_append, issuesFrom_cons, issueEq, expected_singleton]
    rfl

/-- Nothing is reported on a row without code. -/
theorem filler {margin : Margin} {mark : α}
    (nothing : check.expect? index ⟨margin, .empty⟩ mark = none) :
    check.Reports index start start before before [(⟨margin, .empty⟩, mark)] := by
  have moves : (Row.mk margin .empty).body.Moves index start start := by
    intro scanner indent isAt
    rw [Body.empty, List.append_nil, Progress.stack_skim_of_isInert indent.isInert]
    exact isAt.stack_eq
  have noCode {scanner : Scanner} (isAt : scanner.IsAt start) :
      (scanner.scanLine index (dropReturn (Row.mk margin .empty).letters)).1.isCode = false :=
    (isAt.scanLine_row moves).1.isCode_eq
  constructor
  case leaves => exact fun scanner isAt => (isAt.scanLine_row moves).2
  case asks_eq =>
    intro scanner following isAt same
    rw [scanNumbered_singleton, List.singleton_append,
      List.find?_cons_of_neg (ne_true_of_eq_false (noCode isAt))]
    exact same
  case issues_eq =>
    intro scanner following isAt same
    rw [scanNumbered_singleton, List.singleton_append, issuesFrom_cons, expected_singleton, nothing,
      check.silent _ (noCode isAt)]
    rfl

end Reports

/-! ## Documents -/

def textOf (rows : List (Row × α)) : List Char :=
  joinWith '\n' (rows.map fun marked => marked.1.letters)

theorem splitOn_textOf {rows : List (Row × α)} (nonempty : rows ≠ []) :
    splitOn '\n' (textOf rows) = rows.map fun marked => marked.1.letters := by
  refine splitOn_joinWith (by simpa using nonempty) fun piece member => ?_
  obtain ⟨marked, _, rfl⟩ := List.mem_map.mp member
  exact marked.1.not_mem_letters

variable {check}

/-- A document of rows is reported on as expected. -/
theorem Reports.issues_textOf {rows : List (Row × α)} {stop : List Frame} {before : Bool}
    (reports : check.Reports 0 [] stop before (check.asks none) rows) :
    (Document.placedLines ⟨textOf rows⟩).filterMap check.issue? = check.expected 0 rows := by
  have atStart : ({} : Scanner).IsAt [] := ⟨rfl, rfl⟩
  have whole := reports.issues_eq {} [] atStart rfl
  rw [List.append_nil, show check.issuesFrom (0 + rows.length) [] = [] from rfl,
    List.append_nil] at whole
  rw [← whole]
  by_cases noText : textOf rows = []
  · -- a document without text has no line, where one empty row may have been laid out
    have noLines : Document.placedLines ⟨textOf rows⟩ = [] := by
      rw [noText]
      rfl
    rw [noLines]
    cases rows with
    | nil => rfl
    | cons marked others =>
        have pieces := splitOn_textOf (List.cons_ne_nil marked others)
        rw [noText] at pieces
        obtain ⟨lettersEq, noOthers⟩ := List.cons.inj pieces
        have noRow : others = [] := List.map_eq_nil_iff.mp noOthers.symm
        subst noRow
        have noCode : (({} : Scanner).scanLine 0 (dropReturn marked.1.letters)).1.isCode =
            false := by
          have empty : marked.1.letters = [] := lettersEq.symm
          rw [empty]
          rfl
        change [] = check.issuesFrom 0 [_]
        rw [issuesFrom_cons, check.silent _ noCode]
        rfl
  · have someRows : rows ≠ [] := by
      rintro rfl
      exact noText rfl
    have linesEq : (Document.mk (textOf rows)).lines =
        rows.map fun marked => dropReturn marked.1.letters := by
      rw [Document.lines, if_neg (by simpa using noText), splitOn_textOf someRows, List.map_map]
      rfl
    rw [Document.placedLines, Document.scan, linesEq]
    rfl

end LineCheck

end ScriptLint
