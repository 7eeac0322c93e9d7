import ScriptLint.Proofs.Source.Agreement
import ScriptLint.Proofs.Source.Kinds
import ScriptLint.Proofs.Text.Words
import ScriptLint.Rule.Options

/-!
# The contents of strings

A string literal is one value to the scanner: it is passed from code to code, and the delimiters
within it open and close nothing. Its letters stay in the code of the line, where they can change
what a brace is taken for, but nothing else.

The main statement compares two scans of lines that differ in the contents of one string only. The
lines below may read differently as far as the kinds of braces go; the delimiters that are open are
the same on all of them.
-/

namespace ScriptLint

open Text

/-- A string literal without escapes. -/
structure StringLiteral (style : QuoteStyle) where
  body : List Char
  closed : ∀ letter ∈ body, letter ≠ style.quote ∧ letter ≠ '\\'

/-- The literal with its quotes. -/
def StringLiteral.letters {style : QuoteStyle} (literal : StringLiteral style) : List Char :=
  style.quote :: (literal.body ++ [style.quote])

theorem QuoteStyle.isSpace_quote (style : QuoteStyle) : isSpace style.quote = false := by
  cases style with
  | single => rfl
  | double => rfl

theorem QuoteStyle.standsAlone_quote (style : QuoteStyle) :
    Progress.StandsAlone (some style.quote) := by
  apply Progress.standsAlone_some
  cases style with
  | single => decide
  | double => decide

namespace Progress

variable {progress : Progress} {context : LineContext} {style : QuoteStyle} {body : List Char}

/-- Passes characters that belong to the code. -/
def pass (progress : Progress) (letters : List Char) : Progress :=
  { progress with
    reversed := letters.reverse ++ progress.reversed
    position := progress.position + byteLength letters }

/-- Passes the characters of a value. -/
def passValue (progress : Progress) (letters : List Char) : Progress :=
  ((progress.pass letters).remember .value).goOn .plain

theorem pass_keep (progress : Progress) (letter : Char) (letters : List Char) :
    (progress.keep letter).pass letters = progress.pass (letter :: letters) := by
  simp [pass, keep, Nat.add_assoc]

theorem code_passValue (progress : Progress) (letters : List Char) :
    (progress.passValue letters).code = progress.code ++ letters := by
  change (letters.reverse ++ progress.reversed).reverse = _
  rw [List.reverse_append, List.reverse_reverse]
  rfl

theorem read_quote (reads : progress.ReadsCode) (next : Option Char) :
    progress.read context style.quote next =
      ((progress.keep style.quote).remember .value).goOn (.string style.quote) := by
  have opened (reading : Progress) : reading.readCode context style.quote next =
      ((reading.keep style.quote).remember .value).goOn (.string style.quote) := by
    cases style with
    | single => rfl
    | double => rfl
  have noFlag : ¬ style.quote.isAlpha = true := by
    cases style with
    | single => decide
    | double => decide
  unfold read
  rcases reads with within | within | within
  · rw [within]
    exact opened progress
  · rw [within]
    exact opened progress
  · rw [within]
    dsimp only
    rw [if_neg noFlag]
    exact opened (progress.goOn .plain)

/-- Up to the next quote the characters of a string are passed. -/
theorem readAll_body (within : progress.within = .string style.quote)
    (closed : ∀ letter ∈ body, letter ≠ style.quote ∧ letter ≠ '\\') (rest : List Char) :
    progress.readAll context (body ++ style.quote :: rest) =
      ((progress.pass (body ++ [style.quote])).goOn .plain).readAll context rest := by
  induction body generalizing progress with
  | nil =>
      have ended : progress.read context style.quote rest.head? =
          (progress.keep style.quote).goOn .plain := by
        rw [read, within]
        cases style with
        | single => rfl
        | double => rfl
      rw [List.nil_append, readAll, ended]
      rfl
  | cons letter others inductionHypothesis =>
      rw [List.forall_mem_cons] at closed
      have kept : progress.read context letter (others ++ style.quote :: rest).head? =
          progress.keep letter := by
        rw [read, within]
        simp only [readString, beq_iff_eq, closed.1.1, closed.1.2, if_false]
      have stays : (progress.keep letter).within = .string style.quote := within
      rw [List.cons_append, readAll, kept, inductionHypothesis stays closed.2, pass_keep]
      rfl

/-- A string literal in code is passed as a value. -/
theorem readAll_stringLiteral (reads : progress.ReadsCode) (literal : StringLiteral style)
    (rest : List Char) :
    progress.readAll context (literal.letters ++ rest) =
      (progress.passValue literal.letters).readAll context rest := by
  have within : (((progress.keep style.quote).remember .value).goOn
      (.string style.quote)).within = .string style.quote := rfl
  have lettersEq : literal.letters ++ rest =
      style.quote :: (literal.body ++ style.quote :: rest) := by
    simp [StringLiteral.letters]
  have passed : (progress.keep style.quote).pass (literal.body ++ [style.quote]) =
      progress.pass literal.letters := pass_keep progress style.quote _
  rw [lettersEq, readAll, read_quote reads, readAll_body within literal.closed, passValue,
    ← passed]
  rfl

end Progress

theorem Scanner.progressOver_stringLiteral (scanner : Scanner) (index : Nat) {style : QuoteStyle}
    (literal : StringLiteral style) {before : List Char}
    (reads : (scanner.progressOver index before).ReadsCode) (after : List Char) :
    scanner.progressOver index (before ++ literal.letters ++ after) =
      ((scanner.progressOver index before).passValue literal.letters).readAll
        ⟨index, scanner.previous⟩ after := by
  have alone : Progress.StandsAlone (literal.letters ++ after).head? := style.standsAlone_quote
  rw [List.append_assoc, progressOver, Progress.readAll_append before alone]
  exact Progress.readAll_stringLiteral reads literal after

/-! ## Two strings in one place -/

section Exchange

variable {tolerance : Tolerance} {scanner : Scanner} {index : Nat} {style : QuoteStyle}
  {literal other : StringLiteral style} {before : List Char}
  (reads : (scanner.progressOver index before).ReadsCode)
  (tolerated : ∀ front, tolerance.texts (front ++ literal.letters) (front ++ other.letters))

include tolerated

theorem Progress.agrees_passValue (progress : Progress) :
    (progress.passValue literal.letters).Agrees tolerance
      (progress.passValue other.letters) where
  within_eq := rfl
  last_eq := rfl
  frames := .refl tolerance.kinds_refl progress.stack
  codes := by
    rw [code_passValue, code_passValue]
    exact tolerated progress.code

include reads

/-- Two literals that are tolerated in one place of a line lead to scans that agree. -/
theorem Scanner.agrees_progressOver (after : List Char) :
    (scanner.progressOver index (before ++ literal.letters ++ after)).Agrees tolerance
      (scanner.progressOver index (before ++ other.letters ++ after)) := by
  rw [progressOver_stringLiteral scanner index literal reads,
    progressOver_stringLiteral scanner index other reads]
  have passed := Progress.agrees_passValue tolerated (scanner.progressOver index before)
  exact passed.readAll ((Agrees.refl tolerance scanner).context index) after

theorem Scanner.agrees_behind (after : List Char) :
    (scanner.scanLine index (before ++ literal.letters ++ after)).2.Agrees tolerance
      (scanner.scanLine index (before ++ other.letters ++ after)).2 :=
  (Agrees.refl tolerance scanner).behind_of_progress (agrees_progressOver reads tolerated after)

end Exchange

/-! ## The shape of the stack -/

/-- Any code in the place of other code that is not blank either, and any kind for any other. -/
def Tolerance.shape : Tolerance where
  texts first second := isBlank first = isBlank second
  lines first second := isBlank first = isBlank second
  kinds _ _ := True
  texts_refl _ := rfl
  lines_refl _ := rfl
  kinds_refl _ := trivial
  append back same := by
    rw [isBlank, isBlank, List.all_append, List.all_append]
    exact congrArg (· && back.all isSpace) same
  trim same := by
    rw [isBlank_trim, isBlank_trim]
    exact same
  isEmpty_trim same := by
    rw [Text.isEmpty_trim, Text.isEmpty_trim]
    exact same
  judge _ _ _ := trivial

theorem StringLiteral.isBlank_append {style : QuoteStyle} (literal : StringLiteral style)
    (front back : List Char) : isBlank (front ++ literal.letters ++ back) = false := by
  rw [isBlank, List.all_append, List.all_append, letters, List.all_cons, style.isSpace_quote,
    Bool.false_and, Bool.and_false, Bool.false_and]

/-- Whatever a string of a line holds, the lines begin and end with stacks of one shape, are of one
kind and leave one mode behind. -/
theorem scanNumbered_string_keepsShape (scanner : Scanner) (index : Nat) {style : QuoteStyle}
    (literal other : StringLiteral style) {before : List Char}
    (reads : (scanner.progressOver index before).ReadsCode) (after : List Char)
    (following : List (Nat × List Char)) :
    let fed := (index, before ++ literal.letters ++ after) :: following
    let changed := (index, before ++ other.letters ++ after) :: following
    List.Forall₂ (ScannedLine.Agrees fun _ _ => True) (scanner.scanNumbered fed)
        (scanner.scanNumbered changed) ∧
      ∀ count, (scanner.behind (fed.take count)).mode =
        (scanner.behind (changed.take count)).mode := by
  intro fed changed
  have tolerated : ∀ front,
      Tolerance.shape.texts (front ++ literal.letters) (front ++ other.letters) := by
    intro front
    have first := literal.isBlank_append front []
    have second := other.isBlank_append front []
    rw [List.append_nil] at first second
    exact first.trans second.symm
  have same := Scanner.Agrees.refl Tolerance.shape scanner
  have progresses := Scanner.agrees_progressOver reads tolerated after
  have behind := Scanner.agrees_behind reads tolerated after
  have blank : isBlank (before ++ literal.letters ++ after) =
      isBlank (before ++ other.letters ++ after) := by
    rw [literal.isBlank_append, other.isBlank_append]
  constructor
  · exact .cons (same.line_of_progress progresses blank) (behind.scanNumbered following)
  · intro count
    cases count with
    | zero => rfl
    | succ count => exact (behind.behind (following.take count)).mode_eq

/-- Delimiters in the title of a test open nothing. -/
theorem scanNumbered_string_keepsShape_title :
    (({} : Scanner).progressOver 0 "it(".toList).ReadsCode ∧
    List.Forall₂ (ScannedLine.Agrees fun _ _ => True)
      (({} : Scanner).scanNumbered [(0, "it('a ([', () => \x7b".toList), (1, "\x7d);".toList)])
      (({} : Scanner).scanNumbered [(0, "it('', () => \x7b".toList), (1, "\x7d);".toList)]) ∧
    (({} : Scanner).behind [(0, "it('a ([', () => \x7b".toList)]).mode = .code := by
  have reads : (({} : Scanner).progressOver 0 "it(".toList).ReadsCode := Or.inl rfl
  let title : StringLiteral .single := ⟨"a ([".toList, forall_of_all (by decide)⟩
  have keeps := scanNumbered_string_keepsShape {} 0 title ⟨[], List.forall_mem_nil _⟩ reads
    ", () => \x7b".toList [(1, "\x7d);".toList)]
  exact ⟨reads, keeps.1, (keeps.2 1).trans rfl⟩

end ScriptLint
