import Mathlib.Data.List.Forall2
import ScriptLint.Proofs.Source.Rescan
import ScriptLint.Proofs.Source.Stack

/-!
# Two scans side by side

Two scanners that go on with the same, have the same last token and the same delimiters open read a
text in the same way. The code that they have read before does not matter, except that it decides
what a brace opens. A tolerance says how far the code of two scans, the lines above and the kinds of
the braces may differ, and it is consistent: code within the tolerance gives kinds within the
tolerance.

Two scanners that agree within a tolerance agree behind every character, hence behind every line.
-/

namespace ScriptLint

open Text

/-- Frames that differ at most in what their braces open. -/
inductive Frame.Agrees (kinds : BraceKind → BraceKind → Prop) : Frame → Frame → Prop where
  | paren (header : Bool) : Agrees kinds (.paren header) (.paren header)
  | bracket : Agrees kinds .bracket .bracket
  | brace {kind other : BraceKind} (related : kinds kind other) (line : Nat) :
      Agrees kinds (.brace kind line) (.brace other line)

/-- Stacks of the same depth whose frames differ at most in what their braces open. -/
def Frame.StacksAgree (kinds : BraceKind → BraceKind → Prop) (first second : List Frame) : Prop :=
  List.Forall₂ (Agrees kinds) first second

theorem Frame.StacksAgree.tail {kinds : BraceKind → BraceKind → Prop} {first second : List Frame}
    (agree : StacksAgree kinds first second) : StacksAgree kinds first.tail second.tail := by
  cases agree with
  | nil => exact .nil
  | cons _ others => exact others

theorem Frame.StacksAgree.refl {kinds : BraceKind → BraceKind → Prop}
    (kindsRefl : ∀ kind, kinds kind kind) (stack : List Frame) : StacksAgree kinds stack stack := by
  apply List.forall₂_same.mpr
  intro frame _
  cases frame with
  | paren header => exact .paren header
  | bracket => exact .bracket
  | brace kind line => exact .brace (kindsRefl kind) line

/-- How far two scans may differ, in the code of a line, in the code line above it and in the kinds
of their braces. -/
structure Tolerance where
  texts : List Char → List Char → Prop
  lines : List Char → List Char → Prop
  kinds : BraceKind → BraceKind → Prop
  texts_refl : ∀ text, texts text text
  lines_refl : ∀ line, lines line line
  kinds_refl : ∀ kind, kinds kind kind
  append : ∀ {first second : List Char} (back : List Char),
    texts first second → texts (first ++ back) (second ++ back)
  trim : ∀ {first second : List Char}, texts first second →
    lines (Text.trim first) (Text.trim second)
  isEmpty_trim : ∀ {first second : List Char}, texts first second →
    (Text.trim first).isEmpty = (Text.trim second).isEmpty
  judge : ∀ {first second previous other : List Char} {stack others : List Frame},
    texts first.reverse second.reverse → lines previous other →
      Frame.StacksAgree kinds stack others →
        kinds (Brace.judge first previous stack.head?) (Brace.judge second other others.head?)

variable {tolerance : Tolerance}

/-- Scans of two lines that agree within a tolerance. -/
structure Progress.Agrees (tolerance : Tolerance) (first second : Progress) : Prop where
  within_eq : first.within = second.within
  last_eq : first.last = second.last
  frames : Frame.StacksAgree tolerance.kinds first.stack second.stack
  codes : tolerance.texts first.code second.code

/-- Lines of one number whose lines above agree. -/
structure LineContext.Agrees (tolerance : Tolerance) (first second : LineContext) : Prop where
  index_eq : first.index = second.index
  previous : tolerance.lines first.previous second.previous

namespace Progress.Agrees

variable {first second : Progress} {context other : LineContext} {letter : Char}
  (agrees : Agrees tolerance first second)

include agrees

theorem goOn (within : Within) : Agrees tolerance (first.goOn within) (second.goOn within) :=
  ⟨rfl, agrees.last_eq, agrees.frames, agrees.codes⟩

theorem remember (last : Token) : Agrees tolerance (first.remember last) (second.remember last) :=
  ⟨agrees.within_eq, rfl, agrees.frames, agrees.codes⟩

theorem openRegion (kind : RegionKind) :
    Agrees tolerance (first.openRegion kind) (second.openRegion kind) :=
  ⟨agrees.within_eq, agrees.last_eq, agrees.frames, agrees.codes⟩

theorem closeRegion : Agrees tolerance first.closeRegion second.closeRegion := by
  have within (progress : Progress) : progress.closeRegion.within = progress.within := by
    unfold Progress.closeRegion
    split
    · rfl
    · rfl
  constructor
  · rw [within, within]
    exact agrees.within_eq
  · rw [last_closeRegion, last_closeRegion]
    exact agrees.last_eq
  · rw [stack_closeRegion, stack_closeRegion]
    exact agrees.frames
  · rw [code, code, reversed_closeRegion, reversed_closeRegion]
    exact agrees.codes

theorem push {frame pushed : Frame} (same : Frame.Agrees tolerance.kinds frame pushed) :
    Agrees tolerance (first.push frame) (second.push pushed) :=
  ⟨agrees.within_eq, agrees.last_eq, .cons same agrees.frames, agrees.codes⟩

theorem pop : Agrees tolerance first.pop second.pop :=
  ⟨agrees.within_eq, agrees.last_eq, agrees.frames.tail, agrees.codes⟩

theorem keep (letter : Char) : Agrees tolerance (first.keep letter) (second.keep letter) := by
  refine ⟨agrees.within_eq, agrees.last_eq, agrees.frames, ?_⟩
  have longer := tolerance.append [letter] agrees.codes
  simpa [code, Progress.keep] using longer

theorem hide (letter : Char) : Agrees tolerance (first.hide letter) (second.hide letter) := by
  refine ⟨agrees.within_eq, agrees.last_eq, agrees.frames, ?_⟩
  have longer := tolerance.append (List.replicate letter.utf8Size ' ') agrees.codes
  simpa [code, Progress.hide] using longer

theorem keepMark (letter : Char) :
    Agrees tolerance (first.keepMark letter) (second.keepMark letter) :=
  ((agrees.keep letter).remember _).goOn .plain

theorem keepWord (letter : Char) :
    Agrees tolerance (first.keepWord letter) (second.keepWord letter) := by
  unfold Progress.keepWord
  rw [agrees.within_eq, agrees.last_eq]
  exact ((agrees.keep letter).remember _).goOn .word

omit agrees in
theorem ite {condition : Prop} [Decidable condition] {first second others further : Progress}
    (whenTrue : Agrees tolerance first others) (whenFalse : Agrees tolerance second further) :
    Agrees tolerance (if condition then first else second)
      (if condition then others else further) := by
  by_cases decided : condition
  · rw [if_pos decided, if_pos decided]
    exact whenTrue
  · rw [if_neg decided, if_neg decided]
    exact whenFalse

/-- A brace is the one place where the code read before matters. -/
theorem readCode (same : context.Agrees tolerance other) (letter : Char) (next : Option Char) :
    Agrees tolerance (first.readCode context letter next)
      (second.readCode other letter next) := by
  unfold Progress.readCode
  rw [agrees.last_eq, same.index_eq]
  refine .ite ?lineComment (.ite ?blockComment (.ite ?regex (.ite ?string (.ite ?template
    (.ite ?paren (.ite ?bracket (.ite ?brace (.ite ?closing (.ite ?word
      (.ite ?space ?mark))))))))))
  case lineComment => exact ((agrees.openRegion _).hide letter).goOn _
  case blockComment => exact ((agrees.openRegion _).hide letter).goOn _
  case regex => exact ((agrees.keep letter).remember _).goOn _
  case string => exact ((agrees.keep letter).remember _).goOn _
  case template => exact ((agrees.openRegion _).keep letter).goOn _
  case paren => exact (agrees.push (.paren _)).keepMark letter
  case bracket => exact (agrees.push .bracket).keepMark letter
  case brace =>
    have kinds := tolerance.judge agrees.codes same.previous agrees.frames
    exact (agrees.push (.brace kinds other.index)).keepMark letter
  case closing => exact agrees.pop.keepMark letter
  case word => exact agrees.keepWord letter
  case space => exact (agrees.keep letter).goOn _
  case mark => exact agrees.keepMark letter

theorem readString (quote letter : Char) :
    Agrees tolerance (first.readString quote letter) (second.readString quote letter) := by
  have kept := agrees.keep letter
  exact .ite (kept.goOn _) (.ite (kept.goOn _) kept)

theorem readRegex (inClass : Bool) (letter : Char) :
    Agrees tolerance (first.readRegex inClass letter) (second.readRegex inClass letter) := by
  have kept := agrees.keep letter
  exact .ite (kept.goOn _) (.ite (kept.goOn _) (.ite (kept.goOn _) (.ite (kept.goOn _) kept)))

theorem readTemplate (depth : Nat) (letter : Char) (next : Option Char) :
    Agrees tolerance (first.readTemplate depth letter next)
      (second.readTemplate depth letter next) := by
  have kept := agrees.keep letter
  exact .ite (kept.goOn _) (.ite (kept.goOn _) (.ite (kept.goOn _) (.ite (kept.goOn _)
    (.ite ((kept.closeRegion.remember _).goOn _) kept))))

theorem read (same : context.Agrees tolerance other) (letter : Char) (next : Option Char) :
    Agrees tolerance (first.read context letter next) (second.read other letter next) := by
  unfold Progress.read
  rw [agrees.within_eq]
  cases second.within with
  | plain => exact agrees.readCode same letter next
  | word => exact agrees.readCode same letter next
  | string quote => exact agrees.readString quote letter
  | regex inClass => exact agrees.readRegex inClass letter
  | flags =>
      exact .ite (agrees.keep letter) ((agrees.goOn .plain).readCode same letter next)
  | lineComment => exact agrees.hide letter
  | blockOpening => exact (agrees.hide letter).goOn _
  | blockComment => exact .ite ((agrees.hide letter).goOn _) (agrees.hide letter)
  | blockClosing => exact (agrees.hide letter).closeRegion.goOn _
  | template depth => exact agrees.readTemplate depth letter next
  | held after => exact (agrees.keep letter).goOn after

theorem readAll (same : context.Agrees tolerance other) (letters : List Char) :
    Agrees tolerance (first.readAll context letters) (second.readAll other letters) := by
  induction letters generalizing first second with
  | nil => exact agrees
  | cons letter rest inductionHypothesis =>
      exact inductionHypothesis (agrees.read same letter rest.head?)

theorem stacksOver (same : context.Agrees tolerance other) (letters : List Char) :
    List.Forall₂ (Frame.StacksAgree tolerance.kinds) (first.stacksOver context letters)
      (second.stacksOver other letters) := by
  induction letters generalizing first second with
  | nil => exact .cons agrees.frames .nil
  | cons letter rest inductionHypothesis =>
      exact .cons agrees.frames (inductionHypothesis (agrees.read same letter rest.head?))

end Progress.Agrees

/-! ## Lines -/

/-- Lines that agree in what they are, with stacks that differ at most in what braces open. -/
structure ScannedLine.Agrees (kinds : BraceKind → BraceKind → Prop) (line other : ScannedLine) :
    Prop where
  startStack : Frame.StacksAgree kinds line.startStack other.startStack
  endStack : Frame.StacksAgree kinds line.endStack other.endStack
  startsInTemplate_eq : line.startsInTemplate = other.startsInTemplate
  isBlank_eq : line.isBlank = other.isBlank
  isComment_eq : line.isComment = other.isComment

/-- Scanners that agree within a tolerance. -/
structure Scanner.Agrees (tolerance : Tolerance) (first second : Scanner) : Prop where
  mode_eq : first.mode = second.mode
  last_eq : first.last = second.last
  frames : Frame.StacksAgree tolerance.kinds first.stack second.stack
  previous : tolerance.lines first.previous second.previous

namespace Scanner

/-- The stacks while numbered lines are read, line by line. -/
def stacksOver (scanner : Scanner) : List (Nat × List Char) → List (List (List Frame))
  | [] => []
  | (index, text) :: rest =>
      scanner.begin.stacksOver ⟨index, scanner.previous⟩ text ::
        (scanner.scanLine index text).2.stacksOver rest

namespace Agrees

theorem refl (tolerance : Tolerance) (scanner : Scanner) : scanner.Agrees tolerance scanner :=
  ⟨rfl, rfl, .refl tolerance.kinds_refl scanner.stack, tolerance.lines_refl scanner.previous⟩

variable {first second : Scanner} (agrees : first.Agrees tolerance second)

include agrees

theorem begin : first.begin.Agrees tolerance second.begin where
  within_eq := congrArg Mode.enter agrees.mode_eq
  last_eq := agrees.last_eq
  frames := agrees.frames
  codes := tolerance.texts_refl []

theorem context (index : Nat) :
    LineContext.Agrees tolerance ⟨index, first.previous⟩ ⟨index, second.previous⟩ :=
  ⟨rfl, agrees.previous⟩

theorem isInTemplate_eq : first.isInTemplate = second.isInTemplate := by
  unfold isInTemplate
  rw [agrees.mode_eq]

section Texts

variable {index : Nat} {text other : List Char}
  (progresses : (first.progressOver index text).Agrees tolerance
    (second.progressOver index other))

include progresses

theorem line_of_progress (blank : Text.isBlank text = Text.isBlank other) :
    (first.scanLine index text).1.Agrees tolerance.kinds (second.scanLine index other).1 := by
  refine ⟨agrees.frames, progresses.frames, agrees.isInTemplate_eq, blank, ?_⟩
  have empty := tolerance.isEmpty_trim progresses.codes
  exact congrArg₂ (fun blank empty => !blank && empty) blank empty

theorem behind_of_progress :
    (first.scanLine index text).2.Agrees tolerance (second.scanLine index other).2 := by
  refine ⟨congrArg Within.leave progresses.within_eq, progresses.last_eq, progresses.frames, ?_⟩
  rw [scanLine_snd, scanLine_snd]
  dsimp only
  rw [tolerance.isEmpty_trim progresses.codes, agrees.isInTemplate_eq]
  split
  · exact agrees.previous
  · exact tolerance.trim progresses.codes

end Texts

theorem progressOver (index : Nat) (text : List Char) :
    (first.progressOver index text).Agrees tolerance (second.progressOver index text) :=
  agrees.begin.readAll (agrees.context index) text

theorem behind_scanLine (index : Nat) (text : List Char) :
    (first.scanLine index text).2.Agrees tolerance (second.scanLine index text).2 :=
  agrees.behind_of_progress (agrees.progressOver index text)

theorem scanNumbered (lines : List (Nat × List Char)) :
    List.Forall₂ (ScannedLine.Agrees tolerance.kinds) (first.scanNumbered lines)
      (second.scanNumbered lines) := by
  induction lines generalizing first second with
  | nil => exact .nil
  | cons fed rest inductionHypothesis =>
      apply List.Forall₂.cons
      · exact agrees.line_of_progress (agrees.progressOver fed.1 fed.2) rfl
      · exact inductionHypothesis (agrees.behind_scanLine fed.1 fed.2)

theorem behind (lines : List (Nat × List Char)) :
    (first.behind lines).Agrees tolerance (second.behind lines) := by
  induction lines generalizing first second with
  | nil => exact agrees
  | cons fed rest inductionHypothesis =>
      exact inductionHypothesis (agrees.behind_scanLine fed.1 fed.2)

theorem stacksOver (lines : List (Nat × List Char)) :
    List.Forall₂ (List.Forall₂ (Frame.StacksAgree tolerance.kinds)) (first.stacksOver lines)
      (second.stacksOver lines) := by
  induction lines generalizing first second with
  | nil => exact .nil
  | cons fed rest inductionHypothesis =>
      apply List.Forall₂.cons
      · exact agrees.begin.stacksOver (agrees.context fed.1) fed.2
      · exact inductionHypothesis (agrees.behind_scanLine fed.1 fed.2)

end Agrees

end Scanner

end ScriptLint
