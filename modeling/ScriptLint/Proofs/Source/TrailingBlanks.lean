import ScriptLint.Proofs.Source.Kinds
import ScriptLint.Proofs.Source.Plain

/-!
# White space at the end of a line

White space at the end of a line may stand in code, in a string, a regular expression, a comment or
a template literal, or behind a backslash. Wherever it stands, what goes on behind the line, the
open delimiters and the last token stay what they were in front of it, and the code gets nothing but
white space. So the line can be scanned without it.
-/

namespace ScriptLint

open Text

theorem Text.trim_concat {letters : List Char} {letter : Char} (spaced : isSpace letter = true) :
    trim (letters ++ [letter]) = trim letters := by
  rw [trim, trim, trimStart, trimStart, List.dropWhile_append]
  split
  · next empty =>
      rw [List.isEmpty_iff] at empty
      rw [empty, List.dropWhile_cons_of_pos spaced]
      rfl
  · exact List.rdropWhile_concat_pos _ _ _ spaced

theorem Text.trim_append_of_isSpace (letters : List Char) {trailing : List Char}
    (spaced : ∀ letter ∈ trailing, isSpace letter = true) :
    trim (letters ++ trailing) = trim letters := by
  induction trailing using List.reverseRecOn with
  | nil => rw [List.append_nil]
  | append_singleton front letter inductionHypothesis =>
      rw [List.forall_mem_append, List.forall_mem_singleton] at spaced
      rw [← List.append_assoc, trim_concat spaced.2, inductionHypothesis spaced.1]

namespace Progress

variable {read : List Char} {progress later : Progress} {context : LineContext} {letter : Char}

/-! ## The last character of a line -/

/-- The second character of a comment's opening or end is not the next one to be read. -/
def IsSettled (progress : Progress) : Prop :=
  progress.within ≠ .blockOpening ∧ progress.within ≠ .blockClosing

theorem IsSettled.ite {condition : Prop} [Decidable condition] {first second : Progress}
    (whenTrue : first.IsSettled) (whenFalse : second.IsSettled) :
    (if condition then first else second).IsSettled := by
  by_cases decided : condition
  · rw [if_pos decided]
    exact whenTrue
  · rw [if_neg decided]
    exact whenFalse

theorem isSettled_readCode : (progress.readCode context letter none).IsSettled := by
  have nothing : ∀ partner : Char, ((none : Option Char) == some partner) = false := fun _ => rfl
  simp only [readCode, nothing, Bool.and_false, Bool.false_eq_true, if_false]
  split_ifs
  all_goals
    constructor
    all_goals
      intro isSecond
      cases isSecond

/-- The last character of a line announces no second character of a comment's opening or end. -/
theorem isSettled_read (tracked : Tracks read progress) :
    (progress.read context letter none).IsSettled := by
  have stays : progress.within ≠ .blockOpening → progress.within ≠ .blockClosing →
      (progress.keep letter).IsSettled := fun noOpening noClosing => ⟨noOpening, noClosing⟩
  unfold Progress.read
  cases within : progress.within with
  | plain | word => exact isSettled_readCode
  | flags =>
      rw [within] at stays
      exact .ite (stays nofun nofun) isSettled_readCode
  | string quote =>
      rw [within] at stays
      exact .ite ⟨nofun, nofun⟩ (.ite ⟨nofun, nofun⟩ (stays nofun nofun))
  | regex inClass =>
      rw [within] at stays
      exact .ite ⟨nofun, nofun⟩ (.ite ⟨nofun, nofun⟩ (.ite ⟨nofun, nofun⟩
        (.ite ⟨nofun, nofun⟩ (stays nofun nofun))))
  | template depth =>
      rw [within] at stays
      exact .ite ⟨nofun, nofun⟩ (.ite ⟨nofun, nofun⟩ (.ite ⟨nofun, nofun⟩
        (.ite ⟨nofun, nofun⟩ (.ite ⟨nofun, nofun⟩ (stays nofun nofun)))))
  | lineComment =>
      rw [within] at stays
      exact stays nofun nofun
  | blockOpening => exact ⟨nofun, nofun⟩
  | blockComment =>
      have nothing : ((none : Option Char) == some '/') = false := rfl
      rw [within] at stays
      dsimp only
      rw [nothing, Bool.and_false, if_neg Bool.false_ne_true]
      exact stays nofun nofun
  | blockClosing => exact ⟨nofun, nofun⟩
  | held after =>
      have noComment := tracked.held_ne after within
      constructor
      · rintro ⟨⟩
        exact noComment rfl
      · rintro ⟨⟩
        exact noComment rfl

theorem isSettled_readAll (tracked : Tracks read progress) (letters : List Char)
    (settled : letters = [] → progress.IsSettled) :
    (progress.readAll context letters).IsSettled := by
  induction letters generalizing read progress with
  | nil => exact settled rfl
  | cons letter rest inductionHypothesis =>
      refine inductionHypothesis (tracked.step context letter rest.head?) ?_
      rintro rfl
      exact isSettled_read tracked

/-! ## White space behind it -/

/-- The character is passed, and if the line ended behind it, the same would go on. -/
inductive Overlooks (letter : Char) (progress : Progress) : Progress → Prop where
  | keeps (within : Within) (same : within.leave = progress.within.leave) :
      Overlooks letter progress ((progress.keep letter).goOn within)
  | hides (within : Within) (same : within.leave = progress.within.leave) :
      Overlooks letter progress ((progress.hide letter).goOn within)

namespace Overlooks

theorem keep : Overlooks letter progress (progress.keep letter) := .keeps progress.within rfl

theorem hide : Overlooks letter progress (progress.hide letter) := .hides progress.within rfl

theorem ite {condition : Prop} [Decidable condition] {first second : Progress}
    (whenTrue : Overlooks letter progress first) (whenFalse : Overlooks letter progress second) :
    Overlooks letter progress (if condition then first else second) := by
  by_cases decided : condition
  · rw [if_pos decided]
    exact whenTrue
  · rw [if_neg decided]
    exact whenFalse

/-- White space is passed, unless it is the second character of the end of a comment. -/
theorem of_isSpace (settled : progress.IsSettled) (spaced : isSpace letter = true)
    (noFeed : letter ≠ '\n') : Overlooks letter progress (progress.read context letter none) := by
  have inert := isInert_of_isSpace spaced noFeed
  obtain ⟨_, _, _, noBacktick, _⟩ := ne_of_isPlain (isPlain_of_isInert inert)
  obtain ⟨_, _, noBrace, _, _, noBraceEnd⟩ := ne_of_isInert inert
  have skipped : ∀ reading : Progress,
      reading.readCode context letter none = (reading.keep letter).goOn .plain := by
    intro reading
    rw [readCode_of_isInert inert, isIdentifier_of_isSpace spaced, if_neg Bool.false_ne_true,
      if_pos spaced]
  have goesOn : ∀ next : Within, next.leave = progress.within.leave →
      Overlooks letter progress ((progress.keep letter).goOn next) := .keeps
  unfold Progress.read
  cases within : progress.within with
  | plain | word =>
      rw [within] at goesOn
      dsimp only
      rw [skipped]
      exact goesOn _ rfl
  | flags =>
      rw [within] at goesOn
      dsimp only
      rw [isAlpha_of_isSpace spaced, if_neg Bool.false_ne_true, skipped]
      exact goesOn _ rfl
  | string quote =>
      rw [within] at goesOn
      exact .ite (goesOn _ rfl) (.ite (goesOn _ rfl) .keep)
  | regex inClass =>
      rw [within] at goesOn
      exact .ite (goesOn _ rfl) (.ite (goesOn _ rfl) (.ite (goesOn _ rfl)
        (.ite (goesOn _ rfl) .keep)))
  | template depth =>
      have noMeaning : progress.readTemplate depth letter none =
          if letter = '\\' then (progress.keep letter).goOn (.held (.template depth))
          else progress.keep letter := by
        simp [readTemplate, noBrace, noBraceEnd, noBacktick]
      rw [within] at goesOn
      dsimp only
      rw [noMeaning]
      exact .ite (goesOn _ rfl) .keep
  | held after =>
      rw [within] at goesOn
      exact goesOn _ rfl
  | lineComment => exact .hide
  | blockOpening => exact .hides _ (by rw [within]; rfl)
  | blockComment =>
      have nothing : ((none : Option Char) == some '/') = false := rfl
      dsimp only
      rw [nothing, Bool.and_false, if_neg Bool.false_ne_true]
      exact .hide
  | blockClosing => exact absurd within settled.2

end Overlooks

/-! ## The rest of a line -/

/-- The line could end here or there: the same goes on behind it, and one code is the other one and
white space. -/
structure EndsAs (progress later : Progress) : Prop where
  leave_eq : later.within.leave = progress.within.leave
  stack_eq : later.stack = progress.stack
  last_eq : later.last = progress.last
  code_eq : ∃ trailing, later.code = progress.code ++ trailing ∧
    ∀ letter ∈ trailing, isSpace letter = true

theorem EndsAs.refl (progress : Progress) : progress.EndsAs progress :=
  ⟨rfl, rfl, rfl, [], (List.append_nil _).symm, List.forall_mem_nil _⟩

theorem EndsAs.trans {last : Progress} (first : progress.EndsAs later)
    (second : later.EndsAs last) : progress.EndsAs last where
  leave_eq := second.leave_eq.trans first.leave_eq
  stack_eq := second.stack_eq.trans first.stack_eq
  last_eq := second.last_eq.trans first.last_eq
  code_eq := by
    obtain ⟨front, laterEq, spacedFront⟩ := first.code_eq
    obtain ⟨back, lastEq, spacedBack⟩ := second.code_eq
    refine ⟨front ++ back, ?_, List.forall_mem_append.mpr ⟨spacedFront, spacedBack⟩⟩
    rw [lastEq, laterEq, List.append_assoc]

theorem Overlooks.endsAs (overlooks : Overlooks letter progress later)
    (spaced : isSpace letter = true) : progress.EndsAs later := by
  cases overlooks with
  | keeps within same =>
      exact ⟨same, rfl, rfl, [letter], List.reverse_cons, List.forall_mem_singleton.mpr spaced⟩
  | hides within same =>
      refine ⟨same, rfl, rfl, List.replicate letter.utf8Size ' ', ?_, ?_⟩
      · exact (List.reverse_append).trans (congrArg _ List.reverse_replicate)
      · intro shown member
        rw [List.eq_of_mem_replicate member]
        rfl

theorem standsAlone_of_isSpace {blanks : List Char}
    (spaced : ∀ letter ∈ blanks, isSpace letter = true) : StandsAlone blanks.head? := by
  have visible : partners.all (fun partner => !isSpace partner) = true := by decide
  cases blanks with
  | nil => exact standsAlone_none
  | cons letter rest =>
      apply standsAlone_some
      intro isPartner
      have noSpace := List.all_eq_true.mp visible letter isPartner
      rw [spaced letter List.mem_cons_self] at noSpace
      cases noSpace

/-- The line could end in front of the white space at its end. -/
theorem endsAs_readAll (tracked : Tracks read progress) (settled : progress.IsSettled)
    {blanks : List Char} (spaced : ∀ letter ∈ blanks, isSpace letter = true ∧ letter ≠ '\n') :
    progress.EndsAs (progress.readAll context blanks) := by
  induction blanks generalizing read progress with
  | nil => exact .refl progress
  | cons letter rest inductionHypothesis =>
      rw [List.forall_mem_cons] at spaced
      have alone : StandsAlone rest.head? :=
        standsAlone_of_isSpace fun letter member => (spaced.2 letter member).1
      have first : progress.EndsAs (progress.read context letter none) :=
        (Overlooks.of_isSpace settled spaced.1.1 spaced.1.2).endsAs spaced.1.1
      have further := inductionHypothesis (tracked.step context letter none)
        (isSettled_read tracked) spaced.2
      rw [readAll, read_eq_of_standsAlone alone]
      exact first.trans further

end Progress

/-! ## Lines -/

namespace Scanner

variable (scanner : Scanner) (index : Nat) (text : List Char) {blanks : List Char}

theorem isSettled_begin : scanner.begin.IsSettled := by
  unfold Progress.IsSettled begin
  cases scanner.mode with
  | code => exact ⟨nofun, nofun⟩
  | blockComment => exact ⟨nofun, nofun⟩
  | template depth => exact ⟨nofun, nofun⟩

variable (spaced : ∀ letter ∈ blanks, isSpace letter = true ∧ letter ≠ '\n')

include spaced

theorem endsAs_progressOver :
    (scanner.progressOver index text).EndsAs (scanner.progressOver index (text ++ blanks)) := by
  have alone := Progress.standsAlone_of_isSpace fun letter member => (spaced letter member).1
  have settled : (scanner.progressOver index text).IsSettled :=
    Progress.isSettled_readAll scanner.tracks_begin text fun _ => scanner.isSettled_begin
  rw [progressOver, progressOver, Progress.readAll_append text alone]
  exact Progress.endsAs_readAll (scanner.tracks_progressOver index text) settled spaced

/-- White space at the end of a line leaves nothing behind. -/
theorem scanLine_append_snd :
    (scanner.scanLine index (text ++ blanks)).2 = (scanner.scanLine index text).2 := by
  have ends := scanner.endsAs_progressOver index text spaced
  obtain ⟨trailing, codeEq, spacedCode⟩ := ends.code_eq
  rw [scanLine_snd, scanLine_snd, codeEq, trim_append_of_isSpace _ spacedCode, ends.leave_eq,
    ends.stack_eq, ends.last_eq]

end Scanner

/-- What is learned about a line without some spaces and tabs at its end is what was learned about
the line, but for the ranges of its regions. -/
structure ScannedLine.IsStrippedTo (line stripped : ScannedLine) : Prop where
  text_eq : ∃ blanks, line.text = stripped.text ++ blanks ∧
    ∀ letter ∈ blanks, letter = ' ' ∨ letter = '\t'
  state_eq : stripped.state = line.state
  startsInTemplate_eq : stripped.startsInTemplate = line.startsInTemplate
  startStack_eq : stripped.startStack = line.startStack
  endStack_eq : stripped.endStack = line.endStack
  isBlank_eq : stripped.isBlank = line.isBlank
  isComment_eq : stripped.isComment = line.isComment
  isDecorator_eq : stripped.isDecorator = line.isDecorator
  isCode_eq : stripped.isCode = line.isCode
  code_eq : ∃ trailing, line.code = stripped.code ++ trailing ∧
    ∀ letter ∈ trailing, isSpace letter = true

theorem ScannedLine.IsStrippedTo.refl (line : ScannedLine) : line.IsStrippedTo line where
  text_eq := ⟨[], (List.append_nil _).symm, List.forall_mem_nil _⟩
  state_eq := rfl
  startsInTemplate_eq := rfl
  startStack_eq := rfl
  endStack_eq := rfl
  isBlank_eq := rfl
  isComment_eq := rfl
  isDecorator_eq := rfl
  isCode_eq := rfl
  code_eq := ⟨[], (List.append_nil _).symm, List.forall_mem_nil _⟩

theorem isSpace_of_blank {letter : Char} (blank : letter = ' ' ∨ letter = '\t') :
    isSpace letter = true ∧ letter ≠ '\n' := by
  rcases blank with same | same
  · rw [same]
    decide
  · rw [same]
    decide

theorem Scanner.isStrippedTo_scanLine (scanner : Scanner) (index : Nat) (text : List Char)
    {blanks : List Char} (blank : ∀ letter ∈ blanks, letter = ' ' ∨ letter = '\t') :
    (scanner.scanLine index (text ++ blanks)).1.IsStrippedTo (scanner.scanLine index text).1 := by
  have spaced : ∀ letter ∈ blanks, isSpace letter = true ∧ letter ≠ '\n' :=
    fun letter member => isSpace_of_blank (blank letter member)
  have ends := scanner.endsAs_progressOver index text spaced
  have codeEq : ∃ trailing, (scanner.scanLine index (text ++ blanks)).1.code =
      (scanner.scanLine index text).1.code ++ trailing ∧
        ∀ letter ∈ trailing, isSpace letter = true := ends.code_eq
  have trimmedEq : (scanner.scanLine index (text ++ blanks)).1.trimmed =
      (scanner.scanLine index text).1.trimmed := by
    obtain ⟨trailing, sameCode, spacedCode⟩ := codeEq
    rw [ScannedLine.trimmed, sameCode]
    exact trim_append_of_isSpace _ spacedCode
  have blankEq : (scanner.scanLine index (text ++ blanks)).1.isBlank =
      (scanner.scanLine index text).1.isBlank := by
    have allBlank : blanks.all isSpace = true :=
      List.all_eq_true.mpr fun letter member => (spaced letter member).1
    change isBlank (text ++ blanks) = isBlank text
    rw [isBlank, List.all_append, allBlank, Bool.and_true, ← isBlank]
  have commentEq : (scanner.scanLine index (text ++ blanks)).1.isComment =
      (scanner.scanLine index text).1.isComment := by
    rw [ScannedLine.isComment, blankEq, trimmedEq, ← ScannedLine.isComment]
  constructor
  case text_eq => exact ⟨blanks, rfl, blank⟩
  case state_eq => rfl
  case startsInTemplate_eq => rfl
  case startStack_eq => rfl
  case endStack_eq => exact ends.stack_eq.symm
  case isBlank_eq => exact blankEq.symm
  case isComment_eq => exact commentEq.symm
  case isDecorator_eq =>
    rw [ScannedLine.isDecorator, ← trimmedEq]
    rfl
  case isCode_eq => rw [ScannedLine.isCode, ← blankEq, ← commentEq, ← ScannedLine.isCode]
  case code_eq => exact codeEq

end ScriptLint
