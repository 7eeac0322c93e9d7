import ScriptLint.Source.Scanner

/-!
# What one character does

A character is hidden in the code if it belongs to a comment, and shown otherwise. A hidden character
changes neither the stack nor the last token. What a shown character can do is listed once by
`Keeps`: it goes on with something, opens or closes a template literal, ends a word or a mark, opens
a delimiter on the line that is read, a brace as it is judged there, or closes the innermost one.
-/

namespace ScriptLint.Progress

open Text

variable {progress stepped : Progress} {context : LineContext} {letter : Char} {next : Option Char}

/-- Whether a slash and the character behind it open a comment. -/
def opensComment (letter : Char) (next : Option Char) : Bool :=
  letter == '/' && (next == some '/' || next == some '*')

/-- Whether the next character is hidden in the code. -/
def hidesNext (progress : Progress) (letter : Char) (next : Option Char) : Bool :=
  match progress.within with
  | .lineComment | .blockOpening | .blockComment | .blockClosing => true
  | .plain | .word | .flags => opensComment letter next
  | _ => false

/-- What the next character contributes to the code. -/
def shown (progress : Progress) (letter : Char) (next : Option Char) : List Char :=
  if progress.hidesNext letter next then List.replicate letter.utf8Size ' ' else [letter]

/-! ## Ends of regions -/

@[simp]
theorem reversed_closeRegion : progress.closeRegion.reversed = progress.reversed := by
  unfold closeRegion
  split
  · rfl
  · rfl

@[simp]
theorem stack_closeRegion : progress.closeRegion.stack = progress.stack := by
  unfold closeRegion
  split
  · rfl
  · rfl

@[simp]
theorem last_closeRegion : progress.closeRegion.last = progress.last := by
  unfold closeRegion
  split
  · rfl
  · rfl

/-! ## Comments -/

theorem readCode_of_opensComment (opens : opensComment letter next = true) :
    progress.readCode context letter next =
      ((progress.openRegion .comment).hide letter).goOn
        (if next = some '/' then .lineComment else .blockOpening) := by
  simp only [opensComment, Bool.and_eq_true, Bool.or_eq_true, beq_iff_eq] at opens
  obtain ⟨rfl, rfl | rfl⟩ := opens
  · rfl
  · rfl

/-- Where no comment opens, code is read without looking ahead. -/
theorem readCode_of_not_opensComment (noComment : opensComment letter next = false) :
    progress.readCode context letter next = progress.readCode context letter none := by
  have noLine : (letter == '/' && next == some '/') = false := by
    simp_all [opensComment]
  have noBlock : (letter == '/' && next == some '*') = false := by
    simp_all [opensComment]
  have noLookahead : ∀ marker, (letter == '/' && (none : Option Char) == some marker) = false :=
    fun marker => Bool.and_false _
  simp only [readCode, noLine, noBlock, noLookahead]

/-- The first character behind the letters of a regular expression begins a word of its own, as it
does behind plain code. -/
theorem readCode_goOn_plain (within : progress.within = .flags) :
    (progress.goOn .plain).readCode context letter next =
      progress.readCode context letter next := by
  have sameWord : (progress.goOn .plain).keepWord letter = progress.keepWord letter := by
    simp only [keepWord, within]
    rfl
  simp only [readCode, sameWord]
  rfl

theorem opensComment_of_isAlpha (isLetter : letter.isAlpha = true) :
    opensComment letter next = false := by
  have noSlash : (letter == '/') = false := by
    rw [beq_eq_false_iff_ne]
    rintro rfl
    exact absurd isLetter (by decide)
  rw [opensComment, noSlash, Bool.false_and]

/-! ## Shown characters -/

/-- What a shown character can do. -/
inductive Keeps (context : LineContext) (letter : Char) (progress : Progress) : Progress → Prop where
  | goesOn (within : Within) : Keeps context letter progress ((progress.keep letter).goOn within)
  | value (within : Within) :
      Keeps context letter progress (((progress.keep letter).remember .value).goOn within)
  | opensTemplate :
      Keeps context letter progress
        (((progress.openRegion .template).keep letter).goOn (.template 0))
  | closesTemplate :
      Keeps context letter progress
        (((progress.keep letter).closeRegion.remember .value).goOn .plain)
  | word : Keeps context letter progress (progress.keepWord letter)
  | mark : Keeps context letter progress (progress.keepMark letter)
  | opens (frame : Frame)
      (own : ∀ kind line, frame = .brace kind line → line = context.index ∧
        kind = Brace.judge progress.reversed context.previous progress.stack.head?) :
      Keeps context letter progress ((progress.push frame).keepMark letter)
  | closes : Keeps context letter progress (progress.pop.keepMark letter)

namespace Keeps

theorem ite {condition : Prop} [Decidable condition] {first second : Progress}
    (whenTrue : Keeps context letter progress first)
    (whenFalse : Keeps context letter progress second) :
    Keeps context letter progress (if condition then first else second) := by
  by_cases decided : condition
  · rw [if_pos decided]
    exact whenTrue
  · rw [if_neg decided]
    exact whenFalse

theorem keep : Keeps context letter progress (progress.keep letter) :=
  .goesOn progress.within

theorem readCode (noComment : opensComment letter next = false) :
    Keeps context letter progress (progress.readCode context letter next) := by
  have noLookahead : ∀ marker, (letter == '/' && (none : Option Char) == some marker) = false :=
    fun marker => Bool.and_false _
  rw [readCode_of_not_opensComment noComment]
  simp only [Progress.readCode, noLookahead, Bool.false_eq_true, if_false]
  refine .ite (.value _) (.ite (.value _) (.ite .opensTemplate (.ite ?paren (.ite ?bracket
    (.ite ?brace (.ite .closes (.ite .word (.ite (.goesOn .plain) .mark))))))))
  case paren => exact .opens _ nofun
  case bracket => exact .opens _ nofun
  case brace =>
    refine .opens _ ?_
    rintro kind line ⟨⟩
    exact ⟨rfl, rfl⟩

theorem read (shows : progress.hidesNext letter next = false) :
    Keeps context letter progress (progress.read context letter next) := by
  unfold hidesNext at shows
  unfold Progress.read
  cases within : progress.within with
  | plain | word =>
      rw [within] at shows
      exact .readCode shows
  | string quote => exact .ite (.goesOn _) (.ite (.goesOn _) .keep)
  | regex inClass =>
      exact .ite (.goesOn _) (.ite (.goesOn _) (.ite (.goesOn _) (.ite (.goesOn _) .keep)))
  | flags =>
      rw [within] at shows
      rw [readCode_goOn_plain within]
      exact .ite .keep (.readCode shows)
  | template depth =>
      exact .ite (.goesOn _) (.ite (.goesOn _) (.ite (.goesOn _) (.ite (.goesOn _)
        (.ite .closesTemplate .keep))))
  | held after => exact .goesOn after
  | lineComment | blockOpening | blockComment | blockClosing =>
      rw [within] at shows
      cases shows

theorem reversed_eq (keeps : Keeps context letter progress stepped) :
    stepped.reversed = letter :: progress.reversed := by
  cases keeps with
  | closesTemplate =>
      simp only [goOn, remember, reversed_closeRegion]
      rfl
  | _ => rfl

end Keeps

/-! ## Hidden characters -/

/-- A hidden character becomes spaces and leaves the stack and the last token alone. -/
theorem read_of_hidesNext (hides : progress.hidesNext letter next = true) :
    (progress.read context letter next).reversed =
        List.replicate letter.utf8Size ' ' ++ progress.reversed ∧
      (progress.read context letter next).stack = progress.stack ∧
      (progress.read context letter next).last = progress.last := by
  have opened : opensComment letter next = true →
      (progress.readCode context letter next).reversed =
          List.replicate letter.utf8Size ' ' ++ progress.reversed ∧
        (progress.readCode context letter next).stack = progress.stack ∧
        (progress.readCode context letter next).last = progress.last := by
    intro opens
    rw [readCode_of_opensComment opens]
    exact ⟨rfl, rfl, rfl⟩
  unfold hidesNext at hides
  unfold Progress.read
  cases within : progress.within with
  | plain | word =>
      rw [within] at hides
      exact opened hides
  | flags =>
      rw [within] at hides
      have noLetter : ¬ letter.isAlpha = true := by
        intro isLetter
        rw [opensComment_of_isAlpha isLetter] at hides
        cases hides
      rw [readCode_goOn_plain within]
      dsimp only
      rw [if_neg noLetter]
      exact opened hides
  | lineComment => exact ⟨rfl, rfl, rfl⟩
  | blockOpening => exact ⟨rfl, rfl, rfl⟩
  | blockComment =>
      dsimp only
      split
      · exact ⟨rfl, rfl, rfl⟩
      · exact ⟨rfl, rfl, rfl⟩
  | blockClosing =>
      simp only [goOn, reversed_closeRegion, stack_closeRegion, last_closeRegion]
      exact ⟨rfl, rfl, rfl⟩
  | string | regex | template | held =>
      rw [within] at hides
      cases hides

/-- A character goes into the code as it is shown. -/
theorem reversed_read :
    (progress.read context letter next).reversed =
      progress.shown letter next ++ progress.reversed := by
  unfold shown
  cases hides : progress.hidesNext letter next with
  | true => exact (read_of_hidesNext hides).1
  | false => exact (Keeps.read hides).reversed_eq

end ScriptLint.Progress
