import ScriptLint.Proofs.Source.Plain
import ScriptLint.Proofs.Source.Rescan
import ScriptLint.Proofs.Source.Stack

/-!
# Lines without code

Only the six delimiters open and close anything, and a delimiter that does so is shown in the code.
So a line whose code is blank leaves the stack as it found it, and the stack at the start of a line
is the one at the end of the last line of code above it.
-/

namespace ScriptLint

open Text

namespace Progress

variable {progress : Progress} {context : LineContext} {letter : Char} {next : Option Char}

theorem stack_readCode_of_not_mem (other : letter ∉ delimiters) :
    (progress.readCode context letter next).stack = progress.stack := by
  simp only [delimiters, List.mem_cons, List.not_mem_nil, or_false, not_or] at other
  simp only [readCode, beq_iff_eq, other, or_self, if_false, Bool.or_eq_true]
  split_ifs
  all_goals rfl

/-- Whatever is read, nothing but a delimiter changes the stack. -/
theorem stack_read_of_not_mem (other : letter ∉ delimiters) :
    (progress.read context letter next).stack = progress.stack := by
  cases hides : progress.hidesNext letter next with
  | true => exact (read_of_hidesNext hides).2.1
  | false =>
      unfold read
      cases progress.within with
      | plain | word => exact stack_readCode_of_not_mem other
      | flags =>
          dsimp only
          split_ifs
          · rfl
          · exact stack_readCode_of_not_mem other
      | string quote =>
          simp only [readString]
          split_ifs
          all_goals rfl
      | regex inClass =>
          simp only [readRegex]
          split_ifs
          all_goals rfl
      | template depth =>
          simp only [readTemplate]
          split_ifs
          all_goals first | rfl | exact stack_closeRegion
      | blockComment =>
          dsimp only
          split_ifs
          all_goals rfl
      | blockClosing => exact stack_closeRegion
      | lineComment | blockOpening | held => rfl

theorem not_mem_delimiters_of_isSpace (spaced : isSpace letter = true) : letter ∉ delimiters := by
  have noSpace : delimiters.all (fun mark => !isSpace mark) = true := by decide
  intro member
  have visible := List.all_eq_true.mp noSpace letter member
  rw [spaced] at visible
  cases visible

/-- The code read so far stays in front of what is read. -/
theorem suffix_reversed_readAll (context : LineContext) (letters : List Char)
    (progress : Progress) : progress.reversed <:+ (progress.readAll context letters).reversed := by
  induction letters generalizing progress with
  | nil => exact List.suffix_rfl
  | cons letter rest inductionHypothesis =>
      have stepped : progress.reversed <:+ (progress.read context letter rest.head?).reversed := by
        rw [reversed_read]
        exact List.suffix_append _ _
      exact stepped.trans (inductionHypothesis _)

/-- If the code behind the rest of a line is blank, the rest leaves the stack alone. -/
theorem stack_readAll_of_isSpace {letters : List Char}
    (blank : ∀ shown ∈ (progress.readAll context letters).reversed, isSpace shown = true) :
    (progress.readAll context letters).stack = progress.stack := by
  induction letters generalizing progress with
  | nil => rfl
  | cons letter rest inductionHypothesis =>
      rw [readAll] at blank ⊢
      rw [inductionHypothesis blank]
      cases hides : progress.hidesNext letter rest.head? with
      | true => exact (read_of_hidesNext hides).2.1
      | false =>
          have kept : letter ∈ (progress.read context letter rest.head?).reversed := by
            rw [(Keeps.read hides).reversed_eq]
            exact List.mem_cons_self
          have shown := (suffix_reversed_readAll context rest _).subset kept
          exact stack_read_of_not_mem (not_mem_delimiters_of_isSpace (blank letter shown))

end Progress

namespace Document

variable {document : Document} {index : Nat} {line next : ScannedLine}

theorem startStack_eq_endStack (found : document.scan[index]? = some line)
    (foundNext : document.scan[index + 1]? = some next) : next.startStack = line.endStack := by
  obtain ⟨isLine, lineEq⟩ := eq_scanLine_of_getElem?_scan found
  obtain ⟨_, nextEq⟩ := eq_scanLine_of_getElem?_scan foundNext
  rw [nextEq, lineEq, scannerBefore_succ isLine]
  rfl

theorem endStack_eq_startStack (found : document.scan[index]? = some line)
    (noCode : line.isCode = false) : line.endStack = line.startStack := by
  have blank : line.trimmed = [] := by
    rw [ScannedLine.isCode_eq (holds_of_getElem?_scan found).code_eq, Bool.not_eq_false',
      List.isEmpty_iff] at noCode
    exact noCode
  obtain ⟨_, lineEq⟩ := eq_scanLine_of_getElem?_scan found
  rw [ScannedLine.trimmed, trim_eq_nil_iff, lineEq] at blank
  rw [lineEq]
  apply Progress.stack_readAll_of_isSpace
  intro shown member
  exact blank shown (List.mem_reverse.mpr member)

/-- If the lines of code from one on end with more than some number of open delimiters, each line
below it down to the one behind them begins so. -/
theorem lt_startStack {depth first last : Nat} (below : first < last)
    (firstFound : document.scan[first]? = some line) (isCode : line.isCode = true)
    (deeper : ∀ index between, first ≤ index → index < last →
      document.scan[index]? = some between → between.isCode = true →
        depth < between.endStack.length)
    (lastFound : document.scan[last]? = some next) : depth < next.startStack.length := by
  induction last generalizing next with
  | zero => exact absurd below (Nat.not_lt_zero first)
  | succ last inductionHypothesis =>
      obtain ⟨above, aboveFound⟩ : ∃ above, document.scan[last]? = some above := by
        have inside := (List.getElem?_eq_some_iff.mp lastFound).1
        exact ⟨_, List.getElem?_eq_getElem (Nat.lt_of_succ_lt inside)⟩
      rw [startStack_eq_endStack aboveFound lastFound]
      cases code : above.isCode with
      | true =>
          have atLeast : first ≤ last := Nat.le_of_lt_succ below
          exact deeper last above atLeast (Nat.lt_succ_self last) aboveFound code
      | false =>
          -- the first line carries code, so the line above is not the first one
          have notFirst : first ≠ last := by
            rintro rfl
            rw [firstFound] at aboveFound
            cases aboveFound
            rw [isCode] at code
            cases code
          rw [endStack_eq_startStack aboveFound code]
          apply inductionHypothesis (by omega) _ aboveFound
          intro index between atLeast isBelow
          exact deeper index between atLeast (Nat.lt_succ_of_lt isBelow)

end Document

end ScriptLint
