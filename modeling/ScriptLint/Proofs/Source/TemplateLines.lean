import ScriptLint.Proofs.Source.Rescan
import ScriptLint.Proofs.Source.Stack
import ScriptLint.Proofs.Source.StringKinds

/-!
# Lines that begin inside a template literal

A template literal is left by a backtick only, and up to there its text is code as it stands. So the
first line below an open template literal that is not blank is the next line of code, and its code
begins as its text does.
-/

namespace ScriptLint

open Text

namespace Progress

variable {progress : Progress} {context : LineContext} {letter : Char} {next : Option Char}

/-- Without a backtick no template literal ends. -/
theorem region?_read_of_template (inside : progress.within.region? = some .template)
    (noBacktick : letter ≠ '`') :
    (progress.read context letter next).within.region? = some .template := by
  unfold Progress.read
  cases within : progress.within with
  | template depth =>
      have isOther : (letter == '`') = false := beq_eq_false_iff_ne.mpr noBacktick
      have kept : (progress.keep letter).within.region? = some .template := inside
      simp only [readTemplate, isOther, Bool.false_and, if_neg Bool.false_ne_true]
      split_ifs
      · rfl
      · rfl
      · rfl
      · rfl
      · exact kept
  | held after =>
      rw [within] at inside
      exact inside
  | _ =>
      rw [within] at inside
      cases inside

theorem shown_of_template (inside : progress.within.region? = some .template) :
    progress.shown letter next = [letter] := by
  have shows : progress.hidesNext letter next = false := by
    unfold hidesNext
    cases within : progress.within with
    | lineComment | blockOpening | blockComment | blockClosing | plain | word | flags =>
        rw [within] at inside
        cases inside
    | _ => rfl
  rw [shown, shows, if_neg Bool.false_ne_true]

theorem region?_readAll_of_template (inside : progress.within.region? = some .template)
    {letters : List Char} (noBacktick : '`' ∉ letters) :
    (progress.readAll context letters).within.region? = some .template := by
  induction letters generalizing progress with
  | nil => exact inside
  | cons letter rest inductionHypothesis =>
      rw [List.mem_cons, not_or] at noBacktick
      exact inductionHypothesis (region?_read_of_template inside (Ne.symm noBacktick.1))
        noBacktick.2

end Progress

/-- The code is the text, or both go on in their own ways behind the same backtick. -/
def KeepsToBacktick (text code : List Char) : Prop :=
  code = text ∨ ∃ front rest shown, text = front ++ '`' :: rest ∧ code = front ++ '`' :: shown

namespace KeepsToBacktick

variable {text code : List Char}

theorem cons (letter : Char) (keeps : KeepsToBacktick text code) :
    KeepsToBacktick (letter :: text) (letter :: code) := by
  rcases keeps with rfl | ⟨front, rest, shown, rfl, rfl⟩
  · exact Or.inl rfl
  · exact Or.inr ⟨letter :: front, rest, shown, rfl, rfl⟩

theorem isBlank_eq (keeps : KeepsToBacktick text code) : isBlank code = isBlank text := by
  rcases keeps with rfl | ⟨front, rest, shown, rfl, rfl⟩
  · rfl
  · have visible : isSpace '`' = false := by decide
    simp only [isBlank, List.all_append, List.all_cons, visible, Bool.false_and, Bool.and_false]

theorem trim (keeps : KeepsToBacktick text code) :
    KeepsToBacktick (Text.trim text) (Text.trim code) := by
  rcases keeps with rfl | ⟨front, rest, shown, rfl, rfl⟩
  · exact Or.inl rfl
  · have visible : isSpace '`' = false := by decide
    have trimmed : ∀ back, Text.trim (front ++ '`' :: back) =
        trimStart front ++ '`' :: trimEnd back := by
      intro back
      rw [Text.trim, trimStart, dropWhile_append_mark visible, trimEnd,
        dropEndWhile_append_mark visible]
      rfl
    exact Or.inr ⟨_, _, _, trimmed rest, trimmed shown⟩

theorem beginsWith_eq (keeps : KeepsToBacktick text code) {marker : String}
    (noBacktick : '`' ∉ marker.toList) : beginsWith marker code = beginsWith marker text := by
  rcases keeps with rfl | ⟨front, rest, shown, rfl, rfl⟩
  · rfl
  · rw [beginsWith_append_mark noBacktick, beginsWith_append_mark noBacktick]

end KeepsToBacktick

theorem Progress.keepsToBacktick_shownOver {progress : Progress} (context : LineContext)
    (letters : List Char) (inside : progress.within.region? = some .template) :
    KeepsToBacktick letters (progress.shownOver context letters) := by
  induction letters generalizing progress with
  | nil => exact Or.inl rfl
  | cons letter rest inductionHypothesis =>
      rw [shownOver, shown_of_template inside, List.singleton_append]
      by_cases backtick : letter = '`'
      · rw [backtick]
        exact Or.inr ⟨[], _, _, rfl, rfl⟩
      · exact (inductionHypothesis (region?_read_of_template inside backtick)).cons letter

/-! ## Scanned lines -/

namespace Scanner

variable {scanner : Scanner}

theorem region?_begin (inTemplate : scanner.isInTemplate = true) :
    scanner.begin.within.region? = some .template := by
  unfold isInTemplate at inTemplate
  cases mode : scanner.mode with
  | template depth =>
      rw [begin, mode]
      rfl
  | code | blockComment =>
      rw [mode] at inTemplate
      cases inTemplate

theorem isInTemplate_of_region? {within : Within} (inside : within.region? = some .template)
    (isMode : scanner.mode = within.leave) : scanner.isInTemplate = true := by
  have exists_depth : ∃ depth, within.leave = .template depth := by
    clear isMode
    induction within with
    | template depth => exact ⟨depth, rfl⟩
    | held after inductionHypothesis => exact inductionHypothesis inside
    | _ => cases inside
  obtain ⟨depth, leaveEq⟩ := exists_depth
  rw [isInTemplate, isMode, leaveEq]

end Scanner

namespace Document

variable {document : Document} {index : Nat} {line next : ScannedLine}

theorem keepsToBacktick (found : document.scan[index]? = some line)
    (inTemplate : line.startsInTemplate = true) : KeepsToBacktick line.text line.code := by
  obtain ⟨_, lineEq⟩ := eq_scanLine_of_getElem?_scan found
  subst lineEq
  let context : LineContext := ⟨index, (document.scannerBefore index).previous⟩
  have codeEq : ((document.scannerBefore index).scanLine index (document.line index)).1.code =
      Progress.shownOver context (document.line index) (document.scannerBefore index).begin :=
    Progress.code_readAll _ _ _
  rw [codeEq]
  exact Progress.keepsToBacktick_shownOver context _ (Scanner.region?_begin inTemplate)

/-- A template literal goes on below a line without a backtick. -/
theorem startsInTemplate_of_not_mem (found : document.scan[index]? = some line)
    (foundNext : document.scan[index + 1]? = some next)
    (inTemplate : line.startsInTemplate = true) (noBacktick : '`' ∉ line.text) :
    next.startsInTemplate = true := by
  obtain ⟨isLine, lineEq⟩ := eq_scanLine_of_getElem?_scan found
  obtain ⟨_, nextEq⟩ := eq_scanLine_of_getElem?_scan foundNext
  subst lineEq
  let context : LineContext := ⟨index, (document.scannerBefore index).previous⟩
  have goesOn := @Progress.region?_readAll_of_template _ context
    (Scanner.region?_begin inTemplate) _ noBacktick
  have isBehind : next.startsInTemplate = (document.scannerBefore (index + 1)).isInTemplate := by
    rw [nextEq]
    rfl
  rw [isBehind, scannerBefore_succ isLine]
  exact Scanner.isInTemplate_of_region? goesOn rfl

theorem isCode_eq_of_startsInTemplate (found : document.scan[index]? = some line)
    (inTemplate : line.startsInTemplate = true) : line.isCode = !isBlank line.text := by
  rw [ScannedLine.isCode_eq (holds_of_getElem?_scan found).code_eq, ScannedLine.trimmed,
    isEmpty_trim, (keepsToBacktick found inTemplate).isBlank_eq]

theorem backtick_not_mem_of_isBlank {text : List Char} (blank : isBlank text = true) :
    '`' ∉ text := by
  intro member
  have visible : isSpace '`' = true := List.all_eq_true.mp blank '`' member
  exact absurd visible (by decide)

/-- Below an open template literal the next line of code is the next line that is not blank, and its
code begins as its text does. -/
theorem find?_isCode_of_startsInTemplate {lines : List ScannedLine}
    (dropped : document.scan.drop index = lines)
    (inTemplate : ∀ line ∈ lines.head?, line.startsInTemplate = true) :
    (lines.find? ScannedLine.isCode).map (·.text) =
        (lines.map (·.text)).find? (fun text => !isBlank text) ∧
      ∀ line, lines.find? ScannedLine.isCode = some line →
        KeepsToBacktick line.text line.code := by
  induction lines generalizing index with
  | nil => exact ⟨rfl, nofun⟩
  | cons line rest inductionHypothesis =>
      have found : document.scan[index]? = some line := by
        rw [← List.head?_drop, dropped]
        rfl
      have begins := inTemplate line rfl
      rw [List.map_cons, List.find?_cons, List.find?_cons,
        isCode_eq_of_startsInTemplate found begins]
      cases blank : isBlank line.text with
      | false =>
          refine ⟨rfl, fun here isHere => ?_⟩
          cases isHere
          exact keepsToBacktick found begins
      | true =>
          have droppedRest : document.scan.drop (index + 1) = rest := by
            rw [← List.drop_drop, dropped]
            rfl
          apply inductionHypothesis droppedRest
          intro next isNext
          have foundNext : document.scan[index + 1]? = some next := by
            rw [← List.head?_drop, droppedRest]
            exact isNext
          exact startsInTemplate_of_not_mem found foundNext begins
            (backtick_not_mem_of_isBlank blank)

end Document

end ScriptLint
