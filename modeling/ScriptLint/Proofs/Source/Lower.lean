import ScriptLint.Proofs.Source.Plain

/-!
# Lines further down

A document is read in the same way below a line that leaves the scanner as it is at the start. Only
the numbers differ that the braces record. The state of the scan below is a function of that of the
other scan, which `lower` takes: every brace was opened one line further down.
-/

namespace ScriptLint

open Text

/-- The delimiter, opened one line further down. -/
def Frame.lower : Frame → Frame
  | .brace kind line => .brace kind (line + 1)
  | frame => frame

/-- The scanned line, one line further down. -/
def ScannedLine.lower (line : ScannedLine) : ScannedLine :=
  { line with
    startStack := line.startStack.map Frame.lower
    endStack := line.endStack.map Frame.lower }

def Scanner.lower (scanner : Scanner) : Scanner :=
  { scanner with stack := scanner.stack.map Frame.lower }

def LineContext.lower (context : LineContext) : LineContext :=
  { context with index := context.index + 1 }

theorem Brace.judge_lower (reversed previous : List Char) (top : Option Frame) :
    judge reversed previous (top.map Frame.lower) = judge reversed previous top := by
  have sameKind : (top.map Frame.lower).bind Frame.braceKind? = top.bind Frame.braceKind? := by
    cases top with
    | none => rfl
    | some frame => cases frame <;> rfl
  unfold judge kindAfter
  rw [sameKind]

namespace Progress

variable {context : LineContext} {letter : Char} {next : Option Char}

def lower (progress : Progress) : Progress :=
  { progress with stack := progress.stack.map Frame.lower }

theorem lower_closeRegion (progress : Progress) :
    progress.closeRegion.lower = progress.lower.closeRegion := by
  cases opened : progress.opened with
  | none => simp only [closeRegion, lower, opened]
  | some region => simp only [closeRegion, lower, opened]

theorem lower_readCode (progress : Progress) :
    (progress.readCode context letter next).lower =
      progress.lower.readCode context.lower letter next := by
  have sameHead : progress.lower.stack.head? = progress.stack.head?.map Frame.lower := List.head?_map
  have samePop : progress.pop.lower = progress.lower.pop := by
    simp only [pop, lower, List.map_tail]
  have sameKind : Brace.judge progress.lower.reversed context.lower.previous
      progress.lower.stack.head? =
        Brace.judge progress.reversed context.previous progress.stack.head? := by
    rw [sameHead, Brace.judge_lower]
    rfl
  have sameClosing : (progress.pop.keepMark letter).lower = progress.lower.pop.keepMark letter := by
    rw [← samePop]
    rfl
  simp only [readCode, apply_ite lower, sameKind, sameClosing]
  rfl

theorem lower_readTemplate (progress : Progress) (depth : Nat) :
    (progress.readTemplate depth letter next).lower =
      progress.lower.readTemplate depth letter next := by
  have sameClosing : (((progress.keep letter).closeRegion.remember .value).goOn .plain).lower =
      ((progress.lower.keep letter).closeRegion.remember .value).goOn .plain :=
    congrArg (fun reading : Progress => (reading.remember .value).goOn .plain)
      (lower_closeRegion (progress.keep letter))
  simp only [readTemplate, apply_ite lower, sameClosing]
  rfl

theorem lower_read (progress : Progress) :
    (progress.read context letter next).lower = progress.lower.read context.lower letter next := by
  have sameWithin : progress.lower.within = progress.within := rfl
  unfold Progress.read
  rw [sameWithin]
  cases progress.within with
  | plain => exact lower_readCode progress
  | word => exact lower_readCode progress
  | string quote =>
      simp only [readString, apply_ite lower]
      rfl
  | regex inClass =>
      simp only [readRegex, apply_ite lower]
      rfl
  | flags =>
      have sameCode := @lower_readCode context letter next (progress.goOn .plain)
      simp only [apply_ite lower, sameCode]
      rfl
  | lineComment => rfl
  | blockOpening => rfl
  | blockComment =>
      simp only [apply_ite lower]
      rfl
  | blockClosing =>
      exact congrArg (fun reading : Progress => reading.goOn .plain)
        (lower_closeRegion (progress.hide letter))
  | template depth => exact lower_readTemplate progress depth
  | held after => rfl

theorem lower_readAll (context : LineContext) (letters : List Char) (progress : Progress) :
    (progress.readAll context letters).lower = progress.lower.readAll context.lower letters := by
  induction letters generalizing progress with
  | nil => rfl
  | cons letter rest inductionHypothesis =>
      rw [readAll, readAll, inductionHypothesis, lower_read]

end Progress

namespace Scanner

theorem lineState_lower (scanner : Scanner) : scanner.lower.lineState = scanner.lineState := by
  obtain ⟨mode, stack, last, previous⟩ := scanner
  cases mode with
  | code =>
      cases stack with
      | nil => rfl
      | cons frame others =>
          cases frame with
          | paren header => cases header <;> rfl
          | bracket => rfl
          | brace kind line => rfl
  | blockComment => rfl
  | template depth => rfl

theorem progressOver_lower (scanner : Scanner) (index : Nat) (text : List Char) :
    scanner.lower.progressOver (index + 1) text = (scanner.progressOver index text).lower :=
  (Progress.lower_readAll ⟨index, scanner.previous⟩ text scanner.begin).symm

/-- One line further down a line is scanned as the same line with other numbers. -/
theorem scanLine_lower (scanner : Scanner) (index : Nat) (text : List Char) :
    scanner.lower.scanLine (index + 1) text =
      ((scanner.scanLine index text).1.lower, (scanner.scanLine index text).2.lower) := by
  have sameRegions : (scanner.progressOver index text).lower.regions =
      (scanner.progressOver index text).regions := by
    rw [Progress.regions, Progress.regions, ← Progress.lower_closeRegion]
    rfl
  simp only [scanLine, progressOver_lower, lineState_lower, sameRegions]
  rfl

theorem scanNumbered_lower (scanner : Scanner) (lines : List (List Char)) (start : Nat) :
    scanner.lower.scanNumbered ((lines.zipIdx (start + 1)).map fun entry => (entry.2, entry.1)) =
      (scanner.scanNumbered ((lines.zipIdx start).map fun entry => (entry.2, entry.1))).map
        ScannedLine.lower := by
  induction lines generalizing scanner start with
  | nil => rfl
  | cons line rest inductionHypothesis =>
      rw [List.zipIdx_cons, List.zipIdx_cons, List.map_cons, List.map_cons, scanNumbered,
        scanLine_lower]
      exact congrArg (List.cons _) (inductionHypothesis (scanner.scanLine start line).2 (start + 1))

end Scanner

/-! ## A comment above -/

namespace Scanner

/-- A line that begins with two slashes is read as a comment from its first byte on. -/
theorem progressOver_comment (text : List Char) :
    ({} : Scanner).progressOver 0 ('/' :: '/' :: text) =
      { within := .lineComment
        stack := []
        last := .start
        reversed := List.replicate (byteLength ('/' :: '/' :: text)) ' '
        position := byteLength ('/' :: '/' :: text)
        opened := some (.comment, 0)
        closed := [] } := by
  have opened := @Progress.readAll_lineComment
    (((({} : Scanner).begin.openRegion .comment).hide '/').goOn .lineComment) ⟨0, []⟩ rfl
    ('/' :: text)
  have slashSize : '/'.utf8Size = 1 := rfl
  rw [byteLength_cons '/' ('/' :: text), Nat.add_comm, List.replicate_add, slashSize]
  rw [Nat.add_comm] at opened
  exact opened

/-- Behind a comment the scanner is as it is at the start of a document. -/
theorem scanLine_comment (text : List Char) :
    ∃ line, ({} : Scanner).scanLine 0 ('/' :: '/' :: text) = (line, {}) ∧
      line.regions = [⟨.comment, 0, byteLength ('/' :: '/' :: text)⟩] := by
  have noCode : trim (List.replicate (byteLength ('/' :: '/' :: text)) ' ').reverse = [] := by
    rw [List.reverse_replicate, trim_eq_nil_iff]
    intro letter member
    rw [List.eq_of_mem_replicate member]
    rfl
  rw [scanLine, progressOver_comment]
  simp only [ScannedLine.trimmed, Progress.code, noCode]
  exact ⟨_, rfl, rfl⟩

end Scanner

end ScriptLint
