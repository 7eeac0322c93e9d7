import ScriptLint.Proofs.Document.Lines
import ScriptLint.Proofs.Source.Step

/-!
# Open delimiters from line to line

While a line is read, its stack consists of what was opened on the line and of what is left of the
stack at the start of the line. The former records the number of the line, the latter earlier lines.
So a brace that stands at one place of the stack at both ends of a line has not been closed in
between, and neither has anything below it.

A line begins with the stack with which the line above has ended, whatever the lines are: nothing is
assumed about which delimiter closes which.
-/

namespace ScriptLint

/-- The lines on which the braces of a stack were opened, from the outermost brace on. -/
def Frame.openingLines (stack : List Frame) : List Nat :=
  stack.reverse.filterMap fun frame =>
    match frame with
    | .brace _ line => some line
    | _ => none

theorem Frame.mem_openingLines {stack : List Frame} {line : Nat} :
    line ∈ Frame.openingLines stack ↔ ∃ kind, Frame.brace kind line ∈ stack := by
  rw [openingLines, List.mem_filterMap]
  constructor
  · rintro ⟨frame, member, recorded⟩
    cases frame with
    | brace kind opened =>
        cases recorded
        exact ⟨kind, List.mem_reverse.mp member⟩
    | paren header => cases recorded
    | bracket => cases recorded
  · rintro ⟨kind, member⟩
    exact ⟨.brace kind line, List.mem_reverse.mpr member, rfl⟩

theorem Frame.openingLines_append (first second : List Frame) :
    openingLines (first ++ second) = openingLines second ++ openingLines first := by
  rw [openingLines, List.reverse_append, List.filterMap_append]
  rfl

/-- The braces of a stack were opened above a line, the inner ones not above the outer ones. -/
structure Frame.AreOpenedBelow (bound : Nat) (stack : List Frame) : Prop where
  lt : ∀ kind line, .brace kind line ∈ stack → line < bound
  ordered : (openingLines stack).Pairwise (· ≤ ·)

/-- A stack that has come from another one by closing delimiters and by opening delimiters on a
line. -/
def Frame.ComesFrom (index : Nat) (base stack : List Frame) : Prop :=
  ∃ opened kept, stack = opened ++ kept ∧ kept <:+ base ∧
    ∀ kind line, .brace kind line ∈ opened → line = index

namespace Frame.ComesFrom

variable {index : Nat} {base kept stack : List Frame}

theorem refl (index : Nat) (base : List Frame) : ComesFrom index base base :=
  ⟨[], base, rfl, List.suffix_rfl, nofun⟩

theorem push (comes : ComesFrom index base stack) {frame : Frame}
    (own : ∀ kind line, frame = .brace kind line → line = index) :
    ComesFrom index base (frame :: stack) := by
  obtain ⟨opened, kept, rfl, keeps, recorded⟩ := comes
  refine ⟨frame :: opened, kept, rfl, keeps, fun kind line member => ?_⟩
  rcases List.mem_cons.mp member with here | earlier
  · exact own kind line here.symm
  · exact recorded kind line earlier

theorem pop (comes : ComesFrom index base stack) : ComesFrom index base stack.tail := by
  obtain ⟨opened, kept, rfl, keeps, recorded⟩ := comes
  cases opened with
  | nil => exact ⟨[], kept.tail, rfl, (List.tail_suffix kept).trans keeps, nofun⟩
  | cons frame others =>
      exact ⟨others, kept, rfl, keeps, fun kind line member =>
        recorded kind line (List.mem_cons_of_mem frame member)⟩

/-- Opening and closing on a line keeps the order of the opening lines. -/
theorem areOpenedBelow (comes : ComesFrom index base stack)
    (below : AreOpenedBelow index base) : AreOpenedBelow (index + 1) stack := by
  obtain ⟨opened, kept, rfl, ⟨closed, baseEq⟩, recorded⟩ := comes
  have keptLt : ∀ kind line, .brace kind line ∈ kept → line < index := by
    intro kind line member
    apply below.lt kind line
    rw [← baseEq]
    exact List.mem_append_right closed member
  constructor
  case lt =>
    intro kind line member
    rcases List.mem_append.mp member with here | earlier
    · rw [recorded kind line here]
      exact Nat.lt_succ_self index
    · exact Nat.lt_succ_of_lt (keptLt kind line earlier)
  case ordered =>
    have keptOrdered : (openingLines kept).Pairwise (· ≤ ·) := by
      have ordered := below.ordered
      rw [← baseEq, openingLines_append] at ordered
      exact (List.pairwise_append.mp ordered).1
    have openedSame : ∀ line ∈ openingLines opened, line = index := by
      intro line member
      obtain ⟨kind, member⟩ := mem_openingLines.mp member
      exact recorded kind line member
    rw [openingLines_append, List.pairwise_append]
    refine ⟨keptOrdered, ?_, ?_⟩
    · refine List.pairwise_of_forall_mem_list fun first firstMember second secondMember => ?_
      rw [openedSame first firstMember, openedSame second secondMember]
    · intro earlier earlierMember later laterMember
      obtain ⟨kind, member⟩ := mem_openingLines.mp earlierMember
      have before := keptLt kind earlier member
      have after := openedSame later laterMember
      omega

/-- A brace on top of what is left is new on the line, so it is not the one at the start. -/
theorem head?_ne (comes : ComesFrom index kept stack) (below : AreOpenedBelow index base)
    (shorter : kept.length < stack.length) {kind : BraceKind} {line : Nat}
    (top : stack.head? = some (.brace kind line)) : base.head? ≠ stack.head? := by
  obtain ⟨opened, left, rfl, leftKept, recorded⟩ := comes
  have lengths := leftKept.length_le
  cases opened with
  | nil =>
      rw [List.nil_append] at shorter
      omega
  | cons frame others =>
      intro same
      cases top
      have earlier : line < index := by
        apply below.lt kind line
        exact List.mem_of_head? same
      have own : line = index := recorded kind line List.mem_cons_self
      omega

/-- Below a brace that stands at one place of both stacks nothing has changed. -/
theorem agree (comes : ComesFrom index base stack) (below : AreOpenedBelow index base)
    {position : Nat} {kind : BraceKind} {line : Nat}
    (inBase : base.reverse[position]? = some (.brace kind line))
    (inStack : stack.reverse[position]? = some (.brace kind line)) :
    ∀ lower < position, base.reverse[lower]? = stack.reverse[lower]? := by
  obtain ⟨opened, kept, rfl, ⟨closed, baseEq⟩, recorded⟩ := comes
  have earlier : line < index := by
    apply below.lt kind line
    exact List.mem_reverse.mp (List.mem_of_getElem? inBase)
  rw [List.reverse_append] at inStack
  -- a brace beyond the part that is left was opened on this line
  have inKept : position < kept.reverse.length := by
    by_contra beyond
    rw [List.getElem?_append_right (by omega)] at inStack
    have same := recorded kind line (List.mem_reverse.mp (List.mem_of_getElem? inStack))
    omega
  intro lower isLower
  rw [← baseEq, List.reverse_append, List.reverse_append,
    List.getElem?_append_left (by omega), List.getElem?_append_left (by omega)]

end Frame.ComesFrom

/-! ## Steps and lines -/

namespace Progress

variable {index : Nat} {base : List Frame}

/-- One character closes a delimiter, opens one on the line that is read, or does neither. -/
theorem comesFrom_read {progress : Progress} {context : LineContext}
    (comes : Frame.ComesFrom context.index base progress.stack) (letter : Char)
    (next : Option Char) :
    Frame.ComesFrom context.index base (progress.read context letter next).stack := by
  cases hides : progress.hidesNext letter next with
  | true =>
      rw [(read_of_hidesNext hides).2.1]
      exact comes
  | false =>
      generalize steppedEq : progress.read context letter next = stepped
      have keeps : Keeps context letter progress stepped := steppedEq ▸ .read hides
      cases keeps with
      | opens frame own => exact comes.push fun kind line same => (own kind line same).1
      | closes => exact comes.pop
      | closesTemplate =>
          simp only [goOn, remember, stack_closeRegion]
          exact comes
      | _ => exact comes

/-- The stacks while the rest of a line is read, from the one before its first character on to the
one behind its last. -/
def stacksOver (context : LineContext) : List Char → Progress → List (List Frame)
  | [], progress => [progress.stack]
  | letter :: rest, progress =>
      progress.stack :: stacksOver context rest (progress.read context letter rest.head?)

theorem stack_mem_stacksOver (context : LineContext) (letters : List Char) (progress : Progress) :
    (progress.readAll context letters).stack ∈ stacksOver context letters progress := by
  induction letters generalizing progress with
  | nil => exact List.mem_singleton_self _
  | cons letter rest inductionHypothesis => exact List.mem_cons_of_mem _ (inductionHypothesis _)

theorem comesFrom_readAll {context : LineContext} {progress : Progress}
    (comes : Frame.ComesFrom context.index base progress.stack) (letters : List Char) :
    Frame.ComesFrom context.index base (progress.readAll context letters).stack := by
  induction letters generalizing progress with
  | nil => exact comes
  | cons letter rest inductionHypothesis =>
      exact inductionHypothesis (comesFrom_read comes letter rest.head?)

/-- Each of the stacks comes from the first one, and the last one comes from each of them. -/
theorem comesFrom_of_mem_stacksOver {context : LineContext} {progress : Progress}
    {letters : List Char} {stack : List Frame} (member : stack ∈ stacksOver context letters progress) :
    (∀ base, Frame.ComesFrom context.index base progress.stack →
      Frame.ComesFrom context.index base stack) ∧
    (∀ base, Frame.ComesFrom context.index base stack →
      Frame.ComesFrom context.index base (progress.readAll context letters).stack) := by
  induction letters generalizing progress with
  | nil =>
      rw [stacksOver, List.mem_singleton] at member
      rw [member]
      exact ⟨fun _ => id, fun _ => id⟩
  | cons letter rest inductionHypothesis =>
      rcases List.mem_cons.mp member with here | later
      · rw [here]
        exact ⟨fun _ => id, fun base comes => comesFrom_readAll comes (letter :: rest)⟩
      · obtain ⟨fromStart, toEnd⟩ := inductionHypothesis later
        exact ⟨fun base comes => fromStart base (comesFrom_read comes letter rest.head?), toEnd⟩

end Progress

/-! ## Documents -/

namespace Scanner

/-- The scanner behind numbered lines. -/
def behind (scanner : Scanner) : List (Nat × List Char) → Scanner
  | [] => scanner
  | (index, text) :: rest => (scanner.scanLine index text).2.behind rest

theorem scanNumbered_append (scanner : Scanner) (first second : List (Nat × List Char)) :
    scanner.scanNumbered (first ++ second) =
      scanner.scanNumbered first ++ (scanner.behind first).scanNumbered second := by
  induction first generalizing scanner with
  | nil => rfl
  | cons fed rest inductionHypothesis =>
      exact congrArg ((scanner.scanLine fed.1 fed.2).1 :: ·) (inductionHypothesis _)

theorem behind_append (scanner : Scanner) (first second : List (Nat × List Char)) :
    scanner.behind (first ++ second) = (scanner.behind first).behind second := by
  induction first generalizing scanner with
  | nil => rfl
  | cons fed rest inductionHypothesis => exact inductionHypothesis _

/-- A line is scanned with the scanner that is behind the lines above it. -/
theorem getElem?_scanNumbered (scanner : Scanner) (lines : List (Nat × List Char)) (index : Nat) :
    (scanner.scanNumbered lines)[index]? =
      lines[index]?.map fun fed =>
        ((scanner.behind (lines.take index)).scanLine fed.1 fed.2).1 := by
  induction lines generalizing scanner index with
  | nil => rfl
  | cons fed rest inductionHypothesis =>
      cases index with
      | zero => rfl
      | succ index => exact inductionHypothesis _ index

end Scanner

namespace Document

variable (document : Document)

/-- The lines with their numbers. -/
def numbered : List (Nat × List Char) := document.lines.zipIdx.map fun entry => (entry.2, entry.1)

/-- The scanner with which a line is begun. -/
def scannerBefore (index : Nat) : Scanner :=
  ({} : Scanner).behind (document.numbered.take index)

/-- The stacks while a line is read, from its start to its end. -/
def stacksOn (index : Nat) : List (List Frame) :=
  (document.scannerBefore index).begin.stacksOver
    ⟨index, (document.scannerBefore index).previous⟩ (document.line index)

variable {document}

theorem getElem?_numbered (index : Nat) :
    document.numbered[index]? = document.lines[index]?.map fun text => (index, text) := by
  rw [numbered, List.getElem?_map, List.getElem?_zipIdx, Option.map_map]
  simp only [Nat.zero_add]
  rfl

theorem scannerBefore_succ {index : Nat} {text : List Char}
    (found : document.lines[index]? = some text) :
    document.scannerBefore (index + 1) =
      ((document.scannerBefore index).scanLine index text).2 := by
  have numbered : document.numbered[index]? = some (index, text) := by
    rw [getElem?_numbered, found, Option.map_some]
  rw [scannerBefore, List.take_add_one, numbered, Option.toList_some, Scanner.behind_append]
  rfl

/-- Further lines are scanned with the scanner that is behind the document. -/
theorem scan_append {longer : Document} {extra : List (List Char)}
    (linesEq : longer.lines = document.lines ++ extra) :
    longer.scan = document.scan ++ (({} : Scanner).behind document.numbered).scanNumbered
      ((extra.zipIdx document.lineCount).map fun entry => (entry.2, entry.1)) := by
  rw [scan, linesEq, List.zipIdx_append, List.map_append, Nat.zero_add,
    Scanner.scanNumbered_append]
  rfl

/-- A scanned line is what the scanner that is behind the lines above learns about it. -/
theorem eq_scanLine_of_getElem?_scan {index : Nat} {line : ScannedLine}
    (found : document.scan[index]? = some line) :
    document.lines[index]? = some (document.line index) ∧
      line = ((document.scannerBefore index).scanLine index (document.line index)).1 := by
  have isLine : document.lines[index]? = some (document.line index) := by
    obtain ⟨below, _⟩ := List.getElem?_eq_some_iff.mp found
    have sameLength : document.scan.length = document.lines.length := by
      rw [← map_text_scan, List.length_map]
    rw [Document.line, List.getD_eq_getElem _ _ (sameLength ▸ below)]
    exact List.getElem?_eq_getElem _
  have scanEq : document.scan = ({} : Scanner).scanNumbered document.numbered := rfl
  rw [scanEq, Scanner.getElem?_scanNumbered, getElem?_numbered, isLine] at found
  exact ⟨isLine, (Option.some.inj found).symm⟩

/-- Every line begins with braces that were opened above it. -/
theorem areOpenedBelow_scannerBefore {index : Nat} (within : index ≤ document.lineCount) :
    Frame.AreOpenedBelow index (document.scannerBefore index).stack := by
  induction index with
  | zero => exact ⟨nofun, List.Pairwise.nil⟩
  | succ index inductionHypothesis =>
      have found : document.lines[index]? = some document.lines[index] :=
        List.getElem?_eq_getElem within
      have below := inductionHypothesis (Nat.le_of_succ_le within)
      rw [scannerBefore_succ found]
      exact Frame.ComesFrom.areOpenedBelow
        (Progress.comesFrom_readAll (.refl index _) document.lines[index]) below

/-- The stacks at the two ends of a line are related as those of a line of a document are. -/
structure KeepsStacks (document : Document) (index : Nat) (line : ScannedLine) : Prop where
  start_lt : ∀ kind opened, Frame.brace kind opened ∈ line.startStack → opened < index
  end_le : ∀ kind opened, Frame.brace kind opened ∈ line.endStack → opened ≤ index
  start_ordered : (Frame.openingLines line.startStack).Pairwise (· ≤ ·)
  end_ordered : (Frame.openingLines line.endStack).Pairwise (· ≤ ·)
  /-- Positions of a stack are counted from the outermost delimiter on. -/
  agree : ∀ (position : Nat) (kind : BraceKind) (opened : Nat),
    line.startStack.reverse[position]? = some (Frame.brace kind opened) →
    line.endStack.reverse[position]? = some (Frame.brace kind opened) →
      ∀ lower < position, line.startStack.reverse[lower]? = line.endStack.reverse[lower]?
  /-- If as many delimiters are open at the end as at the start, the last of them a brace, the
  innermost ones differ exactly if the line closes one of those open at its start. -/
  top_ne_iff : ∀ kind opened, line.endStack.length = line.startStack.length →
    line.endTop? = some (Frame.brace kind opened) →
      (line.startTop? ≠ line.endTop? ↔
        ∃ stack ∈ document.stacksOn index, ¬ line.startStack <:+ stack)

theorem keepsStacks_of_getElem?_scan {index : Nat} {line : ScannedLine}
    (found : document.scan[index]? = some line) : document.KeepsStacks index line := by
  obtain ⟨isLine, lineEq⟩ := eq_scanLine_of_getElem?_scan found
  have within : index < document.lineCount := (line_eq_of_getElem? isLine).1
  have below : Frame.AreOpenedBelow index line.startStack := by
    rw [lineEq]
    exact areOpenedBelow_scannerBefore (Nat.le_of_lt within)
  have comes : Frame.ComesFrom index line.startStack line.endStack := by
    rw [lineEq]
    exact Progress.comesFrom_readAll (.refl index _) (document.line index)
  have endBelow := comes.areOpenedBelow below
  constructor
  case start_lt => exact below.lt
  case end_le => exact fun kind opened member => Nat.le_of_lt_succ (endBelow.lt kind opened member)
  case start_ordered => exact below.ordered
  case end_ordered => exact endBelow.ordered
  case agree => exact fun position kind opened => comes.agree below
  case top_ne_iff =>
    intro kind opened sameLength top
    have startEq : (document.scannerBefore index).begin.stack = line.startStack := lineEq ▸ rfl
    have endEq : ((document.scannerBefore index).begin.readAll
        ⟨index, (document.scannerBefore index).previous⟩ (document.line index)).stack =
          line.endStack := lineEq ▸ rfl
    constructor
    · intro differ
      by_contra keepsAll
      push Not at keepsAll
      have keeps := keepsAll line.endStack (endEq ▸ Progress.stack_mem_stacksOver _ _ _)
      have same : line.startStack = line.endStack := keeps.eq_of_length sameLength.symm
      apply differ
      rw [ScannedLine.startTop?, ScannedLine.endTop?, same]
    · rintro ⟨stack, member, loses⟩
      obtain ⟨fromStart, toEnd⟩ := Progress.comesFrom_of_mem_stacksOver member
      obtain ⟨own, kept, stackEq, keeps, recorded⟩ := fromStart line.startStack (startEq ▸ .refl _ _)
      have fromKept : Frame.ComesFrom index kept line.endStack :=
        endEq ▸ toEnd kept ⟨own, kept, stackEq, List.suffix_rfl, recorded⟩
      have shorter : kept.length < line.endStack.length := by
        rw [sameLength]
        by_contra notShorter
        have whole : kept = line.startStack :=
          keeps.eq_of_length (le_antisymm keeps.length_le (not_lt.mp notShorter))
        exact loses ⟨own, by rw [stackEq, whole]⟩
      exact fromKept.head?_ne below shorter top

end Document

/-- Whatever a document holds, scanning it gives a line for each of its lines, the first one with
nothing open at its start and each one beginning with the stack with which the line above has ended;
and the two stacks of a line record where their braces were opened in such a way that the innermost
delimiters tell whether the line has closed one of those open at its start. -/
theorem scan_keepsStacks (document : Document) :
    document.scan.length = document.lineCount ∧
    (∀ line, document.scan[0]? = some line → line.startStack = []) ∧
    (∀ index line next, document.scan[index]? = some line →
      document.scan[index + 1]? = some next → next.startStack = line.endStack) ∧
    ∀ index line, document.scan[index]? = some line → document.KeepsStacks index line := by
  refine ⟨?_, ?_, ?_, fun index line => Document.keepsStacks_of_getElem?_scan⟩
  · rw [Document.lineCount, ← Document.map_text_scan, List.length_map]
  · intro line found
    obtain ⟨_, lineEq⟩ := Document.eq_scanLine_of_getElem?_scan found
    rw [lineEq]
    rfl
  · intro index line next found foundNext
    obtain ⟨isLine, lineEq⟩ := Document.eq_scanLine_of_getElem?_scan found
    obtain ⟨_, nextEq⟩ := Document.eq_scanLine_of_getElem?_scan foundNext
    rw [nextEq, lineEq, Document.scannerBefore_succ isLine]
    rfl

end ScriptLint
