import ScriptLint.Proofs.Source.Agreement
import ScriptLint.Proofs.Source.Head

/-!
# What the code line above decides

The code line above is asked for a brace without a segment of its own: one that begins its line, or
stands right behind the end of a segment. A brace with a segment is judged by that, and by the brace
around it where the segment is a label. So the line above can decide about a brace with a segment
only through braces around it that were opened on the same line.

Two scans of a line that differ in the line above open the same delimiters in the same places, and
the kinds of the braces are compared place by place.
-/

namespace ScriptLint

open Text Text.Pattern

namespace Brace

variable {segment reversed : List Char}

/-- A segment that ends in a colon and that no other test claims. The brace behind it takes after
the brace around it. -/
def isLabel (segment : List Char) : Bool :=
  endsIn ":" segment && !(beginsWith "case " segment || segment == "default:".toList) &&
    !(interfaceHeader.occursIn segment || classHeader.occursIn segment ||
      controlHeader.occursIn segment)

theorem kindAfter_of_isLabel (label : isLabel segment = true) (top : Option Frame) :
    kindAfter segment top =
      if top.bind Frame.braceKind? == some .object then .object else .typeBody := by
  simp only [isLabel, Bool.and_eq_true, Bool.not_eq_true', Bool.or_eq_false_iff] at label
  obtain ⟨⟨colon, noCase, noDefault⟩, ⟨noInterface, noClass⟩, noControl⟩ := label
  obtain ⟨front, segmentEq⟩ : ":".toList <:+ segment := List.isSuffixOf_iff_suffix.mp colon
  have ends : segment.getLast? = some ':' := by
    rw [← segmentEq]
    exact List.getLast?_concat
  have noEnum : enumHeader.occursIn segment = false := not_enumHeader ends rfl (by decide)
  have noAlias : aliasHeader.occursIn segment = false :=
    not_aliasHeader_of_getLast? ends rfl (by decide)
  have noBinding : bindingHead.occursIn segment = false :=
    not_bindingHead (List.mem_of_getLast? ends) (by decide) (by decide)
  simp only [kindAfter, noEnum, noInterface, noAlias, noClass, noControl, noBinding, colon, noCase,
    noDefault, Bool.or_false, Bool.false_eq_true, if_false, if_true]

/-- Behind any other segment the brace around does not matter. -/
theorem kindAfter_of_not_isLabel (nonempty : segment ≠ []) (noLabel : isLabel segment = false)
    (top other : Option Frame) : kindAfter segment top = kindAfter segment other := by
  have someSegment : segment.isEmpty = false := List.isEmpty_eq_false_iff.mpr nonempty
  simp only [isLabel, Bool.and_eq_false_iff, Bool.not_eq_false', Bool.or_eq_true] at noLabel
  rcases noLabel with (noColon | claimed) | (isInterface | isClass) | isControl
  · simp only [kindAfter, noColon, someSegment, Bool.false_and, Bool.false_eq_true, if_false]
  · have isClaimed : (beginsWith "case " segment || segment == "default:".toList) = true := by
      rw [Bool.or_eq_true]
      exact claimed
    simp only [kindAfter, isClaimed, someSegment, Bool.false_and, Bool.false_eq_true, if_false,
      if_true]
  · simp only [kindAfter, isInterface, Bool.true_or, if_true]
  · simp only [kindAfter, isClass, if_true]
  · simp only [kindAfter, isControl, if_true]

/-- Two braces behind one segment get different kinds exactly if it is a label and just one of them
lies in an object. -/
theorem kindAfter_eq_iff (nonempty : segment ≠ []) (top other : Option Frame) :
    kindAfter segment top = kindAfter segment other ↔
      (isLabel segment = true →
        (top.bind Frame.braceKind? == some .object) =
          (other.bind Frame.braceKind? == some .object)) := by
  cases label : isLabel segment with
  | false =>
      exact ⟨fun _ => nofun, fun _ => kindAfter_of_not_isLabel nonempty label top other⟩
  | true =>
      rw [kindAfter_of_isLabel label, kindAfter_of_isLabel label]
      cases top.bind Frame.braceKind? == some .object with
      | false =>
          cases other.bind Frame.braceKind? == some .object with
          | false => simp
          | true => simp
      | true =>
          cases other.bind Frame.braceKind? == some .object with
          | false => simp
          | true => simp

theorem judge_of_segment (nonempty : segmentOf reversed ≠ []) (previous : List Char)
    (top : Option Frame) : judge reversed previous top = kindAfter (segmentOf reversed) top := by
  have someSegment : (segmentOf reversed).isEmpty = false := List.isEmpty_eq_false_iff.mpr nonempty
  simp only [judge, someSegment, Bool.false_eq_true, if_false]

end Brace

/-! ## Braces of a line -/

/-- A brace that a line opens. -/
structure OpenedBrace where
  /-- The code before it on its line. -/
  before : List Char
  /-- The innermost delimiter around it. -/
  around : Option Frame
  kind : BraceKind
  deriving DecidableEq, Repr

namespace OpenedBrace

/-- The code between the brace and the last brace or semicolon before it on its line. -/
def segment (brace : OpenedBrace) : List Char := Brace.segmentOf brace.before.reverse

/-- Whether the innermost delimiter around the brace is the brace of an object. -/
def liesInObject (brace : OpenedBrace) : Bool :=
  brace.around.bind Frame.braceKind? == some .object

/-- Braces in one place of a line in two scans. What is around them was open above the line in both
scans, or consists of braces that the line has opened. With a segment, they differ in their kinds
exactly if the segment is a label and just one of them lies in an object. -/
structure Corresponds (index : Nat) (first second : OpenedBrace) : Prop where
  before_eq : first.before = second.before
  around_eq_or : first.around = second.around ∨ ∃ kind other,
    first.around = some (.brace kind index) ∧ second.around = some (.brace other index)
  kind_eq_iff : first.segment ≠ [] →
    (first.kind = second.kind ↔
      (Brace.isLabel first.segment = true → first.liesInObject = second.liesInObject))

end OpenedBrace

namespace Progress

/-- The brace that the next character opens, if it opens one. -/
def brace? (context : LineContext) (letter : Char) (next : Option Char) (progress : Progress) :
    Option OpenedBrace :=
  let behind := (progress.read context letter next).stack
  if progress.stack.length < behind.length then
    (behind.head?.bind Frame.braceKind?).map fun kind =>
      ⟨progress.code, progress.stack.head?, kind⟩
  else none

/-- The braces that are opened while the rest of a line is read. -/
def bracesOver (context : LineContext) : List Char → Progress → List OpenedBrace
  | [], _ => []
  | letter :: rest, progress =>
      (progress.brace? context letter rest.head?).toList ++
        bracesOver context rest (progress.read context letter rest.head?)

variable {progress : Progress} {context : LineContext} {letter : Char} {next : Option Char}
  {brace : OpenedBrace}

/-- A brace is judged by what has been read before it. -/
theorem eq_of_brace? (found : progress.brace? context letter next = some brace) :
    brace = ⟨progress.code, progress.stack.head?,
      Brace.judge progress.reversed context.previous progress.stack.head?⟩ := by
  rw [brace?] at found
  split at found
  case isFalse => cases found
  case isTrue grows =>
    obtain ⟨kind, kindFound, rfl⟩ := Option.map_eq_some_iff.mp found
    cases hides : progress.hidesNext letter next with
    | true =>
        rw [(read_of_hidesNext hides).2.1] at grows
        exact absurd grows (Nat.lt_irrefl _)
    | false =>
        generalize steppedEq : progress.read context letter next = stepped at grows kindFound
        have keeps : Keeps context letter progress stepped := steppedEq ▸ .read hides
        cases keeps with
        | opens frame own =>
            cases frame with
            | brace opened line =>
                obtain ⟨_, rfl⟩ := own opened line rfl
                cases kindFound
                rfl
            | paren header => cases kindFound
            | bracket => cases kindFound
        | closes =>
            have shorter : progress.stack.tail.length ≤ progress.stack.length := by
              rw [List.length_tail]
              exact Nat.sub_le _ _
            exact absurd grows (Nat.not_lt.mpr shorter)
        | closesTemplate =>
            simp only [goOn, remember, stack_closeRegion] at grows
            exact absurd grows (Nat.lt_irrefl _)
        | _ => exact absurd grows (Nat.lt_irrefl _)

end Progress

/-! ## Two scans of a line -/

/-- The same code below any code line, and any kind for any other. -/
def Tolerance.lineAbove : Tolerance where
  texts := Eq
  lines _ _ := True
  kinds _ _ := True
  texts_refl _ := rfl
  lines_refl _ := trivial
  kinds_refl _ := trivial
  append back same := congrArg (· ++ back) same
  trim _ := trivial
  isEmpty_trim same := congrArg (fun text => (Text.trim text).isEmpty) same
  judge _ _ _ := trivial

/-- Of two stacks of one shape that come from one stack, the innermost delimiters are the same, or
both are braces of the line that is read. -/
theorem Frame.ComesFrom.head?_eq_or {kinds : BraceKind → BraceKind → Prop} {index : Nat}
    {base stack others : List Frame} (comes : ComesFrom index base stack)
    (otherComes : ComesFrom index base others) (agree : StacksAgree kinds stack others) :
    stack.head? = others.head? ∨ ∃ kind other,
      stack.head? = some (.brace kind index) ∧ others.head? = some (.brace other index) := by
  obtain ⟨opened, kept, stackEq, keeps, recorded⟩ := comes
  obtain ⟨otherOpened, otherKept, othersEq, otherKeeps, otherRecorded⟩ := otherComes
  have sameLength : stack.length = others.length := agree.length_eq
  -- a brace of an earlier line on top has nothing opened above it
  have noneOpened {frames rest whole : List Frame} {kind : BraceKind} {line : Nat}
      (record : ∀ kind line, .brace kind line ∈ frames → line = index)
      (wholeEq : .brace kind line :: rest = frames ++ whole) (earlier : line ≠ index) :
      frames = [] := by
    cases frames with
    | nil => rfl
    | cons frame further =>
        obtain ⟨rfl, _⟩ := List.cons.inj wholeEq
        exact absurd (record kind line List.mem_cons_self) earlier
  cases agree with
  | nil => exact Or.inl rfl
  | cons same below =>
      cases same with
      | paren header => exact Or.inl rfl
      | bracket => exact Or.inl rfl
      | @brace kind other _ line =>
          by_cases own : line = index
          · subst own
            exact Or.inr ⟨kind, other, rfl, rfl⟩
          · left
            rw [noneOpened recorded stackEq own, List.nil_append] at stackEq
            rw [noneOpened otherRecorded othersEq own, List.nil_append] at othersEq
            rw [← stackEq] at keeps
            rw [← othersEq] at otherKeeps
            have shared :=
              List.suffix_of_suffix_length_le keeps otherKeeps (Nat.le_of_eq sameLength)
            rw [shared.eq_of_length sameLength]

namespace Progress

variable {tolerance : Tolerance} {first second : Progress} {index : Nat} {base : List Frame}

/-- Scans that agree open braces in the same places. -/
theorem isSome_brace?_eq {context other : LineContext} (agrees : first.Agrees tolerance second)
    (same : context.Agrees tolerance other) (letter : Char) (next : Option Char) :
    (first.brace? context letter next).isSome = (second.brace? other letter next).isSome := by
  have stepped := (agrees.read same letter next).frames
  rw [brace?, brace?, agrees.frames.length_eq, stepped.length_eq]
  split
  case isFalse => rfl
  case isTrue =>
    rw [Option.isSome_map, Option.isSome_map]
    generalize (first.read context letter next).stack = opened at stepped
    generalize (second.read other letter next).stack = otherOpened at stepped
    cases stepped with
    | nil => rfl
    | cons same others =>
        cases same with
        | paren header => rfl
        | bracket => rfl
        | brace related line => rfl

theorem corresponds_of_brace? {previous other : List Char} {letter : Char} {next : Option Char}
    {brace changed : OpenedBrace} (agrees : first.Agrees .lineAbove second)
    (comes : Frame.ComesFrom index base first.stack)
    (otherComes : Frame.ComesFrom index base second.stack)
    (found : first.brace? ⟨index, previous⟩ letter next = some brace)
    (otherFound : second.brace? ⟨index, other⟩ letter next = some changed) :
    brace.Corresponds index changed := by
  obtain rfl := eq_of_brace? found
  obtain rfl := eq_of_brace? otherFound
  have codes : first.code = second.code := agrees.codes
  have reversed : first.reversed = second.reversed := List.reverse_injective codes
  refine ⟨codes, comes.head?_eq_or otherComes agrees.frames, ?_⟩
  rw [OpenedBrace.segment, code, List.reverse_reverse]
  intro nonempty
  have otherNonempty : Brace.segmentOf second.reversed ≠ [] := reversed ▸ nonempty
  dsimp only
  rw [Brace.judge_of_segment nonempty, Brace.judge_of_segment otherNonempty, ← reversed]
  exact Brace.kindAfter_eq_iff nonempty _ _

theorem corresponds_bracesOver (agrees : first.Agrees .lineAbove second)
    (comes : Frame.ComesFrom index base first.stack)
    (otherComes : Frame.ComesFrom index base second.stack) (previous other letters : List Char) :
    List.Forall₂ (OpenedBrace.Corresponds index) (first.bracesOver ⟨index, previous⟩ letters)
      (second.bracesOver ⟨index, other⟩ letters) := by
  have same : LineContext.Agrees .lineAbove ⟨index, previous⟩ ⟨index, other⟩ := ⟨rfl, trivial⟩
  induction letters generalizing first second with
  | nil => exact .nil
  | cons letter rest inductionHypothesis =>
      have below := inductionHypothesis (agrees.read same letter rest.head?)
        (comesFrom_read comes letter rest.head?) (comesFrom_read otherComes letter rest.head?)
      have together := isSome_brace?_eq agrees same letter rest.head?
      rw [bracesOver, bracesOver]
      cases found : first.brace? ⟨index, previous⟩ letter rest.head? with
      | none =>
          rw [found] at together
          rw [Option.isNone_iff_eq_none.mp (Option.isSome_eq_false_iff.mp together.symm)]
          exact below
      | some brace =>
          rw [found] at together
          obtain ⟨changed, otherFound⟩ := Option.isSome_iff_exists.mp together.symm
          rw [otherFound]
          exact .cons (corresponds_of_brace? agrees comes otherComes found otherFound) below

end Progress

namespace Scanner

/-- The braces that a line opens. -/
def bracesOn (scanner : Scanner) (index : Nat) (text : List Char) : List OpenedBrace :=
  scanner.begin.bracesOver ⟨index, scanner.previous⟩ text

/-- Whatever the code line above is, a line opens braces in the same places. A brace with code
between it and the last brace or semicolon before it on the line keeps its kind, unless that code is
a label and the brace lies in an object in one of the scans only; and then the line has opened the
brace around it too. -/
theorem bracesOn_previous (scanner : Scanner) (other : List Char) (index : Nat) (text : List Char) :
    List.Forall₂ (OpenedBrace.Corresponds index) (scanner.bracesOn index text)
      ({ scanner with previous := other }.bracesOn index text) := by
  have agrees : scanner.begin.Agrees .lineAbove { scanner with previous := other }.begin :=
    ⟨rfl, rfl, .refl (fun _ => trivial) scanner.stack, rfl⟩
  exact Progress.corresponds_bracesOver agrees (.refl index scanner.stack)
    (.refl index scanner.stack) scanner.previous other text

/-- Below a declaration or an alias, a brace at the start of a line passes its kind on to one behind
a label, and a brace behind a semicolon is judged by the line above as well. -/
theorem bracesOn_previous_changesKind :
    let scanner := ({} : Scanner).behind [(0, "const a =".toList)]
    let other := ({} : Scanner).behind [(0, "type A =".toList)]
    other = { scanner with previous := "type A =".toList } ∧ scanner.mode = .code ∧
      scanner.bracesOn 1 "\x7b b: \x7b".toList =
        [⟨[], none, .object⟩, ⟨"\x7b b: ".toList, some (.brace .object 1), .object⟩] ∧
      other.bracesOn 1 "\x7b b: \x7b".toList =
        [⟨[], none, .typeBody⟩, ⟨"\x7b b: ".toList, some (.brace .typeBody 1), .typeBody⟩] ∧
      scanner.bracesOn 1 "go(); \x7b".toList = [⟨"go(); ".toList, none, .object⟩] ∧
      other.bracesOn 1 "go(); \x7b".toList = [⟨"go(); ".toList, none, .typeBody⟩] := by
  intro scanner other
  refine ⟨?_, ?_, ?_, ?_, ?_, ?_⟩
  all_goals decide +kernel

end Scanner

end ScriptLint
