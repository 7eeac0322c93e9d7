import Mathlib.Data.List.Forall2
import ScriptLint.Proofs.Document.Coordinates
import ScriptLint.Proofs.Source.Stack
import ScriptLint.Proofs.Source.TrailingBlanks

/-!
# Reading a text across its lines

The scanner is fed lines, but what it does can be looked at as one pass over the whole text: a line
feed ends the line and begins the next one, and every other character is read on its line. The pass
gives a kind to each byte of the text, also to the line feeds, which have the kind of what goes on
behind them.

The main statement says that this pass and the scanned lines agree: a byte of a line lies in a
region of a kind exactly if the byte of the text at the same place is of the kind. A carriage return
at the end of a line may be left out, as documents do, because it leaves nothing behind.
-/

namespace ScriptLint

open Text

/-- The scanner behind a line, from the one at its start and the progress at its end. -/
def Scanner.behindLine (scanner : Scanner) (progress : Progress) : Scanner where
  mode := progress.within.leave
  stack := progress.stack
  last := progress.last
  previous :=
    if (trim progress.code).isEmpty || scanner.isInTemplate then scanner.previous
    else trim progress.code

/-- A place in a text that is read across its lines. -/
structure Reading where
  /-- The scanner at the start of the line. -/
  scanner : Scanner
  /-- The number of the line. -/
  index : Nat
  /-- The progress on the line. -/
  progress : Progress

/-- The place at the start of a line. -/
def Scanner.reading (scanner : Scanner) (index : Nat) : Reading := ⟨scanner, index, scanner.begin⟩

namespace Reading

variable {reading reached : Reading} {letter : Char} {next : Option Char} {front back : List Char}
  {kind : Option RegionKind}

def context (reading : Reading) : LineContext := ⟨reading.index, reading.scanner.previous⟩

/-- The scanner behind the line, if it ends here. -/
def leave (reading : Reading) : Scanner := reading.scanner.behindLine reading.progress

/-- The place behind characters of the line. -/
def along (reading : Reading) (letters : List Char) : Reading :=
  { reading with progress := reading.progress.readAll reading.context letters }

/-- Reads one character, with the character behind it. -/
def read (reading : Reading) (letter : Char) (next : Option Char) : Reading :=
  if letter = '\n' then reading.leave.reading (reading.index + 1)
  else { reading with progress := reading.progress.read reading.context letter next }

/-- The kind of the region that covers the next character. -/
def kindNext (reading : Reading) (letter : Char) (next : Option Char) : Option RegionKind :=
  if letter = '\n' then reading.progress.within.leave.enter.region?
  else reading.progress.kindNext letter next

/-- Reads the rest of a text. -/
def readAll : List Char → Reading → Reading
  | [], reading => reading
  | letter :: rest, reading => readAll rest (reading.read letter rest.head?)

/-- The kind of the region that covers each byte of the rest of a text. -/
def kindsOver : List Char → Reading → List (Option RegionKind)
  | [], _ => []
  | letter :: rest, reading =>
      List.replicate letter.utf8Size (reading.kindNext letter rest.head?) ++
        kindsOver rest (reading.read letter rest.head?)

theorem read_feed : reading.read '\n' next = reading.leave.reading (reading.index + 1) :=
  if_pos rfl

theorem read_of_ne (inLine : letter ≠ '\n') :
    reading.read letter next =
      { reading with progress := reading.progress.read reading.context letter next } :=
  if_neg inLine

theorem kindNext_of_ne (inLine : letter ≠ '\n') :
    reading.kindNext letter next = reading.progress.kindNext letter next := if_neg inLine

theorem within_read_feed :
    (reading.read '\n' next).progress.within = reading.progress.within.leave.enter := by
  rw [read_feed]
  rfl

theorem stack_read_feed : (reading.read '\n' next).progress.stack = reading.progress.stack := by
  rw [read_feed]
  rfl

theorem kindNext_feed :
    reading.kindNext '\n' next = reading.progress.within.leave.enter.region? := if_pos rfl

/-! ## Lines -/

theorem standsAlone_feed : Progress.StandsAlone (some '\n') :=
  Progress.standsAlone_some (by decide)

/-- The characters of one line are read by the progress on it. -/
theorem readAll_append (inLine : '\n' ∉ front) (alone : Progress.StandsAlone back.head?) :
    reading.readAll (front ++ back) = (reading.along front).readAll back := by
  induction front generalizing reading with
  | nil => rfl
  | cons letter rest inductionHypothesis =>
      rw [List.mem_cons, not_or] at inLine
      rw [List.cons_append, readAll, read_of_ne (Ne.symm inLine.1), inductionHypothesis inLine.2]
      cases rest with
      | nil =>
          rw [List.nil_append, Progress.read_eq_of_standsAlone alone]
          rfl
      | cons following others => rfl

theorem kindsOver_append (inLine : '\n' ∉ front) (alone : Progress.StandsAlone back.head?) :
    reading.kindsOver (front ++ back) =
      reading.progress.kindsOver reading.context front ++ (reading.along front).kindsOver back := by
  induction front generalizing reading with
  | nil => rfl
  | cons letter rest inductionHypothesis =>
      rw [List.mem_cons, not_or] at inLine
      rw [List.cons_append, kindsOver, read_of_ne (Ne.symm inLine.1),
        kindNext_of_ne (Ne.symm inLine.1), inductionHypothesis inLine.2, ← List.append_assoc]
      cases rest with
      | nil =>
          rw [List.nil_append, Progress.read_eq_of_standsAlone alone,
            Progress.kindNext_eq_of_standsAlone alone]
          rfl
      | cons following others => rfl

theorem readAll_line (inLine : '\n' ∉ front) : reading.readAll front = reading.along front := by
  have alone : Progress.StandsAlone ([] : List Char).head? := Progress.standsAlone_none
  have whole := @readAll_append reading _ _ inLine alone
  rwa [List.append_nil] at whole

theorem kindsOver_line (inLine : '\n' ∉ front) :
    reading.kindsOver front = reading.progress.kindsOver reading.context front := by
  have alone : Progress.StandsAlone ([] : List Char).head? := Progress.standsAlone_none
  have whole := @kindsOver_append reading _ _ inLine alone
  rwa [kindsOver, List.append_nil, List.append_nil] at whole

/-! ## Pieces of a text -/

/-- One kind for all bytes of some characters. -/
def filled (kind : Option RegionKind) (letters : List Char) : List (Option RegionKind) :=
  List.replicate (byteLength letters) kind

theorem filled_cons (kind : Option RegionKind) (letter : Char) (rest : List Char) :
    filled kind (letter :: rest) = List.replicate letter.utf8Size kind ++ filled kind rest := by
  rw [filled, byteLength_cons, List.replicate_add]
  rfl

theorem filled_append (kind : Option RegionKind) (front back : List Char) :
    filled kind (front ++ back) = filled kind front ++ filled kind back := by
  rw [filled, byteLength_append, List.replicate_add]
  rfl

/-- In front of the given rest of the text, characters have the given kinds and lead from one place
to another one. -/
structure Passes (reading : Reading) (front : List Char) (kinds : List (Option RegionKind))
    (rest : List Char) (reached : Reading) : Prop where
  readAll_eq : reading.readAll (front ++ rest) = reached.readAll rest
  kindsOver_eq : reading.kindsOver (front ++ rest) = kinds ++ reached.kindsOver rest

namespace Passes

variable {rest : List Char} {between : Reading} {kinds others : List (Option RegionKind)}

theorem nil : reading.Passes [] [] rest reading := ⟨rfl, rfl⟩

theorem cons (isKind : reading.kindNext letter (front ++ rest).head? = kind)
    (passes : (reading.read letter (front ++ rest).head?).Passes front kinds rest reached) :
    reading.Passes (letter :: front) (List.replicate letter.utf8Size kind ++ kinds) rest
      reached where
  readAll_eq := passes.readAll_eq
  kindsOver_eq := by
    rw [List.cons_append, kindsOver, isKind, passes.kindsOver_eq, List.append_assoc]

theorem append (first : reading.Passes front kinds (back ++ rest) between)
    (second : between.Passes back others rest reached) :
    reading.Passes (front ++ back) (kinds ++ others) rest reached where
  readAll_eq := by rw [List.append_assoc, first.readAll_eq, second.readAll_eq]
  kindsOver_eq := by
    rw [List.append_assoc, first.kindsOver_eq, second.kindsOver_eq, List.append_assoc]

/-- What one character of some characters preserves and says about its kind holds of all of them. -/
theorem exists_of_steps (holds : Reading → Prop)
    (steps : ∀ before letter after, front = before ++ letter :: after →
      ∀ reading : Reading, holds reading →
        reading.kindNext letter (after ++ rest).head? = kind ∧
          holds (reading.read letter (after ++ rest).head?))
    (start : holds reading) :
    ∃ reached, reading.Passes front (filled kind front) rest reached ∧ holds reached := by
  induction front generalizing reading with
  | nil => exact ⟨reading, nil, start⟩
  | cons letter others inductionHypothesis =>
      obtain ⟨isKind, next⟩ := steps [] letter others rfl reading start
      obtain ⟨reached, passes, final⟩ := inductionHypothesis
        (fun before found after shape => steps (letter :: before) found after (by rw [shape]; rfl))
        next
      refine ⟨reached, ?_, final⟩
      rw [filled_cons]
      exact passes.cons isKind

end Passes

end Reading

/-! ## Carriage returns at the end of a line -/

/-- A line is fed as written or without a carriage return at its end. -/
def IsFedAs (written fed : List Char) : Prop := written = fed ∨ written = fed ++ ['\r']

theorem isFedAs_dropReturn (line : List Char) : IsFedAs line (dropReturn line) := by
  unfold dropReturn
  split
  · next returns =>
      obtain ⟨front, shape⟩ := List.getLast?_eq_some_iff.mp returns
      right
      rw [shape, List.dropLast_concat]
  · exact Or.inl rfl

namespace IsFedAs

variable {written fed : List Char} (feeds : IsFedAs written fed) (scanner : Scanner) (index : Nat)

include feeds

theorem scanLine_snd : (scanner.scanLine index written).2 = (scanner.scanLine index fed).2 := by
  rcases feeds with rfl | rfl
  · rfl
  · exact scanner.scanLine_append_snd index fed (List.forall_mem_singleton.mpr (by decide))

theorem kindsOn_isPrefix : scanner.kindsOn index fed <+: scanner.kindsOn index written := by
  rcases feeds with rfl | rfl
  · exact List.prefix_rfl
  · have alone : Progress.StandsAlone ['\r'].head? := Progress.standsAlone_some (by decide)
    rw [Scanner.kindsOn, Scanner.kindsOn, Progress.kindsOver_append fed alone]
    exact List.prefix_append _ _

end IsFedAs

/-! ## Lines of a text -/

/-- Lines with their numbers, from a number on. -/
def numberedFrom (index : Nat) (lines : List (List Char)) : List (Nat × List Char) :=
  (lines.zipIdx index).map fun entry => (entry.2, entry.1)

theorem numberedFrom_cons (index : Nat) (line : List Char) (rest : List (List Char)) :
    numberedFrom index (line :: rest) = (index, line) :: numberedFrom (index + 1) rest := rfl

theorem Scanner.scanNumbered_cons (scanner : Scanner) (index : Nat) (line : List Char)
    (rest : List (List Char)) :
    scanner.scanNumbered (numberedFrom index (line :: rest)) =
      (scanner.scanLine index line).1 ::
        (scanner.scanLine index line).2.scanNumbered (numberedFrom (index + 1) rest) := rfl

theorem numberedFrom_append (index : Nat) (lines more : List (List Char)) :
    numberedFrom index (lines ++ more) =
      numberedFrom index lines ++ numberedFrom (index + lines.length) more := by
  rw [numberedFrom, List.zipIdx_append, List.map_append]
  rfl

theorem length_numberedFrom (index : Nat) (lines : List (List Char)) :
    (numberedFrom index lines).length = lines.length := by
  rw [numberedFrom, List.length_map, List.length_zipIdx]

theorem map_snd_numberedFrom (index : Nat) (lines : List (List Char)) :
    (numberedFrom index lines).map (·.2) = lines := by
  rw [numberedFrom, List.map_map]
  exact List.zipIdx_map_fst index lines

section Lines

variable {line : List Char} (inLine : '\n' ∉ line) (scanner : Scanner) (index : Nat)

include inLine

/-- The kinds of a text begin with those of its first line. -/
theorem kindsOn_isPrefix_joinWith (rest : List (List Char)) :
    scanner.kindsOn index line <+:
      (scanner.reading index).kindsOver (joinWith '\n' (line :: rest)) := by
  have alone : Progress.StandsAlone (rest.flatMap ('\n' :: ·)).head? := by
    cases rest with
    | nil => exact Progress.standsAlone_none
    | cons next others => exact Reading.standsAlone_feed
  rw [joinWith_cons, Reading.kindsOver_append inLine alone]
  exact List.prefix_append _ _

/-- Behind its first line a text has the kinds of the rest, which the scanner behind the line
reads. -/
theorem kindsOver_append_feed (rest : List Char) :
    ∃ feed, (scanner.reading index).kindsOver (line ++ '\n' :: rest) =
      scanner.kindsOn index line ++ feed ::
        ((scanner.scanLine index line).2.reading (index + 1)).kindsOver rest := by
  have alone : Progress.StandsAlone ('\n' :: rest).head? := Reading.standsAlone_feed
  rw [Reading.kindsOver_append inLine alone, Reading.kindsOver, Reading.read_feed]
  exact ⟨_, rfl⟩

end Lines

/-- If lines are fed as they are written, or without a carriage return at their end, a byte of a
scanned line lies in a region of a kind exactly if it is of the kind in the text. -/
theorem isIn_scanNumbered (scanner : Scanner) (index : Nat) {written fed : List (List Char)}
    (feeds : List.Forall₂ IsFedAs written fed) (inLine : ∀ line ∈ written, '\n' ∉ line)
    {place : Nat} {line : ScannedLine}
    (found : (scanner.scanNumbered (numberedFrom index fed))[place]? = some line) :
    ∃ start, (lineStarts (joinWith '\n' written))[place]? = some start ∧
      ∀ kind position, position < byteLength line.text →
        (line.isIn kind position = true ↔
          ((scanner.reading index).kindsOver (joinWith '\n' written))[start + position]? =
            some (some kind)) := by
  induction feeds generalizing scanner index place with
  | nil => cases found
  | @cons written fed others fedOthers feeds rest inductionHypothesis =>
      rw [List.forall_mem_cons] at inLine
      cases place with
      | zero =>
          obtain rfl : (scanner.scanLine index fed).1 = line := Option.some.inj found
          refine ⟨0, rfl, fun kind position inside => ?_⟩
          obtain ⟨later, kindsEq⟩ := (feeds.kindsOn_isPrefix scanner index).trans
            (kindsOn_isPrefix_joinWith inLine.1 scanner index others)
          have below : position < (scanner.kindsOn index fed).length := by
            rw [Scanner.kindsOn, Progress.length_kindsOver]
            exact inside
          rw [Scanner.isIn_scanLine, Nat.zero_add, ← kindsEq, List.getElem?_append_left below]
      | succ place =>
          -- a further line was found, so a line feed follows the first one
          have foundLater : ((scanner.scanLine index written).2.scanNumbered
              (numberedFrom (index + 1) fedOthers))[place]? = some line := by
            rw [feeds.scanLine_snd scanner index]
            exact found
          obtain ⟨start, startEq, kinds⟩ := inductionHypothesis _ _ inLine.2 foundLater
          cases others with
          | nil =>
              cases rest
              cases found
          | cons next others =>
              obtain ⟨feed, kindsEq⟩ :=
                kindsOver_append_feed inLine.1 scanner index (joinWith '\n' (next :: others))
              refine ⟨byteLength written + 1 + start, ?_, fun kind position inside => ?_⟩
              · rw [joinWith, lineStarts_append_feed inLine.1, List.getElem?_cons_succ,
                  List.getElem?_map, startEq, Option.map_some]
              · have length : (scanner.kindsOn index written).length = byteLength written := by
                  rw [Scanner.kindsOn, Progress.length_kindsOver]
                rw [kinds kind position inside, joinWith, kindsEq,
                  List.getElem?_append_right (by omega), length,
                  show byteLength written + 1 + start + position - byteLength written =
                    start + position + 1 by omega, List.getElem?_cons_succ]

/-- The scanner behind lines is the one behind the text that they are the lines of. -/
theorem behind_numberedFrom (scanner : Scanner) (index : Nat) {lines : List (List Char)}
    (nonempty : lines ≠ []) (inLine : ∀ line ∈ lines, '\n' ∉ line) :
    scanner.behind (numberedFrom index lines) =
      ((scanner.reading index).readAll (joinWith '\n' lines)).leave := by
  induction lines generalizing scanner index with
  | nil => exact absurd rfl nonempty
  | cons line rest inductionHypothesis =>
      rw [List.forall_mem_cons] at inLine
      rw [numberedFrom_cons]
      cases rest with
      | nil =>
          rw [joinWith, Reading.readAll_line inLine.1]
          rfl
      | cons next others =>
          have alone : Progress.StandsAlone ('\n' :: joinWith '\n' (next :: others)).head? :=
            Reading.standsAlone_feed
          rw [joinWith, Reading.readAll_append inLine.1 alone, Reading.readAll, Reading.read_feed]
          exact inductionHypothesis _ _ (List.cons_ne_nil next others) inLine.2

/-- A byte of a line of a document lies in a region of a kind exactly if it is of the kind in the
text. -/
theorem Document.isIn_scan {document : Document} {index : Nat} {line : ScannedLine}
    (found : document.scan[index]? = some line) :
    ∃ start, (lineStarts document.text)[index]? = some start ∧
      ∀ kind position, position < byteLength line.text →
        (line.isIn kind position = true ↔
          ((({} : Scanner).reading 0).kindsOver document.text)[start + position]? =
            some (some kind)) := by
  have feeds : ∀ lines : List (List Char), List.Forall₂ IsFedAs lines (lines.map dropReturn) := by
    intro lines
    rw [List.forall₂_map_right_iff]
    exact List.forall₂_same.mpr fun line _ => isFedAs_dropReturn line
  have scanEq : document.scan = ({} : Scanner).scanNumbered (numberedFrom 0 document.lines) := rfl
  rw [scanEq, lines] at found
  by_cases empty : document.text.isEmpty = true
  · rw [if_pos empty] at found
    cases found
  · rw [if_neg empty] at found
    have kinds := isIn_scanNumbered {} 0 (feeds (splitOn '\n' document.text))
      (fun line member => not_mem_of_mem_splitOn member) found
    rwa [joinWith_splitOn] at kinds

end ScriptLint
