import ScriptLint.Proofs.Source.Plain
import ScriptLint.Proofs.Source.Reading

/-!
# Comments of a document

A document whose code has no quote, backtick or slash falls into pieces: code, line comments up to
their line feed, and block comments up to the first end marker, which may stand on a later line. The
text of a comment is arbitrary. A last comment need not be closed.

Each piece is read from code to code, whatever follows it, and the bytes of a comment are of the
kind of comments. The main statement carries this over to the scanned lines of the document.
-/

namespace ScriptLint

open Text

/-- A piece of a document behind which code follows. -/
inductive Piece where
  | code (letters : List Char)
      (plain : ∀ letter ∈ letters, letter ≠ '\n' → isPlain letter = true)
  /-- A comment up to the line feed at its end. -/
  | lineComment (text : List Char) (inLine : '\n' ∉ text)
  /-- A comment up to the first end marker behind its opening. -/
  | blockComment (text : List Char) (first : ¬ ['*', '/'] <:+: text ++ ['*'])

/-- What a document ends in. -/
inductive Ending where
  | none
  | lineComment (text : List Char) (inLine : '\n' ∉ text)
  | blockComment (text : List Char) (unclosed : ¬ ['*', '/'] <:+: text)

/-- A part of a document, which is a comment or not. -/
structure Part where
  letters : List Char
  isComment : Bool

/-- The kind of each byte of a part. -/
def Part.kinds (part : Part) : List (Option RegionKind) :=
  Reading.filled (if part.isComment then some .comment else none) part.letters

def Piece.parts : Piece → List Part
  | code letters _ => [⟨letters, false⟩]
  | lineComment text _ => [⟨'/' :: '/' :: text, true⟩, ⟨['\n'], false⟩]
  | blockComment text _ => [⟨'/' :: '*' :: text ++ ['*', '/'], true⟩]

def Ending.parts : Ending → List Part
  | none => []
  | lineComment text _ => [⟨'/' :: '/' :: text, true⟩]
  | blockComment text _ => [⟨'/' :: '*' :: text, true⟩]

/-- A document as a sequence of pieces. -/
structure Source where
  pieces : List Piece
  ending : Ending

namespace Source

def parts (source : Source) : List Part := source.pieces.flatMap Piece.parts ++ source.ending.parts

def text (source : Source) : List Char := source.parts.flatMap Part.letters

def document (source : Source) : Document := ⟨source.text⟩

/-- A byte position of the text belongs to a comment, whose delimiters are part of it. -/
def IsComment (source : Source) (position : Nat) : Prop :=
  ∃ earlier part later, source.parts = earlier ++ part :: later ∧ part.isComment = true ∧
    byteLength (earlier.flatMap Part.letters) ≤ position ∧
      position < byteLength (earlier.flatMap Part.letters) + byteLength part.letters

end Source

/-! ## Pieces -/

namespace Progress

variable {progress : Progress} {context : LineContext} {letter : Char} {next : Option Char}

theorem IsInCode.kindNext_of_isPlain (inCode : progress.IsInCode) (plain : isPlain letter = true) :
    progress.kindNext letter next = none := by
  obtain ⟨noSlash, _, _, noBacktick, _⟩ := ne_of_isPlain plain
  have noComment : opensComment letter next = false := by
    simp [opensComment, noSlash]
  rcases inCode with within | within
  · simp only [kindNext, within, noComment, Bool.false_eq_true, if_false, if_neg noBacktick]
  · simp only [kindNext, within, noComment, Bool.false_eq_true, if_false, if_neg noBacktick]

/-- A slash in code opens a comment together with what follows it. -/
theorem IsInCode.read_opening (inCode : progress.IsInCode) (context : LineContext)
    (opens : opensComment letter next = true) :
    progress.kindNext letter next = some .comment ∧
      (progress.read context letter next).within =
        if next = some '/' then .lineComment else .blockOpening := by
  have opened : progress.readCode context letter next =
      ((progress.openRegion .comment).hide letter).goOn
        (if next = some '/' then .lineComment else .blockOpening) :=
    readCode_of_opensComment opens
  rcases inCode with within | within
  · simp only [kindNext, Progress.read, within, opens, opened, if_true]
    exact ⟨trivial, rfl⟩
  · simp only [kindNext, Progress.read, within, opens, opened, if_true]
    exact ⟨trivial, rfl⟩

end Progress

namespace Reading

variable {reading : Reading} {letters text : List Char} (rest : List Char)

theorem exists_passes_code (inCode : reading.progress.IsInCode)
    (plain : ∀ letter ∈ letters, letter ≠ '\n' → isPlain letter = true) :
    ∃ reached, reading.Passes letters (filled none letters) rest reached ∧
      reached.progress.IsInCode := by
  refine Passes.exists_of_steps (fun reading => reading.progress.IsInCode) ?_ inCode
  intro before letter after shape reading inCode
  by_cases feed : letter = '\n'
  · have begins : reading.progress.within.leave.enter = .plain := by
      rcases inCode with within | within
      · rw [within]
        rfl
      · rw [within]
        rfl
    rw [feed, kindNext_feed, begins]
    exact ⟨rfl, Or.inl (within_read_feed.trans begins)⟩
  · have isPlainLetter :=
      plain letter (shape ▸ List.mem_append_right before List.mem_cons_self) feed
    rw [kindNext_of_ne feed, read_of_ne feed, inCode.read_eq isPlainLetter]
    exact ⟨inCode.kindNext_of_isPlain isPlainLetter, .readCode isPlainLetter⟩

theorem exists_passes_lineComment (within : reading.progress.within = .lineComment)
    (inLine : '\n' ∉ text) :
    ∃ reached, reading.Passes text (filled (some .comment) text) rest reached ∧
      reached.progress.within = .lineComment := by
  refine Passes.exists_of_steps (fun reading => reading.progress.within = .lineComment) ?_ within
  intro before letter after shape reading within
  have noFeed : letter ≠ '\n' := by
    rintro rfl
    exact inLine (shape ▸ List.mem_append_right before List.mem_cons_self)
  rw [kindNext_of_ne noFeed, read_of_ne noFeed, Progress.kindNext, Progress.read, within]
  exact ⟨rfl, within⟩

/-- The text of a block comment is passed unless its end marker begins within it. -/
theorem exists_passes_blockComment (within : reading.progress.within = .blockComment)
    (unclosed : ¬ ['*', '/'] <:+: text ++ rest.head?.toList) :
    ∃ reached, reading.Passes text (filled (some .comment) text) rest reached ∧
      reached.progress.within = .blockComment := by
  refine Passes.exists_of_steps (fun reading => reading.progress.within = .blockComment) ?_ within
  intro before letter after shape reading within
  by_cases feed : letter = '\n'
  · rw [feed, kindNext_feed, within, within_read_feed, within]
    exact ⟨rfl, rfl⟩
  · have noEnd : (letter == '*' && (after ++ rest).head? == some '/') = false := by
      by_contra ends
      rw [Bool.not_eq_false, Bool.and_eq_true, beq_iff_eq, beq_iff_eq] at ends
      apply unclosed
      rw [shape, ends.1]
      cases after with
      | nil =>
          rw [show rest.head? = some '/' from ends.2]
          exact ⟨before, [], by simp⟩
      | cons following others =>
          obtain rfl : following = '/' := Option.some.inj ends.2
          exact ⟨before, others ++ rest.head?.toList, by simp⟩
    rw [kindNext_of_ne feed, read_of_ne feed, Progress.kindNext, Progress.read, within]
    dsimp only
    rw [noEnd, if_neg Bool.false_ne_true]
    exact ⟨rfl, within⟩

/-- Two characters of one kind. -/
theorem passes_pair {first second : Char} {kind : Option RegionKind}
    (firstKind : reading.kindNext first (some second) = kind)
    (secondKind : (reading.read first (some second)).kindNext second rest.head? = kind) :
    reading.Passes [first, second] (filled kind [first, second]) rest
      ((reading.read first (some second)).read second rest.head?) := by
  have passes : reading.Passes [first, second] _ rest _ := .cons firstKind (.cons secondKind .nil)
  rw [filled_cons, filled_cons]
  exact passes

theorem exists_passes_lineOpening (inCode : reading.progress.IsInCode) :
    ∃ reached, reading.Passes ['/', '/'] (filled (some .comment) ['/', '/']) rest reached ∧
      reached.progress.within = .lineComment := by
  obtain ⟨isComment, opened⟩ :=
    inCode.read_opening reading.context (show Progress.opensComment '/' (some '/') = true from rfl)
  have opened : (reading.read '/' (some '/')).progress.within = .lineComment := opened
  refine ⟨_, passes_pair rest isComment ?_, ?_⟩
  · rw [kindNext_of_ne (by decide), Progress.kindNext, opened]
    rfl
  · rw [read_of_ne (by decide), Progress.read, opened]
    exact opened

theorem exists_passes_blockOpening (inCode : reading.progress.IsInCode) :
    ∃ reached, reading.Passes ['/', '*'] (filled (some .comment) ['/', '*']) rest reached ∧
      reached.progress.within = .blockComment := by
  obtain ⟨isComment, opened⟩ :=
    inCode.read_opening reading.context (show Progress.opensComment '/' (some '*') = true from rfl)
  have opened : (reading.read '/' (some '*')).progress.within = .blockOpening := opened
  refine ⟨_, passes_pair rest isComment ?_, ?_⟩
  · rw [kindNext_of_ne (by decide), Progress.kindNext, opened]
    rfl
  · rw [read_of_ne (by decide), Progress.read, opened]
    rfl

theorem exists_passes_blockEnd (within : reading.progress.within = .blockComment) :
    ∃ reached, reading.Passes ['*', '/'] (filled (some .comment) ['*', '/']) rest reached ∧
      reached.progress.IsInCode := by
  have ends : (reading.read '*' (some '/')).progress.within = .blockClosing := by
    rw [read_of_ne (by decide), Progress.read, within]
    rfl
  refine ⟨_, passes_pair rest ?_ ?_, Or.inl ?_⟩
  · rw [kindNext_of_ne (by decide), Progress.kindNext, within]
    rfl
  · rw [kindNext_of_ne (by decide), Progress.kindNext, ends]
    rfl
  · rw [read_of_ne (by decide), Progress.read, ends]
    rfl

/-- A line comment leads from code to the end of its line. -/
theorem exists_passes_line (inCode : reading.progress.IsInCode) (inLine : '\n' ∉ text) :
    ∃ reached, reading.Passes ('/' :: '/' :: text) (filled (some .comment) ('/' :: '/' :: text))
        rest reached ∧ reached.progress.within = .lineComment := by
  obtain ⟨opened, opening, within⟩ := exists_passes_lineOpening (text ++ rest) inCode
  obtain ⟨reached, passes, final⟩ := exists_passes_lineComment rest within inLine
  refine ⟨reached, ?_, final⟩
  rw [show '/' :: '/' :: text = ['/', '/'] ++ text from rfl, filled_append]
  exact opening.append passes

/-- The opening and the text of a block comment. -/
theorem exists_passes_block (inCode : reading.progress.IsInCode)
    (unclosed : ¬ ['*', '/'] <:+: text ++ rest.head?.toList) :
    ∃ reached, reading.Passes ('/' :: '*' :: text) (filled (some .comment) ('/' :: '*' :: text))
        rest reached ∧ reached.progress.within = .blockComment := by
  obtain ⟨opened, opening, within⟩ := exists_passes_blockOpening (text ++ rest) inCode
  obtain ⟨reached, passes, final⟩ := exists_passes_blockComment rest within unclosed
  refine ⟨reached, ?_, final⟩
  rw [show '/' :: '*' :: text = ['/', '*'] ++ text from rfl, filled_append]
  exact opening.append passes

end Reading

/-- A piece leads from code to code, whatever follows it. -/
theorem Piece.exists_passes (piece : Piece) {reading : Reading}
    (inCode : reading.progress.IsInCode) (rest : List Char) :
    ∃ reached, reading.Passes (piece.parts.flatMap Part.letters) (piece.parts.flatMap Part.kinds)
        rest reached ∧ reached.progress.IsInCode := by
  cases piece with
  | code letters plain =>
      rw [parts, List.flatMap_singleton, List.flatMap_singleton]
      exact Reading.exists_passes_code rest inCode plain
  | lineComment text inLine =>
      obtain ⟨atEnd, comment, within⟩ := Reading.exists_passes_line ('\n' :: rest) inCode inLine
      have feed : atEnd.Passes ['\n'] (Reading.filled none ['\n']) rest
          (atEnd.read '\n' rest.head?) := by
        refine .cons ?_ .nil
        rw [Reading.kindNext_feed, within]
        rfl
      have begins : (atEnd.read '\n' rest.head?).progress.within = .plain := by
        rw [Reading.within_read_feed, within]
        rfl
      simp only [parts, List.flatMap_cons, List.flatMap_nil, List.append_nil]
      exact ⟨_, comment.append feed, Or.inl begins⟩
  | blockComment text first =>
      obtain ⟨atEnd, comment, within⟩ :=
        Reading.exists_passes_block (['*', '/'] ++ rest) inCode first
      obtain ⟨reached, ending, final⟩ := Reading.exists_passes_blockEnd rest within
      refine ⟨reached, ?_, final⟩
      rw [parts, List.flatMap_singleton, List.flatMap_singleton, Part.kinds, if_pos rfl,
        Reading.filled_append]
      exact comment.append ending

theorem Ending.exists_passes (ending : Ending) {reading : Reading}
    (inCode : reading.progress.IsInCode) :
    ∃ reached, reading.Passes (ending.parts.flatMap Part.letters) (ending.parts.flatMap Part.kinds)
      [] reached := by
  cases ending with
  | none => exact ⟨reading, .nil⟩
  | lineComment text inLine =>
      obtain ⟨reached, comment, _⟩ := Reading.exists_passes_line [] inCode inLine
      rw [parts, List.flatMap_singleton, List.flatMap_singleton]
      exact ⟨reached, comment⟩
  | blockComment text unclosed =>
      have stays : ¬ ['*', '/'] <:+: text ++ ([] : List Char).head?.toList := by
        rwa [List.head?_nil, Option.toList_none, List.append_nil]
      obtain ⟨reached, comment, _⟩ := Reading.exists_passes_block [] inCode stays
      rw [parts, List.flatMap_singleton, List.flatMap_singleton]
      exact ⟨reached, comment⟩

theorem Piece.exists_passes_flatMap (pieces : List Piece) {reading : Reading}
    (inCode : reading.progress.IsInCode) (rest : List Char) :
    ∃ reached, reading.Passes ((pieces.flatMap parts).flatMap Part.letters)
        ((pieces.flatMap parts).flatMap Part.kinds) rest reached ∧ reached.progress.IsInCode := by
  induction pieces generalizing reading with
  | nil => exact ⟨reading, .nil, inCode⟩
  | cons piece others inductionHypothesis =>
      obtain ⟨between, first, betweenInCode⟩ :=
        piece.exists_passes inCode ((others.flatMap parts).flatMap Part.letters ++ rest)
      obtain ⟨reached, later, final⟩ := inductionHypothesis betweenInCode
      rw [List.flatMap_cons, List.flatMap_append, List.flatMap_append]
      exact ⟨reached, first.append later, final⟩

namespace Source

/-- The bytes of a document are of the kind of its parts. -/
theorem kindsOver_text (source : Source) :
    (({} : Scanner).reading 0).kindsOver source.text = source.parts.flatMap Part.kinds := by
  have inCode : (({} : Scanner).reading 0).progress.IsInCode := Or.inl rfl
  obtain ⟨between, pieces, betweenInCode⟩ := Piece.exists_passes_flatMap source.pieces inCode
    (source.ending.parts.flatMap Part.letters ++ [])
  obtain ⟨reached, ending⟩ := source.ending.exists_passes betweenInCode
  have whole := (pieces.append ending).kindsOver_eq
  rwa [List.append_nil, ← List.flatMap_append, ← List.flatMap_append, Reading.kindsOver,
    List.append_nil] at whole

theorem getElem?_kinds {parts : List Part} {position : Nat} :
    (parts.flatMap Part.kinds)[position]? = some (some .comment) ↔
      ∃ earlier part later, parts = earlier ++ part :: later ∧ part.isComment = true ∧
        byteLength (earlier.flatMap Part.letters) ≤ position ∧
          position < byteLength (earlier.flatMap Part.letters) + byteLength part.letters := by
  induction parts generalizing position with
  | nil => simp
  | cons part rest inductionHypothesis =>
      rw [List.flatMap_cons, Part.kinds, Reading.filled, Progress.getElem?_replicate_append]
      constructor
      · rintro (⟨isComment, inside⟩ | ⟨further, positionEq, found⟩)
        · refine ⟨[], part, rest, rfl, ?_, Nat.zero_le _, ?_⟩
          · by_contra noComment
            rw [if_neg noComment] at isComment
            cases isComment
          · rw [List.flatMap_nil, byteLength_nil, Nat.zero_add]
            exact inside
        · obtain ⟨earlier, here, later, shape, isComment, above, below⟩ :=
            inductionHypothesis.mp found
          refine ⟨part :: earlier, here, later, by rw [shape]; rfl, isComment, ?_⟩
          rw [List.flatMap_cons, byteLength_append]
          omega
      · rintro ⟨earlier, here, later, shape, isComment, above, below⟩
        cases earlier with
        | nil =>
            obtain ⟨rfl, rfl⟩ := List.cons.inj shape
            rw [List.flatMap_nil, byteLength_nil, Nat.zero_add] at below
            exact Or.inl ⟨if_pos isComment, below⟩
        | cons first others =>
            obtain ⟨rfl, restEq⟩ := List.cons.inj shape
            rw [List.flatMap_cons, byteLength_append] at above below
            refine Or.inr ⟨position - byteLength part.letters, by omega, ?_⟩
            apply inductionHypothesis.mpr
            exact ⟨others, here, later, restEq, isComment, by omega, by omega⟩

end Source

/-- Scanning a document that consists of code without quotes, backticks and slashes and of comments
gives its lines, and a byte of a line lies in a comment exactly if the byte of the text at the same
place belongs to one. -/
theorem scan_comments (source : Source) :
    source.document.scan.map (·.text) = source.document.lines ∧
    ∀ (index : Nat) (line : ScannedLine), source.document.scan[index]? = some line →
      ∃ start, (lineStarts source.text)[index]? = some start ∧
        ∀ position < byteLength line.text,
          (line.isInComment position = true ↔ source.IsComment (start + position)) := by
  refine ⟨Document.map_text_scan _, fun index line found => ?_⟩
  obtain ⟨start, startEq, kinds⟩ := Document.isIn_scan found
  refine ⟨start, startEq, fun position inside => ?_⟩
  rw [ScannedLine.isInComment, kinds .comment position inside,
    show source.document.text = source.text from rfl, source.kindsOver_text]
  exact Source.getElem?_kinds

end ScriptLint
