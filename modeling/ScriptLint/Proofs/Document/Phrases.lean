import ScriptLint.Proofs.Document.Rows
import ScriptLint.Proofs.Source.Head

/-!
# Phrases

A phrase is the code of a row. Phrases are put together from names and marks, and what they do to
the stack follows from how they are put together: what opens and closes nothing leaves it alone, a
mark that closes takes the innermost delimiter off, and a brace opens what its head says.
-/

namespace ScriptLint

open Text

/-- A word of ASCII letters that is none of the reserved ones. -/
structure Name (reserved : List String) where
  letters : List Char
  nonempty : letters ≠ []
  alphabetic : ∀ letter ∈ letters, letter.isAlpha = true
  free : ∀ word ∈ reserved, letters ≠ word.toList

def Blank.none : Blank := ⟨[], List.forall_mem_nil _⟩

def Blank.space : Blank := ⟨[' '], List.forall_mem_singleton.mpr ⟨rfl, by decide⟩⟩

/-- Code of a row that is not empty. -/
structure Phrase extends Body where
  nonempty : letters ≠ []

/-- A mark of the language. -/
inductive Mark where
  | comma
  | semicolon
  | colon
  | equals
  | openParen
  | closeParen
  | openBrace
  | closeBrace

def Mark.letter : Mark → Char
  | comma => ','
  | semicolon => ';'
  | colon => ':'
  | equals => '='
  | openParen => '('
  | closeParen => ')'
  | openBrace => '\x7b'
  | closeBrace => '\x7d'

theorem Mark.isPlain_letter (mark : Mark) : isPlain mark.letter = true := by
  cases mark <;> rfl

theorem Mark.isSpace_letter (mark : Mark) : isSpace mark.letter = false := by
  cases mark <;> rfl

namespace Text

variable {test : Char → Bool} {front : List Char}

theorem endsClass_append (nonempty : front ≠ []) (ends : EndsClass test front) (back : List Char) :
    EndsClass test (front ++ back) := by
  rw [EndsClass, List.head?_append_of_ne_nil front nonempty]
  exact ends

theorem endsClass_of_forall {other : Char → Bool}
    (apart : ∀ letter, other letter = true → test letter = false)
    (inside : ∀ letter ∈ front, other letter = true) : EndsClass test front := by
  cases front with
  | nil => exact endsClass_nil
  | cons letter rest => exact endsClass_cons (apart letter (inside letter List.mem_cons_self)) rest

end Text

namespace Phrase

def word (letters : List Char) (nonempty : letters ≠ [])
    (alphabetic : ∀ letter ∈ letters, letter.isAlpha = true) : Phrase where
  letters := letters
  plain letter member := isPlain_of_isInert (isInert_of_isAlpha (alphabetic letter member))
  starts := endsClass_of_forall (fun _ => isSpace_of_isAlpha) alphabetic
  ends := endsClass_of_forall (fun _ => isSpace_of_isAlpha) fun letter member =>
    alphabetic letter (List.mem_reverse.mp member)
  nonempty := nonempty

def keyword (word : String)
    (spelled : word.toList ≠ [] ∧ word.toList.all Char.isAlpha = true) : Phrase :=
  .word word.toList spelled.1 (List.all_eq_true.mp spelled.2)

def ofMark (mark : Mark) : Phrase where
  letters := [mark.letter]
  plain := List.forall_mem_singleton.mpr mark.isPlain_letter
  starts := endsClass_cons mark.isSpace_letter []
  ends := endsClass_cons mark.isSpace_letter []
  nonempty := List.cons_ne_nil mark.letter []

/-- Two phrases with a blank between them. -/
def join (front : Phrase) (between : Blank) (back : Phrase) : Phrase where
  letters := front.letters ++ between.letters ++ back.letters
  plain := by
    simp only [List.forall_mem_append]
    have blankPlain := fun letter member => isPlain_of_isInert (between.isInert letter member)
    exact ⟨⟨front.plain, blankPlain⟩, back.plain⟩
  starts := by
    rw [List.append_assoc]
    exact endsClass_append front.nonempty front.starts _
  ends := by
    rw [List.reverse_append]
    exact endsClass_append (by simpa using back.nonempty) back.ends _
  nonempty := List.append_ne_nil_of_right_ne_nil _ back.nonempty

/-- The phrase and a mark behind it. -/
def withMark (front : Phrase) (mark : Mark) : Phrase := front.join .none (.ofMark mark)

/-- The phrase with a mark at its end if it is chosen. -/
def ended (front : Phrase) (mark : Mark) (chosen : Bool) : Phrase :=
  if chosen then front.withMark mark else front

/-- The phrase, a blank and another phrase in parentheses. -/
def enclosing (front : Phrase) (between : Blank) (inner : Phrase) : Phrase :=
  ((front.join between (.ofMark .openParen)).join .none inner).withMark .closeParen

/-- The phrase as the head of a brace. -/
def braced (head : Phrase) : Phrase := head.join .space (.ofMark .openBrace)

theorem letters_withMark (front : Phrase) (mark : Mark) :
    (front.withMark mark).letters = front.letters ++ [mark.letter] := by
  simp [withMark, join, ofMark, Blank.none]

theorem letters_ended (front : Phrase) (mark : Mark) (chosen : Bool) :
    (front.ended mark chosen).letters =
      front.letters ++ if chosen then [mark.letter] else [] := by
  cases chosen with
  | false => exact (List.append_nil _).symm
  | true => exact front.letters_withMark mark

theorem letters_enclosing (front : Phrase) (between : Blank) (inner : Phrase) :
    (front.enclosing between inner).letters =
      front.letters ++ between.letters ++ ['('] ++ inner.letters ++ [')'] := by
  rw [enclosing, letters_withMark]
  simp [join, ofMark, Mark.letter, Blank.none]

section Ends

variable {front back head inner : Phrase} {mark : Mark} {between : Blank}

@[simp]
theorem head?_join : (front.join between back).letters.head? = front.letters.head? := by
  change (front.letters ++ between.letters ++ back.letters).head? = _
  rw [List.append_assoc, List.head?_append_of_ne_nil _ front.nonempty]

@[simp]
theorem getLast?_join : (front.join between back).letters.getLast? = back.letters.getLast? :=
  List.getLast?_append_of_ne_nil _ back.nonempty

@[simp]
theorem head?_withMark : (front.withMark mark).letters.head? = front.letters.head? :=
  head?_join

@[simp]
theorem head?_ended (chosen : Bool) :
    (front.ended mark chosen).letters.head? = front.letters.head? := by
  cases chosen with
  | false => rfl
  | true => exact head?_withMark

@[simp]
theorem head?_enclosing :
    (front.enclosing between inner).letters.head? = front.letters.head? := by
  rw [enclosing, head?_withMark, head?_join, head?_join]

@[simp]
theorem head?_braced : head.braced.letters.head? = head.letters.head? := head?_join

end Ends

section Moves

variable {front inner : Phrase} {mark : Mark} {index : Nat} {start stop : List Frame}

theorem moves_of_isInert (inert : ∀ letter ∈ front.letters, isInert letter = true)
    (stack : List Frame) : front.Moves index stack stack := by
  intro scanner indent isAt
  rw [Progress.skim_append, Progress.stack_skim_of_isInert inert,
    Progress.stack_skim_of_isInert indent.isInert]
  exact isAt.stack_eq

theorem moves_word {letters : List Char} (nonempty : letters ≠ [])
    (alphabetic : ∀ letter ∈ letters, letter.isAlpha = true) (stack : List Frame) :
    (word letters nonempty alphabetic).Moves index stack stack :=
  moves_of_isInert (fun letter member => isInert_of_isAlpha (alphabetic letter member)) stack

theorem moves_join (moves : front.Moves index start stop) (between : Blank)
    (inert : ∀ letter ∈ inner.letters, isInert letter = true) :
    (front.join between inner).Moves index start stop := by
  intro scanner indent isAt
  have lettersEq : indent.letters ++ (front.join between inner).letters =
      indent.letters ++ front.letters ++ (between.letters ++ inner.letters) := by simp [join]
  have inertBack : ∀ letter ∈ between.letters ++ inner.letters, isInert letter = true :=
    List.forall_mem_append.mpr ⟨between.isInert, inert⟩
  rw [lettersEq, Progress.skim_append, Progress.stack_skim_of_isInert inertBack]
  exact moves scanner indent isAt

theorem moves_withMark (moves : front.Moves index start stop) (inert : isInert mark.letter = true) :
    (front.withMark mark).Moves index start stop := by
  have inertMark : ∀ letter ∈ (ofMark mark).letters, isInert letter = true :=
    List.forall_mem_singleton.mpr inert
  exact moves_join moves .none inertMark

theorem moves_ended (moves : front.Moves index start stop) (inert : isInert mark.letter = true)
    (chosen : Bool) : (front.ended mark chosen).Moves index start stop := by
  cases chosen with
  | false => exact moves
  | true => exact moves_withMark moves inert

/-- A mark that closes takes the innermost delimiter off. -/
theorem moves_closing (closes : mark.letter = ')' ∨ mark.letter = '\x7d') (frame : Frame)
    (stack : List Frame) : (ofMark mark).Moves index (frame :: stack) stack := by
  intro scanner indent isAt
  rw [ofMark, Progress.skim_append, Progress.stack_skim_closing closes,
    Progress.stack_skim_of_isInert indent.isInert]
  exact congrArg List.tail isAt.stack_eq

/-- What parentheses around inert code open they close again. -/
theorem moves_enclosing (moves : front.Moves index start stop) (between : Blank)
    (inert : ∀ letter ∈ inner.letters, isInert letter = true) :
    (front.enclosing between inner).Moves index start stop := by
  intro scanner indent isAt
  have lettersEq : indent.letters ++ (front.enclosing between inner).letters =
      indent.letters ++ front.letters ++ between.letters ++ ['('] ++ inner.letters ++ [')'] := by
    simp [letters_enclosing]
  rw [lettersEq, Progress.skim_append, Progress.stack_skim_closing (Or.inl rfl),
    Progress.skim_append, Progress.stack_skim_of_isInert inert, Progress.skim_append,
    Progress.stack_skim_paren, List.tail_cons, Progress.skim_append,
    Progress.stack_skim_of_isInert between.isInert]
  exact moves scanner indent isAt

/-- Behind a word that is none of a header a parenthesis opens an expression. -/
theorem moves_opening {letters : List Char} (nonempty : letters ≠ [])
    (alphabetic : ∀ letter ∈ letters, letter.isAlpha = true)
    (noHeader : ∀ header ∈ headerWords, letters ≠ header.toList) (stack : List Frame) :
    ((word letters nonempty alphabetic).withMark .openParen).Moves index stack
      (.paren false :: stack) := by
  intro scanner indent isAt
  have moves := @moves_word index _ nonempty alphabetic stack scanner indent isAt
  have lettersEq :
      indent.letters ++ ((word letters nonempty alphabetic).withMark .openParen).letters =
        indent.letters ++ letters ++ ['('] := by
    simp [letters_withMark, Mark.letter, word]
  have plain : (scanner.begin.skim ⟨index, scanner.previous⟩ indent.letters).within = .plain := by
    refine Progress.within_skim_of_isSpace ?_ indent.spaced
    rw [Scanner.begin, isAt.mode_eq]
    rfl
  have lastEq : (scanner.begin.skim ⟨index, scanner.previous⟩ (indent.letters ++ letters)).last =
      .word letters := by
    rw [Progress.skim_append]
    exact (Progress.last_skim_of_isAlpha plain nonempty alphabetic).1
  have notHeader : (Token.word letters).isOneOf headerWords = false := by
    rw [Token.isOneOf, List.any_eq_false]
    intro header member
    rw [beq_iff_eq]
    exact (noHeader header member).symm
  rw [lettersEq, Progress.skim_append, Progress.stack_skim_paren, lastEq, notHeader]
  exact congrArg (Frame.paren false :: ·) moves

/-- A brace opens what its head says. -/
theorem moves_braced {head : Phrase} (moves : head.Moves index start start)
    (inside : ∀ letter ∈ head.letters, Brace.endsSegment letter = false) :
    head.braced.Moves index start
      (.brace (Brace.kindAfter head.letters start.head?) index :: start) := by
  intro scanner indent isAt
  have lettersEq : indent.letters ++ head.braced.letters =
      indent.letters ++ head.letters ++ [' '] ++ ['\x7b'] := by
    simp [braced, join, ofMark, Mark.letter, Blank.space]
  have stackEq : (scanner.begin.skim ⟨index, scanner.previous⟩
      (indent.letters ++ head.letters ++ [' '])).stack = start := by
    have inertSpace : ∀ letter ∈ [' '], isInert letter = true := List.forall_mem_singleton.mpr rfl
    rw [Progress.skim_append, Progress.stack_skim_of_isInert inertSpace]
    exact moves scanner indent isAt
  have reversedEq : (scanner.begin.skim ⟨index, scanner.previous⟩
      (indent.letters ++ head.letters ++ [' '])).reversed =
        (indent.letters ++ head.letters ++ [' ']).reverse := by
    rw [Progress.reversed_skim]
    exact List.append_nil _
  have kindEq := Brace.judge_of_head head.nonempty indent.isSpace head.starts head.ends inside
    scanner.previous start.head?
  rw [lettersEq, Progress.skim_append, Progress.stack_skim_brace, stackEq, reversedEq, kindEq]

end Moves

end Phrase

/-! ## Lines of code alone -/

def Remark.none : Remark := ⟨[], Or.inl rfl, List.not_mem_nil⟩

/-- The line shows code just as it is written. -/
structure ScannedLine.Spells (line : ScannedLine) (code : List Char) (stack : List Frame) :
    Prop where
  code_eq : line.code = code
  text_eq : line.text = line.code
  startStack_eq : line.startStack = stack
  beginsCode_eq : line.beginsCode = true

theorem ScannedLine.Spells.startTop?_eq {line : ScannedLine} {code : List Char}
    {stack : List Frame} (spells : line.Spells code stack) : line.startTop? = stack.head? := by
  rw [startTop?, spells.startStack_eq]

theorem Scanner.IsAt.scanLine_phrase {scanner : Scanner} {index : Nat} {start stop : List Frame}
    {phrase : Phrase} (isAt : scanner.IsAt start) (moves : phrase.Moves index start stop)
    (indent : Blank) :
    (scanner.scanLine index (indent.letters ++ phrase.letters)).1.Spells
        (indent.letters ++ phrase.letters) start ∧
      (scanner.scanLine index (indent.letters ++ phrase.letters)).2.IsAt stop := by
  have plain : ∀ letter ∈ indent.letters ++ phrase.letters, isPlain letter = true := by
    rw [List.forall_mem_append]
    exact ⟨fun letter member => isPlain_of_isInert (indent.isInert letter member), phrase.plain⟩
  have readEq : scanner.progressOver index (indent.letters ++ phrase.letters) =
      scanner.begin.skim ⟨index, scanner.previous⟩ (indent.letters ++ phrase.letters) := by
    have whole := @Progress.IsInCode.readAll_append _ ⟨index, scanner.previous⟩ _
      isAt.isInCode_begin plain []
    rwa [List.append_nil] at whole
  have codeEq : (scanner.progressOver index (indent.letters ++ phrase.letters)).code =
      indent.letters ++ phrase.letters := by
    rw [readEq, Progress.code, Progress.reversed_skim]
    simp [Scanner.begin]
  -- the line is a row without anything behind its code
  have rowEq : dropReturn (Row.letters ⟨⟨indent, .none, .none⟩, phrase.toBody⟩) =
      indent.letters ++ phrase.letters := by
    change dropReturn (indent.letters ++ phrase.letters ++ [] ++ []) = _
    rw [List.append_nil, List.append_nil, dropReturn_append _ phrase.nonempty,
      phrase.dropReturn_letters]
  have movesRow : (Row.mk ⟨indent, .none, .none⟩ phrase.toBody).body.Moves index start stop := moves
  obtain ⟨shows, leaves⟩ := isAt.scanLine_row movesRow
  rw [rowEq] at shows leaves
  exact ⟨⟨codeEq, codeEq.symm, shows.startStack_eq, shows.beginsCode_eq phrase.nonempty⟩, leaves⟩

/-! ## First characters -/

/-- A letter, or a mark that closes what is open. -/
def beginsRow (letter : Char) : Bool := letter.isAlpha || letter == ')' || letter == '\x7d'

theorem beginsRow_of_isAlpha {letters : List Char} {first : Char}
    (found : letters.head? = some first) (alphabetic : first.isAlpha = true) :
    letters.head?.any beginsRow = true := by
  rw [found, Option.any_some, beginsRow, alphabetic]
  rfl

theorem not_startsWithContinuation {letters : List Char}
    (begins : letters.head?.any beginsRow = true) : startsWithContinuation letters = false := by
  have otherFirst : ∀ marker ∈ leadingContinuations,
      marker.toList ≠ [] ∧ marker.toList.head?.any beginsRow = false := by decide
  have noMarker : leadingContinuations.any (beginsWith · letters) = false := by
    rw [List.any_eq_false]
    intro marker member isFirst
    obtain ⟨nonempty, other⟩ := otherFirst marker member
    obtain ⟨rest, rfl⟩ := List.isPrefixOf_iff_prefix.mp isFirst
    rw [List.head?_append_of_ne_nil _ nonempty, other] at begins
    cases begins
  rw [startsWithContinuation, noMarker, Bool.and_false]

theorem ScannedLine.IsOf.isDecorator_eq {line : ScannedLine} {row : Row} {start stop : List Frame}
    (shows : line.IsOf row start stop) (begins : row.body.letters.head?.any beginsRow = true) :
    line.isDecorator = false := by
  have noAt : (row.body.letters.head? == some '@') = false := by
    rw [beq_eq_false_iff_ne]
    intro isAt
    rw [isAt] at begins
    cases begins
  rw [isDecorator, shows.trimmed_eq, noAt, Bool.and_false]

theorem Brace.endsSegment_of_isAlpha {letter : Char} (alphabetic : letter.isAlpha = true) :
    endsSegment letter = false := by
  simp only [endsSegment, Bool.or_eq_false_iff, beq_eq_false_iff_ne]
  refine ⟨⟨?_, ?_⟩, ?_⟩
  all_goals
    rintro rfl
    cases alphabetic

namespace Name

variable {reserved : List String} (name : Name reserved)

def phrase : Phrase := .word name.letters name.nonempty name.alphabetic

@[simp]
theorem letters_phrase : name.phrase.letters = name.letters := rfl

theorem isInert : ∀ letter ∈ name.letters, ScriptLint.isInert letter = true :=
  fun letter member => isInert_of_isAlpha (name.alphabetic letter member)

theorem endsSegment_eq : ∀ letter ∈ name.letters, Brace.endsSegment letter = false :=
  fun letter member => Brace.endsSegment_of_isAlpha (name.alphabetic letter member)

theorem exists_head? : ∃ first, name.letters.head? = some first ∧ first.isAlpha = true := by
  have found := List.head?_eq_some_head name.nonempty
  exact ⟨_, found, name.alphabetic _ (List.mem_of_head? found)⟩

theorem begins : name.letters.head?.any beginsRow = true := by
  obtain ⟨first, found, alphabetic⟩ := name.exists_head?
  exact beginsRow_of_isAlpha found alphabetic

theorem exists_getLast? : ∃ last, name.letters.getLast? = some last ∧ last.isAlpha = true := by
  have found := List.getLast?_eq_some_getLast name.nonempty
  exact ⟨_, found, name.alphabetic _ (List.mem_of_getLast? found)⟩

end Name

end ScriptLint
