import ScriptLint.Proofs.Document.Phrases
import ScriptLint.Rule.TrailingComma

/-!
# Trailing commas in nested literals

In an object literal whose members are literals themselves, nested to any depth, and in an
enumeration, with blank lines, comments and indentation anywhere, the rule reports exactly the lines
that end a member without a comma where another member of the same literal follows. Whether one
follows is told by the next line of code, which begins with a name or closes the literal.
-/

namespace ScriptLint.TrailingComma

open Text

/-- The words that are no names: the one of a class, the one of a default and those of control. -/
def reservedWords : List String := "class" :: "default" :: Brace.controlWords

/-- A name of a member, a value or what is declared. -/
abbrev Identifier : Type := Name reservedWords

/-! ## Rows -/

def issueOfRow? (index : Nat) (row : Row) (due : Bool) : Option Issue :=
  if due then
    some (info.issue index row.width 1 "Object and enum members should end with a comma")
  else none

/-- The rule as a check of rows. -/
def lineCheck : LineCheck Bool where
  issue? := issueOfLine?
  asks := isFollowedByMember
  expect? := issueOfRow?
  silent placed noCode := by
    simp only [issueOfLine?, ScannedLine.beginsCode, noCode, Bool.false_and, Bool.false_eq_true,
      if_false]

section Rows

variable {index : Nat} {start stop : List Frame} {margin : Margin} {phrase : Phrase}
  {before after : Bool}

theorem asks_eq {line : ScannedLine} {row : Row} (shows : line.IsOf row start stop)
    (begins : row.body.letters.head?.any beginsRow = true) :
    lineCheck.asks (some line) = !beginsWith "\x7d" row.body.letters := by
  change (!beginsWith "\x7d" line.trimmed && !startsWithContinuation line.trimmed) = _
  rw [shows.trimmed_eq, not_startsWithContinuation begins]
  exact Bool.and_true _

/-- A row of code on which an issue is due if it ends a member and another member follows. -/
theorem reports_row {ends due : Bool} (moves : phrase.Moves index start stop)
    (begins : phrase.letters.head?.any beginsRow = true)
    (isMember : beginsWith "\x7d" phrase.letters = !before)
    (endsEq : ∀ line : ScannedLine, line.IsOf ⟨margin, phrase.toBody⟩ start stop →
      endsMember line = ends)
    (isDue : (ends && after) = due) :
    lineCheck.Reports index start stop before after [(⟨margin, phrase.toBody⟩, due)] := by
  have movesRow : (Row.mk margin phrase.toBody).body.Moves index start stop := moves
  refine .row movesRow phrase.nonempty (fun line shows => ?_) ?_
  · rw [asks_eq shows begins, isMember, Bool.not_not]
  · intro line following shows asked
    have follows : isFollowedByMember (PlacedLine.mk index line following).nextCode? = after :=
      asked
    have columnEq := shows.column_trimEnd phrase.nonempty
    change issueOfLine? _ = issueOfRow? index _ due
    simp only [issueOfLine?, shows.beginsCode_eq phrase.nonempty, shows.isDecorator_eq begins,
      endsEq line shows, follows, Bool.not_false, Bool.true_and, Bool.and_true, isDue, columnEq]
    rfl

end Rows

/-! ## Lines that end a member -/

section Lines

variable {line : ScannedLine} {frame : Frame} {stack : List Frame}

/-- Where the innermost delimiter is the one of a literal, before the line or when the line has
closed another one, the last character tells whether a member ends. -/
theorem endsMember_eq (literal : (frame.opens .object || frame.opens .enumeration) = true)
    (startEq : line.startStack = frame :: stack ∨
      ∃ inner, line.startStack = inner :: frame :: stack)
    (endEq : line.endStack = frame :: stack) :
    endsMember line = !line.trimmed.getLast?.any continuationEndings.contains := by
  rcases startEq with same | ⟨inner, closes⟩
  · simp [endsMember, ScannedLine.startTop?, ScannedLine.endTop?, endEq, same, literal]
  · simp [endsMember, ScannedLine.startTop?, ScannedLine.endTop?, endEq, closes, literal]

theorem endsMember_of_opening (endEq : line.endStack = frame :: line.startStack) :
    endsMember line = false := by
  have longer : ¬ line.endStack.length ≤ line.startStack.length := by
    rw [endEq, List.length_cons]
    omega
  rw [endsMember, decide_eq_false longer, Bool.and_false, Bool.false_and, Bool.false_and]

theorem endsMember_of_nil (endEq : line.endStack = []) : endsMember line = false := by
  simp [endsMember, endEq, ScannedLine.endTop?]

theorem endsLine_ended {phrase : Phrase} {last : Char}
    (found : phrase.letters.getLast? = some last)
    (other : continuationEndings.contains last = false) (comma : Bool) :
    (phrase.ended .comma comma).letters.getLast?.any continuationEndings.contains = comma := by
  rw [phrase.letters_ended]
  cases comma with
  | false =>
      rw [if_neg Bool.false_ne_true, List.append_nil, found]
      exact other
  | true =>
      rw [if_pos rfl, List.getLast?_concat]
      rfl

theorem not_continuationEndings {last : Char} (alphabetic : last.isAlpha = true) :
    continuationEndings.contains last = false := by
  have noLetter : continuationEndings.all (fun mark => !mark.isAlpha) = true := by decide
  rw [Bool.eq_false_iff]
  intro member
  have other := List.all_eq_true.mp noLetter last (List.contains_iff_mem.mp member)
  rw [alphabetic] at other
  cases other

end Lines

/-! ## Members -/

def pair (key value : Identifier) : Phrase := (key.phrase.withMark .colon).join .space value.phrase

/-- The key of a member that is a literal. -/
def key (name : Identifier) : Phrase := name.phrase.withMark .colon

def closing : Phrase := .ofMark .closeBrace

/-- What stands before the brace of an object that is set. -/
def declaration (name : Identifier) : Phrase :=
  (Phrase.keyword "const" (by decide)).join .space (name.phrase.join .space (.ofMark .equals))

/-- What stands before the brace of an enumeration. -/
def enumeration (name : Identifier) : Phrase :=
  (Phrase.keyword "enum" (by decide)).join .space name.phrase

theorem letters_key (name : Identifier) : (key name).letters = Brace.keyHead name.letters := by
  simp [key, Brace.keyHead, Phrase.letters_withMark, Mark.letter]

theorem letters_declaration (name : Identifier) :
    (declaration name).letters = Brace.declaredHead name.letters := by
  simp [declaration, Brace.declaredHead, Phrase.join, Phrase.ofMark, Mark.letter, Blank.space,
    Phrase.keyword, Phrase.word]

theorem letters_enumeration (name : Identifier) :
    (enumeration name).letters = Brace.enumHead name.letters := rfl

section Contracts

variable {index : Nat} {frame inner : Frame} {stack : List Frame} {margin : Margin}
  {phrase : Phrase} {after : Bool}

theorem not_beginsWith_brace {letters : List Char} {first : Char}
    (found : letters.head? = some first) (alphabetic : first.isAlpha = true) :
    beginsWith "\x7d" letters = false := by
  rw [Bool.eq_false_iff]
  intro begins
  obtain ⟨rest, rfl⟩ := List.isPrefixOf_iff_prefix.mp begins
  cases Option.some.inj found
  cases alphabetic

theorem reports_member (literal : (frame.opens .object || frame.opens .enumeration) = true)
    (moves : phrase.Moves index (frame :: stack) (frame :: stack))
    (first : ∃ first, phrase.letters.head? = some first ∧ first.isAlpha = true)
    (last : ∃ last, phrase.letters.getLast? = some last ∧ last.isAlpha = true) (comma : Bool) :
    lineCheck.Reports index (frame :: stack) (frame :: stack) true after
      [(⟨margin, (phrase.ended .comma comma).toBody⟩, !comma && after)] := by
  obtain ⟨first, firstEq, firstAlpha⟩ := first
  obtain ⟨last, lastEq, lastAlpha⟩ := last
  have headEq : (phrase.ended .comma comma).letters.head? = some first := by
    rw [Phrase.head?_ended, firstEq]
  refine reports_row (Phrase.moves_ended moves rfl comma)
    (beginsRow_of_isAlpha headEq firstAlpha) (not_beginsWith_brace headEq firstAlpha)
    (fun line shows => ?_) rfl
  rw [endsMember_eq literal (Or.inl shows.startStack_eq) shows.endStack_eq, shows.trimmed_eq,
    endsLine_ended lastEq (not_continuationEndings lastAlpha)]

theorem reports_pair (key value : Identifier) (comma : Bool) (line : Nat) :
    lineCheck.Reports index (.brace .object line :: stack) (.brace .object line :: stack) true after
      [(⟨margin, ((pair key value).ended .comma comma).toBody⟩, !comma && after)] := by
  have moves : (pair key value).Moves index (.brace .object line :: stack)
      (.brace .object line :: stack) :=
    Phrase.moves_join (Phrase.moves_withMark (Phrase.moves_word _ _ _) rfl) .space value.isInert
  refine reports_member rfl moves ?_ ?_ comma
  · rw [pair, Phrase.head?_join, Phrase.head?_withMark]
    exact key.exists_head?
  · rw [pair, Phrase.getLast?_join]
    exact value.exists_getLast?

theorem reports_name (name : Identifier) (comma : Bool) (line : Nat) :
    lineCheck.Reports index (.brace .enumeration line :: stack) (.brace .enumeration line :: stack)
      true after
      [(⟨margin, (name.phrase.ended .comma comma).toBody⟩, !comma && after)] :=
  reports_member rfl (Phrase.moves_word _ _ _) name.exists_head? name.exists_getLast? comma

/-- The first line of a literal ends no member. -/
theorem reports_opening (moves : phrase.Moves index stack (frame :: stack))
    (first : ∃ first, phrase.letters.head? = some first ∧ first.isAlpha = true) :
    lineCheck.Reports index stack (frame :: stack) true after
      [(⟨margin, phrase.toBody⟩, false)] := by
  obtain ⟨first, firstEq, alphabetic⟩ := first
  refine reports_row moves (beginsRow_of_isAlpha firstEq alphabetic)
    (not_beginsWith_brace firstEq alphabetic) (fun line shows => ?_) (Bool.false_and _)
  apply endsMember_of_opening
  rw [shows.endStack_eq, shows.startStack_eq]

theorem moves_key (name : Identifier) (line : Nat) :
    (key name).braced.Moves index (.brace .object line :: stack)
      (.brace .object index :: .brace .object line :: stack) := by
  have headMoves : (key name).Moves index (.brace .object line :: stack)
      (.brace .object line :: stack) :=
    Phrase.moves_withMark (Phrase.moves_word _ _ _) rfl
  have inside : ∀ letter ∈ (key name).letters, Brace.endsSegment letter = false := by
    rw [letters_key, Brace.keyHead, List.forall_mem_append]
    exact ⟨name.endsSegment_eq, List.forall_mem_singleton.mpr rfl⟩
  have kindEq : Brace.kindAfter (key name).letters (some (.brace .object line)) = .object := by
    rw [letters_key]
    exact Brace.kindAfter_keyHead name.alphabetic (name.free "class" (by decide))
      (name.free "default" (by decide)) (fun control member =>
        name.free control (List.mem_cons_of_mem _ (List.mem_cons_of_mem _ member))) line
  have moves := Phrase.moves_braced headMoves inside
  rwa [List.head?_cons, kindEq] at moves

theorem moves_declaration (name : Identifier) :
    (declaration name).braced.Moves index stack (.brace .object index :: stack) := by
  have inert : ∀ letter ∈ (name.phrase.join .space (.ofMark .equals)).letters,
      isInert letter = true := by
    simp only [Phrase.join, Phrase.ofMark, Name.letters_phrase, List.forall_mem_append]
    exact ⟨⟨name.isInert, Blank.isInert _⟩, List.forall_mem_singleton.mpr rfl⟩
  have headMoves : (declaration name).Moves index stack stack :=
    Phrase.moves_join (Phrase.moves_word _ _ stack) .space inert
  have inside : ∀ letter ∈ (declaration name).letters, Brace.endsSegment letter = false := by
    rw [letters_declaration, Brace.declaredHead]
    simp only [List.forall_mem_append, List.forall_mem_cons]
    exact ⟨Brace.endsSegment_of_all (by decide), rfl, name.endsSegment_eq, rfl, rfl,
      List.forall_mem_nil _⟩
  have moves := Phrase.moves_braced headMoves inside
  rwa [letters_declaration,
    Brace.kindAfter_declaredHead name.alphabetic (name.free "class" (by decide))] at moves

theorem moves_enumeration (name : Identifier) :
    (enumeration name).braced.Moves index stack (.brace .enumeration index :: stack) := by
  have headMoves : (enumeration name).Moves index stack stack :=
    Phrase.moves_join (Phrase.moves_word _ _ stack) .space name.isInert
  have inside : ∀ letter ∈ (enumeration name).letters, Brace.endsSegment letter = false := by
    rw [letters_enumeration, Brace.enumHead, List.forall_mem_append]
    exact ⟨Brace.endsSegment_of_all (by decide), name.endsSegment_eq⟩
  have moves := Phrase.moves_braced headMoves inside
  rwa [letters_enumeration, Brace.kindAfter_enumHead name.alphabetic name.nonempty] at moves

/-- The last line of a literal that is a member. -/
theorem reports_closing (literal : (frame.opens .object || frame.opens .enumeration) = true)
    (comma : Bool) :
    lineCheck.Reports index (inner :: frame :: stack) (frame :: stack) false after
      [(⟨margin, (closing.ended .comma comma).toBody⟩, !comma && after)] := by
  have moves : (closing.ended .comma comma).Moves index (inner :: frame :: stack)
      (frame :: stack) :=
    Phrase.moves_ended (Phrase.moves_closing (Or.inr rfl) inner _) rfl comma
  have begins : beginsWith "\x7d" (closing.ended .comma comma).letters = true := by
    rw [Phrase.letters_ended]
    exact List.isPrefixOf_iff_prefix.mpr (List.prefix_append _ _)
  have opens : (closing.ended .comma comma).letters.head?.any beginsRow = true := by
    rw [Phrase.head?_ended]
    rfl
  refine reports_row moves opens begins (fun line shows => ?_) rfl
  rw [endsMember_eq literal (Or.inr ⟨inner, shows.startStack_eq⟩) shows.endStack_eq,
    shows.trimmed_eq, @endsLine_ended closing '\x7d' rfl (by decide)]

/-- The last line of a literal that is no member. -/
theorem reports_end (moves : phrase.Moves index (frame :: []) [])
    (first : phrase.letters.head? = some '\x7d') :
    lineCheck.Reports index (frame :: []) [] false after [(⟨margin, phrase.toBody⟩, false)] := by
  have begins : beginsWith "\x7d" phrase.letters = true := by
    obtain ⟨rest, same⟩ := List.head?_eq_some_iff.mp first
    rw [same]
    exact List.isPrefixOf_iff_prefix.mpr ⟨rest, rfl⟩
  have opens : phrase.letters.head?.any beginsRow = true := by
    rw [first]
    rfl
  exact reports_row moves opens begins (fun line shows => endsMember_of_nil shows.endStack_eq)
    (Bool.false_and _)

end Contracts

/-! ## Literals -/

/-- The members of an object; its fillers are rows that are blank or comments. -/
inductive Fields where
  | done
  | filler (margin : Margin) (rest : Fields)
  | pair (margin : Margin) (key value : Identifier) (comma : Bool) (rest : Fields)
  | nested (first : Margin) (key : Identifier) (inner : Fields) (last : Margin) (comma : Bool)
      (rest : Fields)

/-- The members of an enumeration. -/
inductive Choices where
  | done
  | filler (margin : Margin) (rest : Choices)
  | choice (margin : Margin) (name : Identifier) (comma : Bool) (rest : Choices)

def Fields.hasMember : Fields → Bool
  | done => false
  | filler _ rest => rest.hasMember
  | pair .. => true
  | nested .. => true

def Choices.hasMember : Choices → Bool
  | done => false
  | filler _ rest => rest.hasMember
  | choice .. => true

/-- The rows of the members. A row that ends a member is marked by whether the member lacks a comma
and another one follows. -/
def Fields.rows : Fields → List (Row × Bool)
  | done => []
  | filler margin rest => (⟨margin, .empty⟩, false) :: rest.rows
  | pair margin key value comma rest =>
      (⟨margin, ((TrailingComma.pair key value).ended .comma comma).toBody⟩,
        !comma && rest.hasMember) :: rest.rows
  | nested first key inner last comma rest =>
      (⟨first, (TrailingComma.key key).braced.toBody⟩, false) :: (inner.rows ++
        (⟨last, (closing.ended .comma comma).toBody⟩, !comma && rest.hasMember) ::
          rest.rows)

def Choices.rows : Choices → List (Row × Bool)
  | done => []
  | filler margin rest => (⟨margin, .empty⟩, false) :: rest.rows
  | choice margin name comma rest =>
      (⟨margin, (name.phrase.ended .comma comma).toBody⟩, !comma && rest.hasMember) ::
        rest.rows

/-- A document: an object that is set or an enumeration, with rows without code above and below. -/
inductive Literal where
  | object (above : List Margin) (first : Margin) (name : Identifier) (members : Fields)
      (last : Margin) (below : List Margin)
  | enumeration (above : List Margin) (first : Margin) (name : Identifier) (members : Choices)
      (last : Margin) (below : List Margin)

def fillers (margins : List Margin) : List (Row × Bool) :=
  margins.map fun margin => (⟨margin, .empty⟩, false)

def Literal.rows : Literal → List (Row × Bool)
  | object above first name members last below =>
      fillers above ++ (⟨first, (declaration name).braced.toBody⟩, false) :: (members.rows ++
        (⟨last, (closing.withMark .semicolon).toBody⟩, false) :: fillers below)
  | enumeration above first name members last below =>
      fillers above ++ (⟨first, (TrailingComma.enumeration name).braced.toBody⟩, false) ::
        (members.rows ++ (⟨last, closing.toBody⟩, false) :: fillers below)

section Runs

variable {index : Nat} {stack : List Frame} {before : Bool}

theorem reports_filler (margin : Margin) :
    lineCheck.Reports index stack stack before before [(⟨margin, .empty⟩, false)] :=
  .filler rfl

theorem reports_fillers (margins : List Margin) :
    lineCheck.Reports index stack stack before before (fillers margins) := by
  induction margins generalizing index with
  | nil => exact .nil
  | cons margin rest inductionHypothesis => exact .cons (reports_filler margin) inductionHypothesis

/-- In front of the members of an object the next line of code begins a member if there is one, and
behind them it does not. -/
theorem Fields.reports (members : Fields) (line : Nat) :
    lineCheck.Reports index (.brace .object line :: stack) (.brace .object line :: stack)
      members.hasMember false members.rows := by
  induction members generalizing index line stack with
  | done => exact .nil
  | filler margin rest inductionHypothesis =>
      exact .cons (reports_filler margin) (inductionHypothesis line)
  | pair margin key value comma rest inductionHypothesis =>
      exact .cons (reports_pair key value comma line) (inductionHypothesis line)
  | nested first key inner last comma rest innerHypothesis restHypothesis =>
      -- the inner members stand below the brace that their first line opens
      have begins : lineCheck.Reports index (.brace .object line :: stack)
          (.brace .object index :: .brace .object line :: stack) true inner.hasMember
          [(⟨first, (TrailingComma.key key).braced.toBody⟩, false)] := by
        refine reports_opening (moves_key key line) ?_
        rw [TrailingComma.key, Phrase.head?_braced, Phrase.head?_withMark]
        exact key.exists_head?
      refine .cons begins (.append (innerHypothesis index) ?_)
      exact .cons (reports_closing rfl comma) (restHypothesis line)

theorem Choices.reports (members : Choices) (line : Nat) :
    lineCheck.Reports index (.brace .enumeration line :: stack) (.brace .enumeration line :: stack)
      members.hasMember false members.rows := by
  induction members generalizing index with
  | done => exact .nil
  | filler margin rest inductionHypothesis =>
      exact .cons (reports_filler margin) inductionHypothesis
  | choice margin name comma rest inductionHypothesis =>
      exact .cons (reports_name name comma line) inductionHypothesis

theorem Literal.reports (literal : Literal) :
    lineCheck.Reports index [] [] true false literal.rows := by
  cases literal with
  | object above first name members last below =>
      have begins : lineCheck.Reports (index + (fillers above).length) []
          [.brace .object (index + (fillers above).length)] true members.hasMember
          [(⟨first, (declaration name).braced.toBody⟩, false)] :=
        reports_opening (moves_declaration name) ⟨'c', rfl, rfl⟩
      have ends {index line : Nat} : lineCheck.Reports index [.brace .object line] [] false false
          [(⟨last, (closing.withMark .semicolon).toBody⟩, false)] :=
        reports_end (Phrase.moves_withMark (Phrase.moves_closing (Or.inr rfl) _ _) rfl) rfl
      refine .append (reports_fillers above) (.cons begins ?_)
      exact .append (members.reports _) (.cons ends (reports_fillers below))
  | enumeration above first name members last below =>
      have begins : lineCheck.Reports (index + (fillers above).length) []
          [.brace .enumeration (index + (fillers above).length)] true members.hasMember
          [(⟨first, (TrailingComma.enumeration name).braced.toBody⟩, false)] :=
        reports_opening (moves_enumeration name) ⟨'e', rfl, rfl⟩
      have ends {index line : Nat} : lineCheck.Reports index [.brace .enumeration line] [] false
          false [(⟨last, closing.toBody⟩, false)] :=
        reports_end (Phrase.moves_closing (Or.inr rfl) _ _) rfl
      refine .append (reports_fillers above) (.cons begins ?_)
      exact .append (members.reports _) (.cons ends (reports_fillers below))

end Runs

def Literal.text (literal : Literal) : List Char := LineCheck.textOf literal.rows

/-- The issues on the rows of a document. -/
def Literal.issues (literal : Literal) : List Issue :=
  literal.rows.zipIdx.filterMap fun entry => issueOfRow? entry.2 entry.1.1 entry.1.2

/-- Whatever the members are, exactly the lines that end one without a comma where another one
follows in the same literal are reported, each once and at its place. -/
theorem check_literal_text (literal : Literal) (options : RuleOptions) :
    rule.check ⟨literal.text⟩ options = .ok literal.issues := by
  have reports : lineCheck.Reports 0 [] [] true false literal.rows := literal.reports
  have issuesEq : issues ⟨literal.text⟩ = literal.issues := reports.issues_textOf
  change Except.ok (issues ⟨literal.text⟩) = Except.ok literal.issues
  rw [issuesEq]

example :
    let name : Identifier := ⟨['k'], by decide, List.all_eq_true.mp rfl, by decide⟩
    let margin : Margin := ⟨⟨[], nofun⟩, ⟨[], nofun⟩, ⟨[], Or.inl rfl, nofun⟩⟩
    let inner : Fields := .pair margin name name false (.pair margin name name false .done)
    let last : Fields := .pair margin name name true .done
    let literal : Literal :=
      .object [] margin name (.nested margin name inner margin false last) margin []
    String.ofList literal.text =
        "const k = \x7b\nk: \x7b\nk: k\nk: k\n\x7d\nk: k,\n\x7d;" ∧
      literal.issues.map (fun issue => (issue.line, issue.character)) = [(2, 4), (4, 1)] := by
  decide

end ScriptLint.TrailingComma
