import ScriptLint.Rule.NoEmptyFunctions
import ScriptLint.Proofs.Text.Behind
import ScriptLint.Proofs.Text.Words

/-!
# Heads of functions on several lines

The head of a function begins with a name and may go on below its line. Up to its first opening
parenthesis or equals sign it does so only behind a name, an asterisk or an angle bracket. So no
match that begins in a line reaches over its end if the line has neither of the two marks and ends
with another character.
-/

namespace ScriptLint.NoEmptyFunctions

open Text Text.Pattern

/-- A character at the end of a line below which the head of a function may go on. -/
def goesOn (letter : Char) : Bool := isName letter || letter == '*' || letter == '>'

/-- Whether no head goes on below the line: it has neither of the marks, and at its end no head may go
on. -/
def closesHeads (line : List Char) : Bool :=
  !line.contains '(' && !line.contains '=' && !(lastOutside? isSpace line).any goesOn

/-- What is visible of the letters, if anything, ends with a character at which a head may go on. -/
def EndsOpen (letters : List Char) : Prop :=
  ∀ letter, lastOutside? isSpace letters = some letter → goesOn letter = true

/-- At every line feed in the letters a head may go on. -/
def BreaksOpen (letters : List Char) : Prop :=
  ∀ front back, letters = front ++ '\n' :: back → EndsOpen front

section Letters

variable {front back letters : List Char}

theorem EndsOpen.append (ends : EndsOpen front) (endsBack : EndsOpen back) :
    EndsOpen (front ++ back) := by
  intro letter found
  rw [lastOutside?_append, Option.or_eq_some_iff] at found
  rcases found with inBack | ⟨_, inFront⟩
  · exact endsBack letter inBack
  · exact ends letter inFront

theorem endsOpen_of_forall (inside : ∀ letter ∈ letters, goesOn letter = true) :
    EndsOpen letters :=
  fun letter found => inside letter (mem_of_lastOutside? found)

theorem endsOpen_of_isSpace (spaced : ∀ letter ∈ letters, isSpace letter = true) :
    EndsOpen letters := by
  intro letter found
  rw [lastOutside?_eq_none spaced] at found
  cases found

theorem breaksOpen_of_not_mem (absent : '\n' ∉ letters) : BreaksOpen letters := by
  intro front back lettersEq
  rw [lettersEq] at absent
  exact absurd (List.mem_append_right front List.mem_cons_self) absent

theorem BreaksOpen.append (breaks : BreaksOpen front) (ends : EndsOpen front)
    (breaksBack : BreaksOpen back) : BreaksOpen (front ++ back) := by
  intro before after lettersEq
  rcases List.append_eq_append_iff.mp lettersEq with
    ⟨part, beforeEq, backEq⟩ | ⟨part, frontEq, afterEq⟩
  · rw [beforeEq]
    exact ends.append (breaksBack part after backEq)
  · cases part with
    | nil =>
        rw [List.append_nil] at frontEq
        exact frontEq ▸ ends
    | cons letter others =>
        obtain ⟨feed, _⟩ := List.cons.inj afterEq
        rw [← feed] at frontEq
        exact breaks before others frontEq

/-- The letters may stand in a head whose mark is still to come. -/
structure IsOpen (letters : List Char) : Prop where
  ends : EndsOpen letters
  breaks : BreaksOpen letters

theorem isOpen_nil : IsOpen [] := ⟨nofun, breaksOpen_of_not_mem List.not_mem_nil⟩

theorem isOpen_of_isSpace (spaced : ∀ letter ∈ letters, isSpace letter = true) : IsOpen letters := by
  refine ⟨endsOpen_of_isSpace spaced, fun front back lettersEq => endsOpen_of_isSpace ?_⟩
  rw [lettersEq, List.forall_mem_append] at spaced
  exact spaced.1

end Letters

/-! ## Patterns -/

/-- Whatever the pattern describes may stand in a head whose mark is still to come. -/
def StaysOpen (pattern : Pattern) : Prop :=
  ∀ before run after, pattern.Fits before run after → IsOpen run

/-- Whatever the pattern describes has a mark, and at every line feed in front of it a head may go
on. -/
def ComesToMark (pattern : Pattern) : Prop :=
  ∀ before run after, pattern.Fits before run after →
    ∃ head mark tail, run = head ++ mark :: tail ∧ (mark = '(' ∨ mark = '=') ∧ BreaksOpen head

section Patterns

variable {pattern : Pattern} {patterns others : List Pattern}

theorem staysOpen_of_isCondition (condition : pattern.IsCondition) : StaysOpen pattern :=
  fun _ _ _ fits => fits.eq_nil condition ▸ isOpen_nil

theorem staysOpen_spaces : StaysOpen spaces :=
  fun _ _ _ fits => isOpen_of_isSpace (fits_spaces.mp fits)

theorem staysOpen_identifier : StaysOpen identifier := by
  intro before run after fits
  have inName := (fits_identifier.mp fits).2
  refine ⟨endsOpen_of_forall fun letter member => ?_, breaksOpen_of_not_mem fun member => ?_⟩
  · rw [goesOn, inName letter member]
    rfl
  · exact absurd (inName '\n' member) (by decide)

theorem staysOpen_literal {text : String} (inside : ∀ letter ∈ text.toList, goesOn letter = true) :
    StaysOpen (literal text) := by
  intro before run after fits
  rw [fits_literal.mp fits]
  refine ⟨endsOpen_of_forall inside, breaksOpen_of_not_mem fun member => ?_⟩
  exact absurd (inside '\n' member) (by decide)

theorem staysOpen_optional (stays : StaysOpen pattern) : StaysOpen (optional pattern) := by
  intro before run after fits
  rcases fits_optional.mp fits with described | nothing
  · exact stays before run after described
  · exact nothing ▸ isOpen_nil

theorem staysOpen_group (number : Nat) (stays : StaysOpen pattern) :
    StaysOpen (group number pattern) :=
  fun before run after fits => stays before run after (fits_group.mp fits)

theorem staysOpen_typeParameters : StaysOpen typeParameters := by
  refine staysOpen_optional fun before run after fits => ?_
  have noFeed : (inOrder [literal "<", many (noneOf ">\n"), literal ">"]).Only (· ≠ '\n') := by
    apply only_inOrder
    simp only [List.forall_mem_cons]
    refine ⟨only_literal (forall_of_all (by decide)), ?_, only_literal (forall_of_all (by decide)),
      nofun⟩
    rintro letter accepted rfl
    exact absurd accepted (by decide)
  have absent : '\n' ∉ run := fun member => fits.only noFeed '\n' member rfl
  refine ⟨?_, breaksOpen_of_not_mem absent⟩
  simp only [fits_inOrder_cons, fits_inOrder_nil, fits_literal] at fits
  obtain ⟨opening, _, rfl, _, inner, _, rfl, _, closing, _, rfl, rfl, rfl⟩ := fits
  intro letter found
  have last : lastOutside? isSpace (opening ++ (inner ++ (">".toList ++ []))) = some '>' :=
    lastOutside?_append_of_eq_some opening (lastOutside?_append_of_eq_some inner rfl)
  rw [last] at found
  rw [← Option.some.inj found]
  decide

theorem comesToMark_literal {text : String} {mark : Char} (spelled : text.toList = [mark])
    (isMark : mark = '(' ∨ mark = '=') : ComesToMark (literal text) := by
  intro before run after fits
  refine ⟨[], mark, [], ?_, isMark, isOpen_nil.breaks⟩
  rw [fits_literal.mp fits, spelled]
  rfl

theorem comesToMark_inOrder_cons (comes : ComesToMark pattern) :
    ComesToMark (inOrder (pattern :: patterns)) := by
  intro before run after fits
  obtain ⟨front, back, rfl, fitsFront, _⟩ := (fits_inOrder_cons patterns).mp fits
  obtain ⟨head, mark, tail, rfl, isMark, breaks⟩ := comes _ _ _ fitsFront
  exact ⟨head, mark, tail ++ back, by simp, isMark, breaks⟩

theorem comesToMark_inOrder_append (stays : ∀ pattern ∈ patterns, StaysOpen pattern)
    (comes : ComesToMark (inOrder others)) : ComesToMark (inOrder (patterns ++ others)) := by
  induction patterns with
  | nil => exact comes
  | cons first rest inductionHypothesis =>
      rw [List.forall_mem_cons] at stays
      intro before run after fits
      obtain ⟨front, back, rfl, fitsFront, fitsBack⟩ := (fits_inOrder_cons (rest ++ others)).mp fits
      obtain ⟨head, mark, tail, rfl, isMark, breaks⟩ :=
        inductionHypothesis stays.2 _ _ _ fitsBack
      have opened := stays.1 _ _ _ fitsFront
      exact ⟨front ++ head, mark, tail, by simp, isMark, opened.breaks.append opened.ends breaks⟩

/-- What stands directly in front of the mark may end with anything. -/
theorem comesToMark_inOrder_of_only {text : String} {mark : Char} (noFeed : pattern.Only (· ≠ '\n'))
    (spelled : text.toList = [mark]) (isMark : mark = '(' ∨ mark = '=') :
    ComesToMark (inOrder (pattern :: literal text :: patterns)) := by
  intro before run after fits
  obtain ⟨front, _, rfl, fitsFront, fitsBack⟩ := (fits_inOrder_cons _).mp fits
  obtain ⟨_, back, rfl, fitsMark, _⟩ := (fits_inOrder_cons patterns).mp fitsBack
  have absent : '\n' ∉ front := fun member => fitsFront.only noFeed '\n' member rfl
  refine ⟨front, mark, back, ?_, isMark, breaksOpen_of_not_mem absent⟩
  rw [fits_literal.mp fitsMark, spelled]
  rfl

theorem comesToMark_firstOf (each : ∀ pattern ∈ patterns, ComesToMark pattern) :
    ComesToMark (firstOf patterns) := by
  intro before run after fits
  obtain ⟨pattern, member, described⟩ := fits_firstOf.mp fits
  exact each pattern member before run after described

end Patterns

theorem comesToMark_functionHead : ComesToMark functionHead := by
  have parametersComes : ComesToMark (inOrder [parameters]) :=
    comesToMark_inOrder_cons (comesToMark_inOrder_cons (comesToMark_literal rfl (Or.inl rfl)))
  refine @comesToMark_inOrder_append [atWordEdge, literal "function", atWordEdge, spaces,
    optional (literal "*"), spaces, identifier, spaces, typeParameters, spaces] _ ?_ parametersComes
  have edge : StaysOpen atWordEdge := staysOpen_of_isCondition trivial
  simp only [List.forall_mem_cons]
  exact ⟨edge, staysOpen_literal (forall_of_all (by decide)), edge, staysOpen_spaces,
    staysOpen_optional (staysOpen_literal (forall_of_all (by decide))), staysOpen_spaces,
    staysOpen_identifier, staysOpen_spaces, staysOpen_typeParameters, staysOpen_spaces, nofun⟩

theorem comesToMark_arrowHead : ComesToMark arrowHead := by
  have noFeed : (optional (sequence (literal ":") (repeated (noneOf "=\n")))).Only (· ≠ '\n') := by
    have other : (noneOf "=\n").Only (· ≠ '\n') := by
      rintro letter accepted rfl
      exact absurd accepted (by decide)
    exact only_optional ⟨only_literal (forall_of_all (by decide)), other, other⟩
  refine @comesToMark_inOrder_append [atWordEdge, identifier, spaces] _ ?_
    (comesToMark_inOrder_of_only noFeed rfl (Or.inr rfl))
  simp only [List.forall_mem_cons]
  exact ⟨staysOpen_of_isCondition trivial, staysOpen_identifier, staysOpen_spaces, nofun⟩

theorem comesToMark_methodHead : ComesToMark methodHead := by
  refine @comesToMark_inOrder_append [atWordEdge, group 1 identifier, spaces, typeParameters, spaces]
    _ ?_ (comesToMark_inOrder_cons (comesToMark_literal rfl (Or.inl rfl)))
  simp only [List.forall_mem_cons]
  exact ⟨staysOpen_of_isCondition trivial, staysOpen_group 1 staysOpen_identifier, staysOpen_spaces,
    staysOpen_typeParameters, staysOpen_spaces, nofun⟩

theorem comesToMark_emptyFunction : ComesToMark emptyFunction := by
  apply comesToMark_inOrder_cons
  apply comesToMark_firstOf
  simp only [List.forall_mem_cons]
  exact ⟨comesToMark_functionHead, comesToMark_arrowHead, comesToMark_methodHead, nofun⟩

/-! ## Matches that begin in a line -/

/-- Each of the heads begins with a character of a name. -/
theorem emptyFunction_opens : emptyFunction.OpensWith (isName · = true) := by
  have opensIdentifier : identifier.OpensWith (isName · = true) := Or.inl fun _ accepted => accepted
  have opensGroup : (group 1 identifier).OpensWith (isName · = true) := opensIdentifier
  exact opensWith_inOrder_cons
    ⟨opensWith_inOrder_condition_cons trivial (opensWith_literal rfl (by decide)),
      opensWith_inOrder_condition_cons trivial opensIdentifier,
      opensWith_inOrder_condition_cons trivial opensGroup⟩

section Lines

variable {line letters : List Char} {found : Match}

/-- A match that begins in a line begins with a character of a name in it. -/
theorem exists_part_of_mem_matchesIn
    (member : found ∈ matchesIn emptyFunction (line ++ ['\n']) letters) :
    ∃ before first others after, line = before ++ first :: others ∧ isName first = true ∧
      found.whole.start = byteLength before ∧
      found.whole.letters ++ after = first :: others ++ '\n' :: letters ∧
      emptyFunction.Fits before found.whole.letters after := by
  obtain ⟨isFound, inLine⟩ := List.mem_filter.mp member
  rw [decide_eq_true_eq, byteLength_append] at inLine
  have isMatch := isMatch_of_mem_searchAll isFound
  obtain ⟨before, after, lettersEq, startEq, fits⟩ := isMatch.exists_fits
  obtain ⟨first, others, wholeEq, inName⟩ := isMatch.whole_opens emptyFunction_opens
  rw [List.append_assoc, List.append_assoc] at lettersEq
  rw [startEq] at inLine
  rcases List.append_eq_append_iff.mp lettersEq with
    ⟨beyond, beforeEq, restEq⟩ | ⟨part, lineEq, restEq⟩
  · cases beyond with
    | nil =>
        rw [wholeEq] at restEq
        have feed : '\n' = first := (List.cons.inj restEq).1
        rw [← feed] at inName
        exact absurd inName (by decide)
    | cons letter further =>
        have feed : '\n' = letter := (List.cons.inj restEq).1
        rw [beforeEq, byteLength_append, ← feed, byteLength_cons, byteLength_cons,
          byteLength_nil] at inLine
        omega
  · cases part with
    | nil =>
        rw [wholeEq] at restEq
        have feed : first = '\n' := (List.cons.inj restEq).1
        rw [feed] at inName
        exact absurd inName (by decide)
    | cons letter further =>
        have sameFirst : first = letter := by
          rw [wholeEq] at restEq
          exact (List.cons.inj restEq).1
        exact ⟨before, letter, further, after, lineEq, sameFirst ▸ inName, startEq, restEq, fits⟩

theorem closesHeads_iff :
    closesHeads line = true ↔
      '(' ∉ line ∧ '=' ∉ line ∧
        ∀ letter, lastOutside? isSpace line = some letter → goesOn letter = false := by
  rw [closesHeads]
  cases lastOutside? isSpace line with
  | none => simp
  | some letter => simp [and_assoc]

/-- No match begins in a line below which no head goes on. -/
theorem matchesIn_eq_nil (closes : closesHeads line = true) (letters : List Char) :
    matchesIn emptyFunction (line ++ ['\n']) letters = [] := by
  obtain ⟨noParenthesis, noEquals, closed⟩ := closesHeads_iff.mp closes
  rw [List.eq_nil_iff_forall_not_mem]
  intro found member
  obtain ⟨before, first, others, after, lineEq, inName, _, restEq, fits⟩ :=
    exists_part_of_mem_matchesIn member
  obtain ⟨head, mark, tail, wholeEq, isMark, breaks⟩ := comesToMark_emptyFunction _ _ _ fits
  have noMark : mark ∉ first :: others := by
    intro inPart
    have inLine : mark ∈ line := lineEq ▸ List.mem_append_right before inPart
    rcases isMark with rfl | rfl
    · exact noParenthesis inLine
    · exact noEquals inLine
  have noFeed : mark ≠ '\n' := by
    rcases isMark with rfl | rfl
    · decide
    · decide
  -- the mark stands below the line, so the head goes on at its end
  have goesBelow : ∃ below, head = first :: others ++ '\n' :: below := by
    rw [wholeEq, List.append_assoc] at restEq
    rcases List.append_eq_append_iff.mp restEq with ⟨more, partEq, tailEq⟩ | ⟨more, headEq, feedEq⟩
    · cases more with
      | nil => exact absurd (List.cons.inj tailEq).1 noFeed
      | cons letter further =>
          have sameMark : mark = letter := (List.cons.inj tailEq).1
          rw [partEq, sameMark] at noMark
          exact absurd (List.mem_append_right head List.mem_cons_self) noMark
    · cases more with
      | nil => exact absurd (List.cons.inj feedEq).1.symm noFeed
      | cons letter further =>
          rw [← (List.cons.inj feedEq).1] at headEq
          exact ⟨further, headEq⟩
  obtain ⟨below, headEq⟩ := goesBelow
  have visible : isSpace first = false := by
    rw [Bool.eq_false_iff]
    intro spaced
    rw [isName_of_isSpace spaced] at inName
    cases inName
  obtain ⟨last, found⟩ := exists_lastOutside? (@List.mem_cons_self _ first others) visible
  have goes := breaks (first :: others) below headEq last found
  rw [lineEq] at closed
  rw [closed last (lastOutside?_append_of_eq_some before found)] at goes
  cases goes

end Lines

end ScriptLint.NoEmptyFunctions
