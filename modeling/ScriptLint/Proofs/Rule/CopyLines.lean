import ScriptLint.Rule.ArrayCopy
import ScriptLint.Proofs.Text.Preferred

/-!
# The lines of a copy

What the patterns of the rule describe, in words: a keyword and a name, a type up to an equals sign,
an array without elements. A line has such a form with one name at most, because every part ends
with its class of characters, so the name that a pattern records is the name of the form.

Nothing is said about what stands behind the element of a copying step. The patterns of the other
lines end with the line or, for the loop, with the semicolon behind its bound.
-/

namespace ScriptLint.ArrayCopy

open Text Text.Pattern

/-! ## Parts of a line -/

/-- White space, or nothing. -/
def AreSpaces (letters : List Char) : Prop := ∀ letter ∈ letters, isSpace letter = true

/-- Characters of names, at least one. -/
def IsIdentifier (letters : List Char) : Prop :=
  letters ≠ [] ∧ ∀ letter ∈ letters, isName letter = true

/-- What may follow a statement on its line: white space and one semicolon behind it. -/
def IsEnding (letters : List Char) : Prop :=
  ∃ blanks, AreSpaces blanks ∧ (letters = blanks ∨ letters = blanks ++ ";".toList)

/-- A type behind a colon, or nothing. -/
def IsTyping (letters : List Char) : Prop :=
  letters = [] ∨ ∃ kind, kind ≠ [] ∧ (∀ letter ∈ kind, letter ≠ '=') ∧
    letters = ":".toList ++ kind

/-- The code declares a name with one of the keywords. White space around the name left out, the
rest follows. -/
def Declares (keywords : List String) (name rest code : List Char) : Prop :=
  ∃ keyword ∈ keywords, ∃ blanks more, blanks ≠ [] ∧ AreSpaces blanks ∧ IsIdentifier name ∧
    AreSpaces more ∧ code = keyword.toList ++ (blanks ++ (name ++ (more ++ rest)))

/-! ## The lines -/

/-- An array without elements is given. -/
def GivesEmptyArray (letters : List Char) : Prop :=
  ∃ typing blanks ending, IsTyping typing ∧ AreSpaces blanks ∧ IsEnding ending ∧
    letters = typing ++ ("=".toList ++ (blanks ++ ("[]".toList ++ ending)))

/-- The length of some array is given. -/
def GivesLength (letters : List Char) : Prop :=
  ∃ typing blanks measured ending, IsTyping typing ∧ AreSpaces blanks ∧ IsIdentifier measured ∧
    IsEnding ending ∧
    letters = typing ++ ("=".toList ++ (blanks ++ (measured ++ (".length".toList ++ ending))))

/-- A mark and a word behind it, with white space around the word, or nothing. -/
def IsGiven (mark word : String) (letters : List Char) : Prop :=
  letters = [] ∨ ∃ blanks more, AreSpaces blanks ∧ AreSpaces more ∧
    letters = mark.toList ++ (blanks ++ (word.toList ++ more))

/-- A number is given, as zero if at all. -/
def GivesIndex (letters : List Char) : Prop :=
  ∃ typing value ending, IsGiven ":" "number" typing ∧ IsGiven "=" "0" value ∧
    (ending = [] ∨ ending = ";".toList) ∧ letters = typing ++ (value ++ ending)

/-- The code declares the copy as an array without elements. -/
def IsEmptyArray (copy code : List Char) : Prop :=
  ∃ rest, GivesEmptyArray rest ∧ Declares ["const", "let", "var"] copy rest code

/-- The code declares the bound as the length of some array. -/
def IsLengthVariable (bound code : List Char) : Prop :=
  ∃ rest, GivesLength rest ∧ Declares ["const", "let", "var"] bound rest code

/-- The code declares the index. -/
def IsIndexVariable (index code : List Char) : Prop :=
  ∃ rest, GivesIndex rest ∧ Declares ["let", "var"] index rest code

/-- The code begins a loop that goes on while the index is below the bound, or below the length of
the bound. -/
def IsLoop (index bound code : List Char) : Prop :=
  ∃ blanks start before around behind measured more rest, AreSpaces blanks ∧
    (∀ letter ∈ start, letter ≠ ';') ∧ AreSpaces before ∧ IsIdentifier index ∧ AreSpaces around ∧
    AreSpaces behind ∧ IsIdentifier bound ∧ (measured = [] ∨ measured = ".length".toList) ∧
    AreSpaces more ∧ code = "for".toList ++ (blanks ++ ("(".toList ++ (start ++ (";".toList ++
      (before ++ (index ++ (around ++ ("<".toList ++ (behind ++ (bound ++ (measured ++
        (more ++ (";".toList ++ rest)))))))))))))

/-- The code sets the element of the target at the index to the element of the source at the
position, and the tail follows. -/
def SetsElement (target index source position tail code : List Char) : Prop :=
  IsIdentifier target ∧ IsIdentifier index ∧ IsIdentifier source ∧ IsIdentifier position ∧
    ∃ blanks more, AreSpaces blanks ∧ AreSpaces more ∧
      code = target ++ ("[".toList ++ (index ++ ("]".toList ++ (blanks ++ ("=".toList ++ (more ++
        (source ++ ("[".toList ++ (position ++ ("]".toList ++ tail))))))))))

/-- The code appends the element of the source at the position to the target, and the tail
follows. -/
def AppendsElement (target source position tail code : List Char) : Prop :=
  IsIdentifier target ∧ IsIdentifier source ∧ IsIdentifier position ∧
    ∃ blanks more, AreSpaces blanks ∧ AreSpaces more ∧
      code = target ++ (".push(".toList ++ (blanks ++ (source ++ ("[".toList ++ (position ++
        ("]".toList ++ (more ++ (")".toList ++ tail))))))))

/-- The code copies the element at the index in one of the two ways, and the tail follows. -/
def IsCopyStep (copy index tail code : List Char) : Prop :=
  ∃ source, SetsElement copy index source index tail code ∨
    AppendsElement copy source index tail code

/-! ## Where the parts end -/

/-- The text begins with neither white space nor a character of a name. -/
def OpensWithMark (letters : List Char) : Prop :=
  EndsClass (fun letter => isSpace letter || isName letter) letters

namespace OpensWithMark

variable {rest : List Char}

theorem isSpace (opens : OpensWithMark rest) : EndsClass Text.isSpace rest :=
  opens.mono fun letter spaced => by rw [spaced, Bool.true_or]

theorem isName (opens : OpensWithMark rest) : EndsClass Text.isName rest :=
  opens.mono fun letter named => by rw [named, Bool.or_true]

theorem nil : OpensWithMark [] := endsClass_nil

theorem cons {mark : Char} (outside : (Text.isSpace mark || Text.isName mark) = false)
    (letters : List Char) : OpensWithMark (mark :: letters) :=
  endsClass_cons outside letters

/-- A name ends in front of white space, too. -/
theorem isName_spaces {blanks : List Char} (spaced : AreSpaces blanks)
    (opens : OpensWithMark rest) : EndsClass Text.isName (blanks ++ rest) := by
  cases blanks with
  | nil => exact opens.isName
  | cons blank others => exact endsClass_cons (isName_of_isSpace (spaced blank List.mem_cons_self)) _

end OpensWithMark

theorem IsIdentifier.endsSpaces {name : List Char} (identifier : IsIdentifier name)
    (rest : List Char) : EndsClass isSpace (name ++ rest) := by
  obtain ⟨first, others, rfl⟩ := List.exists_cons_of_ne_nil identifier.1
  refine endsClass_cons ?_ (others ++ rest)
  rw [Bool.eq_false_iff]
  intro spaced
  have named := identifier.2 first List.mem_cons_self
  rw [isName_of_isSpace spaced] at named
  cases named

/-! ## Patterns and forms -/

section Patterns

variable {before after letters rest name code : List Char} {patterns : List Pattern}
  {keywords : List String}

/-- A literal is missed where its first character does not stand. -/
theorem misses_mark {text : String} {mark : Char} (starts : text.toList.head? = some mark)
    (other : rest.head? ≠ some mark) : (literal text).Misses before rest := by
  apply misses_literal
  rintro ⟨further, rfl⟩
  rw [List.head?_append, starts] at other
  exact other rfl

theorem prefers_name (number : Nat) (identifier : IsIdentifier name)
    (ends : EndsClass isName after) : (group number Pattern.identifier).Prefers before name after
      [(number, spanBehind before name)] :=
  .group number (.repeated_one identifier.1 identifier.2 ends)

/-- The patterns at the end of a line. -/
def endingPatterns : List Pattern := [spaces, optional (literal ";"), atEnd]

theorem fits_ending :
    (inOrder endingPatterns).Fits before letters after ↔ IsEnding letters ∧ after = [] := by
  simp only [endingPatterns, fits_inOrder_cons, fits_inOrder_nil, fits_spaces, fits_optional, fits_literal,
    fits_atEnd]
  constructor
  · rintro ⟨blanks, _, rfl, spaced, mark, _, rfl, marked, _, _, rfl, ⟨rfl, noRest⟩, rfl⟩
    refine ⟨⟨blanks, spaced, ?_⟩, noRest⟩
    rcases marked with rfl | rfl
    · exact Or.inr rfl
    · exact Or.inl (List.append_nil blanks)
  · rintro ⟨⟨blanks, spaced, rfl | rfl⟩, rfl⟩
    · exact ⟨letters, [], (List.append_nil letters).symm, spaced, [], [], rfl, Or.inr rfl,
        [], [], rfl, ⟨rfl, rfl⟩, rfl⟩
    · exact ⟨blanks, ";".toList, rfl, spaced, ";".toList, [], rfl, Or.inl rfl,
        [], [], rfl, ⟨rfl, rfl⟩, rfl⟩

theorem prefersAll_ending (ending : IsEnding letters) :
    PrefersAll endingPatterns before letters [] [] := by
  obtain ⟨blanks, spaced, rfl | rfl⟩ := ending
  · have noMark : PrefersAll [optional (literal ";"), atEnd] (before ++ letters) [] [] [] :=
      .skip (.optional_none (misses_mark (by rfl) nofun)) (.last .atEnd)
    have whole := PrefersAll.pass (.many_one spaced endsClass_nil) noMark
    rwa [List.append_nil] at whole
  · apply PrefersAll.pass (.many_one spaced (endsClass_cons (by decide) []))
    exact .pass (.preferred (.literal ";")) (.last .atEnd)

theorem fits_typeGiven : typeGiven.Fits before letters after ↔ IsTyping letters := by
  simp only [typeGiven, fits_optional, fits_sequence, fits_literal, noneOf,
    (Spells.repeated_one _).fits_iff]
  rw [Or.comm]
  refine or_congr Iff.rfl ?_
  constructor
  · rintro ⟨_, kind, rfl, rfl, someKind, others⟩
    refine ⟨kind, someKind, fun letter member => ?_, rfl⟩
    simpa using others letter member
  · rintro ⟨kind, someKind, others, rfl⟩
    refine ⟨":".toList, kind, rfl, rfl, someKind, fun letter member => ?_⟩
    simpa using others letter member

theorem prefers_typeGiven (typing : IsTyping letters) (opens : after.head? = some '=') :
    typeGiven.Prefers before letters after [] := by
  obtain ⟨further, rfl⟩ := List.head?_eq_some_iff.mp opens
  obtain rfl | ⟨kind, someKind, others, rfl⟩ := typing
  · exact .optional_none (misses_sequence (misses_mark (by rfl : ":".toList.head? = some ':') (by simp)))
  · have kept : ∀ letter ∈ kind, (!"=".toList.contains letter) = true :=
      fun letter member => by simpa using others letter member
    exact .preferred ((Prefers.literal ":").sequence
      (.repeated_one someKind kept (endsClass_cons (by decide) further)))

/-! ## Declarations -/

/-- What is recorded under a number is found out from the forms of the code, if they determine what
the matcher prefers. -/
theorem captured?_eq_some_iff {pattern : Pattern} {number : Nat} {form : List Char → Prop}
    (formed : pattern.occursIn code = true → ∃ name, form name)
    (captures : ∀ name, form name → captured? pattern number code = some name) :
    captured? pattern number code = some name ↔ form name := by
  constructor
  · intro captured
    have occurs : pattern.occursIn code = true := by
      rw [occursIn, Option.isSome_iff_exists]
      obtain ⟨span, recorded, _⟩ := Option.map_eq_some_iff.mp captured
      obtain ⟨found, foundEq, _⟩ := Option.bind_eq_some_iff.mp recorded
      exact ⟨found, foundEq⟩
    obtain ⟨other, isForm⟩ := formed occurs
    have same := captures other isForm
    rw [captured] at same
    exact Option.some.inj same ▸ isForm
  · exact captures name

theorem alone_of_mem {keyword : String} (known : ∀ word ∈ keywords, word ∈ ["const", "let", "var"])
    (member : keyword ∈ keywords) : ∀ other ∈ keywords, other ≠ keyword →
      ¬ other.toList <+: keyword.toList ++ after := by
  intro other otherMember different
  have apart : ∀ first ∈ ["const", "let", "var"], ∀ second ∈ ["const", "let", "var"],
      first ≠ second → first.toList.head? ≠ second.toList.head? := by decide
  have someLetter : ∀ word ∈ ["const", "let", "var"], word.toList ≠ [] := by decide
  obtain ⟨first, letters, keywordEq⟩ :=
    List.exists_cons_of_ne_nil (someLetter keyword (known keyword member))
  obtain ⟨second, others, otherEq⟩ :=
    List.exists_cons_of_ne_nil (someLetter other (known other otherMember))
  have headsDiffer := apart other (known other otherMember) keyword (known keyword member) different
  rw [keywordEq, otherEq] at headsDiffer ⊢
  rintro ⟨further, shape⟩
  exact headsDiffer (congrArg some (List.cons.inj shape).1)

/-- The pattern of a declaration records the name that the code declares, if its last part fits
exactly what may follow the name and records nothing under the number of the name. -/
theorem captured?_declaration (form : List Char → Prop)
    (known : ∀ word ∈ keywords, word ∈ ["const", "let", "var"])
    (fits : ∀ before letters after, (inOrder patterns).Fits before letters after →
      form letters ∧ after = [])
    (opens : ∀ letters, form letters → OpensWithMark letters)
    (prefers : ∀ before letters, form letters → ∃ spans, PrefersAll patterns before letters [] spans ∧
      ∀ entry ∈ spans, (entry.1 == 1) = false) :
    captured? (inOrder (atStart :: wordOf keywords :: gap :: group 1 Pattern.identifier :: spaces ::
      patterns)) 1 code = some name ↔ ∃ rest, form rest ∧ Declares keywords name rest code := by
  apply captured?_eq_some_iff
  · intro occurs
    obtain ⟨before, run, after, rfl, runFits⟩ := occursIn_iff_fits.mp occurs
    simp only [fits_inOrder_cons, fits_atStart, fits_wordOf, fits_gap, fits_group, fits_identifier,
      fits_spaces] at runFits
    obtain ⟨_, _, rfl, ⟨rfl, rfl⟩, _, _, rfl, ⟨keyword, member, rfl⟩, blanks, _, rfl,
      ⟨someBlank, spaced⟩, name, _, rfl, identifier, more, rest, rfl, spacedMore, restFits⟩ :=
      runFits
    obtain ⟨isForm, rfl⟩ := fits _ _ _ restFits
    refine ⟨name, rest, isForm, keyword, member, blanks, more, someBlank, spaced, identifier,
      spacedMore, ?_⟩
    simp only [List.nil_append, List.append_nil]
  · rintro name ⟨rest, isForm, keyword, member, blanks, more, someBlank, spaced, identifier,
      spacedMore, rfl⟩
    have opensRest := opens rest isForm
    obtain ⟨spans, restPrefers, others⟩ :=
      prefers ([] ++ keyword.toList ++ blanks ++ name ++ more) rest isForm
    have all : PrefersAll (atStart :: wordOf keywords :: gap :: group 1 Pattern.identifier ::
        spaces :: patterns) [] (keyword.toList ++ (blanks ++ (name ++ (more ++ rest)))) []
        (spans ++ [(1, spanBehind ([] ++ keyword.toList ++ blanks) name)]) := by
      apply PrefersAll.skip .atStart
      apply PrefersAll.pass (.wordOf member (alone_of_mem known member))
      apply PrefersAll.pass (.repeated_one someBlank spaced
        (by rw [List.append_nil]; exact identifier.endsSpaces _))
      apply PrefersAll.cons (prefers_name 1 identifier
        (by rw [List.append_nil]; exact opensRest.isName_spaces spacedMore))
      exact .pass (.many_one spacedMore (by rw [List.append_nil]; exact opensRest.isSpace))
        restPrefers
    have found := all.inOrder.search?_eq
    rw [List.append_nil] at found
    have noOther : spans.find? (fun entry => entry.1 == 1) = none :=
      List.find?_eq_none.mpr fun entry member => by rw [others entry member]; decide
    simp only [captured?, found, Option.bind_some, Match.group?, List.find?_append, noOther]
    rfl

theorem opensWithMark_typing (typing : IsTyping letters) :
    OpensWithMark (letters ++ ("=".toList ++ rest)) := by
  obtain rfl | ⟨kind, _, _, rfl⟩ := typing
  · exact .cons (by decide) rest
  · exact .cons (by decide) _

theorem emptyArray_eq : emptyArray = inOrder (atStart :: wordOf ["const", "let", "var"] :: gap ::
    group 1 Pattern.identifier :: spaces :: typeGiven :: literal "=" :: spaces :: literal "[]" ::
      endingPatterns) := rfl

theorem lengthVariable_eq : lengthVariable = inOrder (atStart :: wordOf ["const", "let", "var"] ::
    gap :: group 1 Pattern.identifier :: spaces :: typeGiven :: literal "=" :: spaces ::
      group 2 Pattern.identifier :: literal ".length" :: endingPatterns) := rfl

theorem captured?_emptyArray :
    captured? emptyArray 1 code = some name ↔ IsEmptyArray name code := by
  rw [emptyArray_eq]
  refine captured?_declaration GivesEmptyArray (by decide) ?_ ?_ ?_
  · intro before letters after fits
    simp only [fits_inOrder_cons, fits_typeGiven, fits_literal, fits_spaces, fits_ending] at fits
    obtain ⟨typing, _, rfl, isTyping, _, _, rfl, rfl, blanks, _, rfl, spaced, _, ending, rfl, rfl,
      isEnding, noRest⟩ := fits
    exact ⟨⟨typing, blanks, ending, isTyping, spaced, isEnding, rfl⟩, noRest⟩
  · rintro _ ⟨typing, blanks, ending, isTyping, _, _, rfl⟩
    exact opensWithMark_typing isTyping
  · rintro before _ ⟨typing, blanks, ending, isTyping, spaced, isEnding, rfl⟩
    refine ⟨[], ?_, nofun⟩
    apply PrefersAll.pass (prefers_typeGiven isTyping (by rfl))
    apply PrefersAll.pass (.literal "=")
    apply PrefersAll.pass (.many_one spaced (endsClass_cons (by decide) _))
    exact .pass (.literal "[]") (prefersAll_ending isEnding)

theorem captured?_lengthVariable :
    captured? lengthVariable 1 code = some name ↔ IsLengthVariable name code := by
  rw [lengthVariable_eq]
  refine captured?_declaration GivesLength (by decide) ?_ ?_ ?_
  · intro before letters after fits
    simp only [fits_inOrder_cons, fits_typeGiven, fits_literal, fits_spaces, fits_group,
      fits_identifier, fits_ending] at fits
    obtain ⟨typing, _, rfl, isTyping, _, _, rfl, rfl, blanks, _, rfl, spaced, measured, _, rfl,
      identifier, _, ending, rfl, rfl, isEnding, noRest⟩ := fits
    exact ⟨⟨typing, blanks, measured, ending, isTyping, spaced, identifier, isEnding, rfl⟩, noRest⟩
  · rintro _ ⟨typing, blanks, measured, ending, isTyping, _, _, _, rfl⟩
    exact opensWithMark_typing isTyping
  · rintro before _ ⟨typing, blanks, measured, ending, isTyping, spaced, identifier, isEnding, rfl⟩
    refine ⟨[] ++ [(2, spanBehind (before ++ typing ++ "=".toList ++ blanks) measured)], ?_,
      by simp⟩
    apply PrefersAll.pass (prefers_typeGiven isTyping (by rfl))
    apply PrefersAll.pass (.literal "=")
    apply PrefersAll.pass (.many_one spaced (by rw [List.append_nil]; exact identifier.endsSpaces _))
    apply PrefersAll.cons (prefers_name 2 identifier (endsClass_cons (by decide) _))
    exact .pass (.literal ".length") (prefersAll_ending isEnding)

/-- The pattern of a mark and a word that may be given. -/
def givenPattern (mark word : String) : Pattern :=
  optional (inOrder [literal mark, spaces, literal word, spaces])

theorem indexVariable_eq : indexVariable = inOrder (atStart :: wordOf ["let", "var"] :: gap ::
    group 1 Pattern.identifier :: spaces :: givenPattern ":" "number" :: givenPattern "=" "0" ::
      [optional (literal ";"), atEnd]) := rfl

theorem fits_given {mark word : String} :
    (givenPattern mark word).Fits before letters after ↔ IsGiven mark word letters := by
  simp only [givenPattern, fits_optional, fits_inOrder_cons, fits_inOrder_nil, fits_literal,
    fits_spaces]
  rw [Or.comm]
  refine or_congr Iff.rfl ?_
  constructor
  · rintro ⟨_, _, rfl, rfl, blanks, _, rfl, spaced, _, _, rfl, rfl, more, _, rfl, spacedMore, rfl⟩
    exact ⟨blanks, more, spaced, spacedMore, by rw [List.append_nil]⟩
  · rintro ⟨blanks, more, spaced, spacedMore, rfl⟩
    exact ⟨_, _, rfl, rfl, blanks, _, rfl, spaced, _, more, rfl, rfl, more, [],
      (List.append_nil more).symm, spacedMore, rfl⟩

theorem prefers_given {mark word : String} {sign letter : Char}
    (starts : mark.toList.head? = some sign) (visible : word.toList.head? = some letter)
    (notSpace : isSpace letter = false) (given : IsGiven mark word letters)
    (ends : EndsClass isSpace after) (other : after.head? ≠ some sign) :
    (givenPattern mark word).Prefers before letters after [] := by
  obtain rfl | ⟨blanks, more, spaced, spacedMore, rfl⟩ := given
  · exact .optional_none (misses_inOrder_cons (misses_mark starts other))
  · obtain ⟨others, wordEq⟩ := List.head?_eq_some_iff.mp visible
    have endsBlanks : EndsClass isSpace (word.toList ++ more ++ after) := by
      rw [wordEq]
      exact endsClass_cons notSpace _
    have all : PrefersAll [literal mark, spaces, literal word, spaces] before
        (mark.toList ++ (blanks ++ (word.toList ++ more))) after [] := by
      apply PrefersAll.pass (.literal mark)
      apply PrefersAll.pass (.many_one spaced endsBlanks)
      exact .pass (.literal word) (.last (.many_one spacedMore ends))
    exact .preferred all.inOrder

theorem IsGiven.eq_nil_or {mark word : String} {sign : Char} (given : IsGiven mark word letters)
    (starts : mark.toList.head? = some sign) : letters = [] ∨ ∃ others, letters = sign :: others := by
  obtain rfl | ⟨blanks, more, _, _, rfl⟩ := given
  · exact Or.inl rfl
  · obtain ⟨others, markEq⟩ := List.head?_eq_some_iff.mp starts
    rw [markEq]
    exact Or.inr ⟨_, rfl⟩

theorem captured?_indexVariable :
    captured? indexVariable 1 code = some name ↔ IsIndexVariable name code := by
  have opensEnding : ∀ ending : List Char, ending = [] ∨ ending = ";".toList →
      OpensWithMark ending := by
    rintro _ (rfl | rfl)
    · exact .nil
    · exact .cons (by decide) []
  have opensValue : ∀ value ending : List Char, IsGiven "=" "0" value →
      ending = [] ∨ ending = ";".toList →
        OpensWithMark (value ++ ending) ∧ (value ++ ending).head? ≠ some ':' := by
    intro value ending given isEnding
    obtain rfl | ⟨others, rfl⟩ := given.eq_nil_or (by rfl : "=".toList.head? = some '=')
    · refine ⟨opensEnding ending isEnding, ?_⟩
      rcases isEnding with rfl | rfl <;> decide
    · exact ⟨.cons (by decide) _, by simp⟩
  rw [indexVariable_eq]
  refine captured?_declaration GivesIndex (by decide) ?_ ?_ ?_
  · intro before letters after fits
    simp only [fits_inOrder_cons, fits_inOrder_nil, fits_optional, fits_literal, fits_given,
      fits_atEnd] at fits
    obtain ⟨typing, _, rfl, isTyping, value, _, rfl, isValue, ending, _, rfl, isEnding, _, _, rfl,
      ⟨rfl, noRest⟩, rfl⟩ := fits
    refine ⟨⟨typing, value, ending, isTyping, isValue, isEnding.symm, by simp⟩, noRest⟩
  · rintro _ ⟨typing, value, ending, isTyping, isValue, isEnding, rfl⟩
    obtain rfl | ⟨others, rfl⟩ := isTyping.eq_nil_or (by rfl : ":".toList.head? = some ':')
    · exact (opensValue value ending isValue isEnding).1
    · exact .cons (by decide) _
  · rintro before _ ⟨typing, value, ending, isTyping, isValue, isEnding, rfl⟩
    obtain ⟨opens, other⟩ := opensValue value ending isValue isEnding
    refine ⟨[], ?_, nofun⟩
    apply PrefersAll.pass (prefers_given (by rfl) (by rfl) (by decide) isTyping
      (by rw [List.append_nil]; exact opens.isSpace) (by rw [List.append_nil]; exact other))
    have equals : "=".toList.head? = some '=' := by rfl
    rcases isEnding with rfl | rfl
    · apply PrefersAll.pass (prefers_given equals (by rfl) (by decide) isValue endsClass_nil (by simp))
      exact .skip (.optional_none (misses_mark (by rfl) nofun)) (.last .atEnd)
    · apply PrefersAll.pass (prefers_given equals (by rfl) (by decide) isValue
        (endsClass_cons (by decide) _) (by decide))
      exact .pass (.preferred (.literal ";")) (.last .atEnd)

/-! ## Loops -/

theorem exists_isLoop (occurs : loopHead.occursIn code = true) :
    ∃ index bound, IsLoop index bound code := by
  obtain ⟨before, run, after, rfl, fits⟩ := occursIn_iff_fits.mp occurs
  simp only [loopHead, fits_inOrder_cons, fits_inOrder_nil, fits_atStart, fits_literal, fits_spaces,
    fits_group, fits_identifier, fits_optional, noneOf, (Spells.many_one _).fits_iff] at fits
  obtain ⟨_, _, rfl, ⟨rfl, rfl⟩, _, _, rfl, rfl, blanks, _, rfl, spaced, _, _, rfl, rfl, start, _,
    rfl, noMark, _, _, rfl, rfl, before, _, rfl, spacedBefore, index, _, rfl, isIndex, around, _,
    rfl, spacedAround, _, _, rfl, rfl, behind, _, rfl, spacedBehind, bound, _, rfl, isBound,
    measured, _, rfl, isMeasured, more, _, rfl, spacedMore, _, _, rfl, rfl, rfl⟩ := fits
  refine ⟨index, bound, blanks, start, before, around, behind, measured, more, after, spaced,
    fun letter member => by simpa using noMark letter member, spacedBefore, isIndex, spacedAround,
    spacedBehind, isBound, isMeasured.symm, spacedMore, ?_⟩
  simp only [List.append_assoc, List.nil_append]

/-- What is recorded of a length that may be asked for. -/
def lengthSpans (before letters : List Char) : List (Nat × Span) :=
  if letters = [] then [] else [(3, spanBehind before letters)]

theorem find?_lengthSpans {number : Nat} (other : number ≠ 3) :
    (lengthSpans before letters).find? (fun entry => entry.1 == number) = none := by
  have noMatch : (3 == number) = false := beq_eq_false_iff_ne.mpr (Ne.symm other)
  unfold lengthSpans
  split
  · rfl
  · rw [List.find?_cons, noMatch]
    rfl

theorem prefers_length (measured : letters = [] ∨ letters = ".length".toList)
    (others : after.head? ≠ some '.') :
    (optional (group 3 (literal ".length"))).Prefers before letters after
      (lengthSpans before letters) := by
  obtain rfl | rfl := measured
  · exact .optional_none fun run rest shape fits =>
      misses_mark (by rfl : ".length".toList.head? = some '.') others run rest shape
        (fits_group.mp fits)
  · exact .preferred (.group 3 (.literal ".length"))

theorem IsLoop.loopBound?_eq {index bound : List Char} (loop : IsLoop index bound code) :
    loopBound? code = some (index, bound) := by
  obtain ⟨blanks, start, before, around, behind, measured, more, rest, spaced, noMark, spacedBefore,
    isIndex, spacedAround, spacedBehind, isBound, isMeasured, spacedMore, rfl⟩ := loop
  have kept : ∀ letter ∈ start, (!";".toList.contains letter) = true :=
    fun letter member => by simpa using noMark letter member
  have opensIndex : EndsClass isName (around ++ ("<".toList ++ (behind ++ (bound ++ (measured ++
      (more ++ ";".toList))))) ++ rest) := by
    rw [List.append_assoc]
    exact OpensWithMark.isName_spaces spacedAround (.cons (by decide) _)
  have endsBound : EndsClass isName (measured ++ (more ++ ";".toList) ++ rest) := by
    obtain rfl | rfl := isMeasured
    · rw [List.nil_append, List.append_assoc]
      exact OpensWithMark.isName_spaces spacedMore (.cons (by decide) _)
    · exact endsClass_cons (by decide) _
  have noPeriod : (more ++ ";".toList ++ rest).head? ≠ some '.' := by
    cases more with
    | nil => simp
    | cons first others =>
        intro starts
        have isPeriod : first = '.' := Option.some.inj starts
        exact absurd (isPeriod ▸ spacedMore first List.mem_cons_self) (by decide)
  have all : ∃ front middle last, PrefersAll [atStart, literal "for", spaces, literal "(",
      many (noneOf ";"), literal ";", spaces, group 1 Pattern.identifier, spaces, literal "<", spaces,
      group 2 Pattern.identifier, optional (group 3 (literal ".length")), spaces, literal ";"] []
      ("for".toList ++ (blanks ++ ("(".toList ++ (start ++ (";".toList ++ (before ++ (index ++
        (around ++ ("<".toList ++ (behind ++ (bound ++ (measured ++ (more ++ ";".toList)))))))))))))
      rest ([] ++ lengthSpans last measured ++ [(2, spanBehind middle bound)] ++
        [(1, spanBehind front index)]) := by
    apply Exists.intro
    apply Exists.intro
    apply Exists.intro
    apply PrefersAll.skip .atStart
    apply PrefersAll.pass (.literal "for")
    apply PrefersAll.pass (.many_one spaced (endsClass_cons (by decide) _))
    apply PrefersAll.pass (.literal "(")
    apply PrefersAll.pass (.many_one kept (endsClass_cons (by decide) _))
    apply PrefersAll.pass (.literal ";")
    apply PrefersAll.pass (.many_one spacedBefore (by simpa using isIndex.endsSpaces _))
    apply PrefersAll.cons (prefers_name 1 isIndex opensIndex)
    apply PrefersAll.pass (.many_one spacedAround (endsClass_cons (by decide) _))
    apply PrefersAll.pass (.literal "<")
    apply PrefersAll.pass (.many_one spacedBehind (by simpa using isBound.endsSpaces _))
    apply PrefersAll.cons (prefers_name 2 isBound endsBound)
    apply PrefersAll.cons (prefers_length isMeasured noPeriod)
    exact .pass (.many_one spacedMore (endsClass_cons (by decide) _)) (.last (.literal ";"))
  obtain ⟨front, middle, last, all⟩ := all
  have found := all.inOrder.search?_eq
  simp only [List.append_assoc] at found
  simp only [loopBound?, loopHead, found, Match.group?]
  simp [find?_lengthSpans, spanBehind]

theorem loopBound?_eq_some_iff {index bound : List Char} :
    loopBound? code = some (index, bound) ↔ IsLoop index bound code := by
  constructor
  · intro bounded
    obtain ⟨found, foundEq, _⟩ := Option.bind_eq_some_iff.mp bounded
    have occurs : loopHead.occursIn code = true := by rw [occursIn, foundEq]; rfl
    obtain ⟨otherIndex, otherBound, loop⟩ := exists_isLoop occurs
    have same := bounded.symm.trans loop.loopBound?_eq
    obtain ⟨rfl, rfl⟩ := Prod.mk.inj (Option.some.inj same)
    exact loop
  · exact fun loop => loop.loopBound?_eq

/-! ## Steps -/

variable {target index source position tail : List Char}

theorem exists_setsElement (occurs : indexedStep.occursIn code = true) :
    ∃ target index source position tail, SetsElement target index source position tail code := by
  obtain ⟨before, run, tail, rfl, fits⟩ := occursIn_iff_fits.mp occurs
  simp only [indexedStep, fits_inOrder_cons, fits_inOrder_nil, fits_atStart, fits_literal,
    fits_spaces, fits_group, fits_identifier] at fits
  obtain ⟨_, _, rfl, ⟨rfl, rfl⟩, target, _, rfl, isTarget, _, _, rfl, rfl, index, _, rfl, isIndex,
    _, _, rfl, rfl, blanks, _, rfl, spaced, _, _, rfl, rfl, more, _, rfl, spacedMore, source, _, rfl,
    isSource, _, _, rfl, rfl, position, _, rfl, isPosition, _, _, rfl, rfl, rfl⟩ := fits
  refine ⟨target, index, source, position, tail, isTarget, isIndex, isSource, isPosition, blanks,
    more, spaced, spacedMore, ?_⟩
  simp only [List.append_assoc, List.nil_append]

theorem exists_appendsElement (occurs : appendStep.occursIn code = true) :
    ∃ target source position tail, AppendsElement target source position tail code := by
  obtain ⟨before, run, tail, rfl, fits⟩ := occursIn_iff_fits.mp occurs
  simp only [appendStep, fits_inOrder_cons, fits_inOrder_nil, fits_atStart, fits_literal,
    fits_spaces, fits_group, fits_identifier] at fits
  obtain ⟨_, _, rfl, ⟨rfl, rfl⟩, target, _, rfl, isTarget, _, _, rfl, rfl, blanks, _, rfl, spaced,
    source, _, rfl, isSource, _, _, rfl, rfl, position, _, rfl, isPosition, _, _, rfl, rfl,
    more, _, rfl, spacedMore, _, _, rfl, rfl, rfl⟩ := fits
  refine ⟨target, source, position, tail, isTarget, isSource, isPosition, blanks, more, spaced,
    spacedMore, ?_⟩
  simp only [List.append_assoc, List.nil_append]

/-- What the pattern records of a step that sets an element. -/
theorem SetsElement.search?_eq (sets : SetsElement target index source position tail code) :
    ∃ found, indexedStep.search? code = some found ∧
      (found.group? 1).map (·.letters) = some target ∧
      (found.group? 2).map (·.letters) = some index ∧
      (found.group? 4).map (·.letters) = some position := by
  obtain ⟨isTarget, isIndex, isSource, isPosition, blanks, more, spaced, spacedMore, rfl⟩ := sets
  have all : ∃ first second third fourth, PrefersAll [atStart, group 1 Pattern.identifier,
      literal "[", group 2 Pattern.identifier, literal "]", spaces, literal "=", spaces,
      group 3 Pattern.identifier, literal "[", group 4 Pattern.identifier, literal "]"] []
      (target ++ ("[".toList ++ (index ++ ("]".toList ++ (blanks ++ ("=".toList ++ (more ++
        (source ++ ("[".toList ++ (position ++ "]".toList)))))))))) tail
      ([] ++ [(4, spanBehind fourth position)] ++ [(3, spanBehind third source)] ++
        [(2, spanBehind second index)] ++ [(1, spanBehind first target)]) := by
    apply Exists.intro
    apply Exists.intro
    apply Exists.intro
    apply Exists.intro
    apply PrefersAll.skip .atStart
    apply PrefersAll.cons (prefers_name 1 isTarget (endsClass_cons (by decide) _))
    apply PrefersAll.pass (.literal "[")
    apply PrefersAll.cons (prefers_name 2 isIndex (endsClass_cons (by decide) _))
    apply PrefersAll.pass (.literal "]")
    apply PrefersAll.pass (.many_one spaced (endsClass_cons (by decide) _))
    apply PrefersAll.pass (.literal "=")
    apply PrefersAll.pass (.many_one spacedMore (by simpa using isSource.endsSpaces _))
    apply PrefersAll.cons (prefers_name 3 isSource (endsClass_cons (by decide) _))
    apply PrefersAll.pass (.literal "[")
    apply PrefersAll.cons (prefers_name 4 isPosition (endsClass_cons (by decide) _))
    exact .last (.literal "]")
  obtain ⟨first, second, third, fourth, all⟩ := all
  have found := all.inOrder.search?_eq
  simp only [List.append_assoc] at found
  exact ⟨_, found, rfl, rfl, rfl⟩

/-- What the pattern records of a step that appends an element. -/
theorem AppendsElement.search?_eq (appends : AppendsElement target source position tail code) :
    ∃ found, appendStep.search? code = some found ∧
      (found.group? 1).map (·.letters) = some target ∧
      (found.group? 3).map (·.letters) = some position := by
  obtain ⟨isTarget, isSource, isPosition, blanks, more, spaced, spacedMore, rfl⟩ := appends
  have all : ∃ first second third, PrefersAll [atStart, group 1 Pattern.identifier,
      literal ".push(", spaces, group 2 Pattern.identifier, literal "[",
      group 3 Pattern.identifier, literal "]", spaces, literal ")"] []
      (target ++ (".push(".toList ++ (blanks ++ (source ++ ("[".toList ++ (position ++
        ("]".toList ++ (more ++ ")".toList)))))))) tail
      ([] ++ [(3, spanBehind third position)] ++ [(2, spanBehind second source)] ++
        [(1, spanBehind first target)]) := by
    apply Exists.intro
    apply Exists.intro
    apply Exists.intro
    apply PrefersAll.skip .atStart
    apply PrefersAll.cons (prefers_name 1 isTarget (endsClass_cons (by decide) _))
    apply PrefersAll.pass (.literal ".push(")
    apply PrefersAll.pass (.many_one spaced (by simpa using isSource.endsSpaces _))
    apply PrefersAll.cons (prefers_name 2 isSource (endsClass_cons (by decide) _))
    apply PrefersAll.pass (.literal "[")
    apply PrefersAll.cons (prefers_name 3 isPosition (endsClass_cons (by decide) _))
    apply PrefersAll.pass (.literal "]")
    apply PrefersAll.pass (.many_one spacedMore (endsClass_cons (by decide) _))
    exact .last (.literal ")")
  obtain ⟨first, second, third, all⟩ := all
  have found := all.inOrder.search?_eq
  simp only [List.append_assoc] at found
  exact ⟨_, found, rfl, rfl⟩

/-- A step that appends sets no element. -/
theorem AppendsElement.search?_indexedStep (appends : AppendsElement target source position tail code) :
    indexedStep.search? code = none := by
  rw [← Option.not_isSome_iff_eq_none]
  intro occurs
  obtain ⟨other, index, _, _, _, isOther, _, _, _, blanks, more, _, _, shape⟩ :=
    exists_setsElement occurs
  obtain ⟨isTarget, _, _, _, _, _, _, rfl⟩ := appends
  have behind := (eq_of_endsClass isTarget.2 (endsClass_cons (by decide) _) isOther.2
    (endsClass_cons (by decide) _) shape).2
  exact absurd (List.cons.inj behind).1 (by decide)

theorem SetsElement.copyStep?_eq (sets : SetsElement target index source position tail code) :
    copyStep? code = if index == position then some (target, index) else none := by
  obtain ⟨found, foundEq, isTarget, isIndex, isPosition⟩ := sets.search?_eq
  obtain ⟨first, firstEq, rfl⟩ := Option.map_eq_some_iff.mp isTarget
  obtain ⟨second, secondEq, rfl⟩ := Option.map_eq_some_iff.mp isIndex
  obtain ⟨fourth, fourthEq, rfl⟩ := Option.map_eq_some_iff.mp isPosition
  simp only [copyStep?, foundEq, firstEq, secondEq, fourthEq, Option.bind_eq_bind,
    Option.bind_some]

theorem AppendsElement.copyStep?_eq (appends : AppendsElement target source position tail code) :
    copyStep? code = some (target, position) := by
  obtain ⟨found, foundEq, isTarget, isPosition⟩ := appends.search?_eq
  obtain ⟨first, firstEq, rfl⟩ := Option.map_eq_some_iff.mp isTarget
  obtain ⟨third, thirdEq, rfl⟩ := Option.map_eq_some_iff.mp isPosition
  simp only [copyStep?, appends.search?_indexedStep, foundEq, firstEq, thirdEq,
    Option.bind_eq_bind, Option.bind_some]

theorem copyStep?_eq_some_iff {copy : List Char} :
    copyStep? code = some (copy, index) ↔ ∃ tail, IsCopyStep copy index tail code := by
  constructor
  · intro steps
    by_cases occurs : indexedStep.occursIn code = true
    · obtain ⟨target, targetIndex, source, position, tail, sets⟩ := exists_setsElement occurs
      rw [sets.copyStep?_eq] at steps
      split at steps
      · next same =>
          cases steps
          exact ⟨tail, source, Or.inl (beq_iff_eq.mp same ▸ sets)⟩
      · cases steps
    · have notFound : indexedStep.search? code = none := Option.not_isSome_iff_eq_none.mp occurs
      have appended : appendStep.occursIn code = true := by
        rw [copyStep?, notFound] at steps
        obtain ⟨found, foundEq, _⟩ := Option.bind_eq_some_iff.mp steps
        rw [occursIn, foundEq]
        rfl
      obtain ⟨target, source, position, tail, appends⟩ := exists_appendsElement appended
      cases appends.copyStep?_eq.symm.trans steps
      exact ⟨tail, source, Or.inr appends⟩
  · rintro ⟨tail, source, sets | appends⟩
    · rw [sets.copyStep?_eq, beq_self_eq_true, if_pos rfl]
    · exact appends.copyStep?_eq

end Patterns

end ScriptLint.ArrayCopy
