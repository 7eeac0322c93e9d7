import ScriptLint.Proofs.Text.Words
import ScriptLint.Source.Brace

/-!
# What the braces of simple heads open

A condition opens no expression, a declared name that is set to a brace and a key inside of an
object open objects, and an enumeration opens an enumeration, whatever their names are, as long as
these do not make up a head of another kind.
-/

namespace ScriptLint

open Text Text.Pattern

namespace Text.Pattern

variable {marker : String} {letters : List Char}

theorem head?_append_any {word : List Char} (nonempty : word ≠ [])
    (inside : ∀ letter ∈ word, isWord letter = true) (rest : List Char) :
    (word ++ rest).head?.any isWord = true := by
  cases word with
  | nil => exact absurd rfl nonempty
  | cons letter others => simpa using inside letter List.mem_cons_self

theorem getLast?_append_any {word : List Char} (nonempty : word ≠ [])
    (inside : ∀ letter ∈ word, isWord letter = true) (front : List Char) :
    (front ++ word).getLast?.any isWord = true := by
  obtain ⟨initial, last, rfl⟩ := (List.eq_nil_or_concat' word).resolve_left nonempty
  have isLast : isWord last = true := inside last (List.mem_append_right initial List.mem_cons_self)
  simpa using isLast

/-- A word with edges on both sides is a whole word of the text. -/
theorem exists_wholeWord (nonempty : marker.toList ≠ [])
    (inside : ∀ letter ∈ marker.toList, isWord letter = true)
    (occurs : (inOrder [atWordEdge, literal marker, atWordEdge]).occursIn letters = true) :
    ∃ before after, letters = before ++ marker.toList ++ after ∧
      before.getLast?.any isWord = false ∧ EndsClass isWord after := by
  obtain ⟨before, run, after, rfl, fits⟩ := occursIn_iff_fits.mp occurs
  simp only [fits_inOrder_cons, fits_inOrder_nil, fits_atWordEdge, fits_literal] at fits
  obtain ⟨_, _, rfl, ⟨rfl, opens⟩, _, _, rfl, rfl, _, _, rfl, ⟨rfl, closes⟩, rfl⟩ := fits
  refine ⟨before, after, by simp, ?_, ?_⟩
  · have shown := head?_append_any nonempty inside after
    rw [List.append_nil, List.append_nil, shown] at opens
    exact Bool.eq_false_iff.mpr opens
  · have shown := getLast?_append_any nonempty inside before
    rw [List.append_nil, List.nil_append, shown] at closes
    exact Bool.eq_false_iff.mpr closes.symm

/-- A word of a list at the start with an edge behind it is the first word of the text. -/
theorem exists_leadingWord {words : List String} (nonempty : ∀ word ∈ words, word.toList ≠ [])
    (inside : ∀ word ∈ words, word.toList.all isWord = true)
    (occurs : (inOrder [atStart, wordOf words, atWordEdge]).occursIn letters = true) :
    ∃ word ∈ words, ∃ after, letters = word.toList ++ after ∧ EndsClass isWord after ∧
      ∀ letter ∈ word.toList, isWord letter = true := by
  obtain ⟨before, run, after, rfl, fits⟩ := occursIn_iff_fits.mp occurs
  simp only [fits_inOrder_cons, fits_inOrder_nil, fits_atStart, fits_wordOf,
    fits_atWordEdge] at fits
  obtain ⟨_, _, rfl, ⟨rfl, rfl⟩, _, _, rfl, ⟨word, member, rfl⟩, _, _, rfl, ⟨rfl, closes⟩, rfl⟩ :=
    fits
  have insideWord := List.all_eq_true.mp (inside word member)
  refine ⟨word, member, after, by simp, ?_, insideWord⟩
  have shown := getLast?_append_any (nonempty word member) insideWord []
  rw [List.append_nil, shown] at closes
  exact Bool.eq_false_iff.mpr closes.symm

end Text.Pattern

namespace Brace

variable {name letters : List Char} {last : Char}

theorem mem_of_getLast?_append {front back : List Char} (nonempty : back ≠ [])
    (ends : (front ++ back).getLast? = some last) : last ∈ back := by
  rw [List.getLast?_append_of_ne_nil _ nonempty] at ends
  exact List.mem_of_getLast? ends

/-- The head of an enumeration ends with a name or with white space. -/
theorem not_enumHeader (ends : letters.getLast? = some last) (noSpace : isSpace last = false)
    (noName : isName last = false) : enumHeader.occursIn letters = false := by
  rw [Bool.eq_false_iff]
  intro occurs
  obtain ⟨before, run, after, rfl, fits⟩ := occursIn_iff_fits.mp occurs
  simp only [enumHeader, fits_inOrder_cons, fits_inOrder_nil, fits_atWordEdge, fits_literal,
    fits_gap, fits_identifier, fits_spaces, fits_atEnd] at fits
  obtain ⟨_, _, rfl, ⟨rfl, _⟩, _, _, rfl, rfl, gap, _, rfl, _, word, _, rfl, ⟨nonempty, named⟩,
    spaces, _, rfl, spaced, _, _, rfl, ⟨rfl, noRest⟩, rfl⟩ := fits
  have someEnd : word ++ spaces ≠ [] := by simp [nonempty]
  have noAfter : after = [] := noRest
  -- so the last character is one of the name or of the white space behind it
  have atEnd : ((before ++ "enum".toList ++ gap) ++ (word ++ spaces)).getLast? = some last := by
    simpa [noAfter] using ends
  rcases List.mem_append.mp (mem_of_getLast?_append someEnd atEnd) with inWord | inSpaces
  · rw [named last inWord] at noName
    cases noName
  · rw [spaced last inSpaces] at noSpace
    cases noSpace

/-- An alias ends with an equals sign or with white space. -/
theorem not_aliasHeader_of_getLast? (ends : letters.getLast? = some last)
    (noSpace : isSpace last = false) (noEquals : last ≠ '=') :
    aliasHeader.occursIn letters = false := by
  rw [Bool.eq_false_iff]
  intro occurs
  obtain ⟨before, run, after, rfl, fits⟩ := occursIn_iff_fits.mp occurs
  simp only [aliasHeader, fits_inOrder_cons, fits_inOrder_nil, fits_literal, fits_spaces,
    fits_atEnd] at fits
  obtain ⟨_, _, rfl, _, _, _, rfl, _, _, _, rfl, _, _, _, rfl, _, _, _, rfl, _, _, _, rfl, _,
    _, _, rfl, _, _, _, rfl, rfl, spaces, _, rfl, spaced, _, _, rfl, ⟨rfl, noRest⟩, rfl⟩ := fits
  have noAfter : after = [] := noRest
  simp only [noAfter, List.append_nil, ← List.append_assoc] at ends
  rw [List.append_assoc] at ends
  have someEnd : "=".toList ++ spaces ≠ [] := List.cons_ne_nil _ _
  rcases List.mem_append.mp (mem_of_getLast?_append someEnd ends) with isEquals | inSpaces
  · exact noEquals (List.mem_singleton.mp isEquals)
  · rw [spaced last inSpaces] at noSpace
    cases noSpace

/-- An alias begins with a word of its own. -/
theorem not_aliasHeader_of_head? {first : Char} (opens : letters.head? = some first)
    (other : first ≠ 'e' ∧ first ≠ 'd' ∧ first ≠ 't') : aliasHeader.occursIn letters = false := by
  rw [Bool.eq_false_iff]
  intro occurs
  obtain ⟨before, run, after, rfl, fits⟩ := occursIn_iff_fits.mp occurs
  simp only [aliasHeader, fits_inOrder_cons, fits_inOrder_nil, fits_atStart, fits_optional,
    fits_literal] at fits
  obtain ⟨_, _, rfl, ⟨rfl, rfl⟩, exported, _, rfl, isExported, declared, _, rfl, isDeclared, _, _,
    rfl, rfl, _⟩ := fits
  rcases isExported with ⟨_, _, rfl, rfl, _⟩ | rfl
  · exact other.1 (Option.some.inj opens).symm
  · rcases isDeclared with ⟨_, _, rfl, rfl, _⟩ | rfl
    · exact other.2.1 (Option.some.inj opens).symm
    · exact other.2.2 (Option.some.inj opens).symm

theorem only_bindingHead :
    bindingHead.Only fun letter => isWord letter = true ∨ isSpace letter = true := by
  have wordsOf {words : List String}
      (each : ∀ word ∈ words, word.toList.all isWord = true) :
      (wordOf words).Only fun letter => isWord letter = true ∨ isSpace letter = true :=
    only_wordOf fun word member letter letterMember =>
      Or.inl (List.all_eq_true.mp (each word member) letter letterMember)
  have wordOnly {word : String} (each : word.toList.all isWord = true) :
      (literal word).Only fun letter => isWord letter = true ∨ isSpace letter = true :=
    only_literal fun letter member => Or.inl (List.all_eq_true.mp each letter member)
  have gapOnly : gap.Only fun letter => isWord letter = true ∨ isSpace letter = true :=
    ⟨fun _ => Or.inr, fun _ => Or.inr⟩
  apply only_inOrder
  simp only [List.forall_mem_cons]
  refine ⟨trivial, only_firstOf ?_, trivial, List.forall_mem_nil _⟩
  simp only [List.forall_mem_cons]
  refine ⟨only_inOrder ?imports, only_inOrder ?declarations, List.forall_mem_nil _⟩
  case imports =>
    simp only [List.forall_mem_cons]
    refine ⟨wordsOf (by decide), only_optional (only_inOrder ?_), List.forall_mem_nil _⟩
    simp only [List.forall_mem_cons]
    exact ⟨gapOnly, wordOnly (by decide), List.forall_mem_nil _⟩
  case declarations =>
    simp only [List.forall_mem_cons]
    refine ⟨only_optional (only_inOrder ?_), wordsOf (by decide), List.forall_mem_nil _⟩
    simp only [List.forall_mem_cons]
    exact ⟨wordOnly (by decide), gapOnly, List.forall_mem_nil _⟩

/-- The head of a list of names consists of words and white space. -/
theorem not_bindingHead {mark : Char} (member : mark ∈ letters) (noWord : isWord mark = false)
    (noSpace : isSpace mark = false) : bindingHead.occursIn letters = false := by
  rw [Bool.eq_false_iff]
  intro occurs
  obtain ⟨before, run, after, rfl, fits⟩ := occursIn_iff_fits.mp occurs
  have inRun : mark ∈ run := by
    simp only [bindingHead, fits_inOrder_cons, fits_inOrder_nil, fits_atStart, fits_atEnd] at fits
    obtain ⟨_, _, rfl, ⟨rfl, rfl⟩, head, _, rfl, _, _, _, rfl, ⟨rfl, noRest⟩, rfl⟩ := fits
    have noAfter : after = [] := noRest
    simpa [noAfter] using member
  rcases fits.only only_bindingHead mark inRun with isWord | isSpace
  · rw [noWord] at isWord
    cases isWord
  · rw [noSpace] at isSpace
    cases isSpace

/-- Between the word of an interface and its name there is white space. -/
theorem exists_of_interfaceHeader (occurs : interfaceHeader.occursIn letters = true) :
    ∃ before space first after, letters = before ++ space :: first :: after ∧
      isSpace space = true ∧ isName first = true ∧ 9 ≤ before.length := by
  obtain ⟨before, run, after, rfl, fits⟩ := occursIn_iff_fits.mp occurs
  simp only [interfaceHeader, fits_inOrder_cons, fits_inOrder_nil, fits_atWordEdge, fits_literal,
    fits_gap, fits_identifier] at fits
  obtain ⟨_, _, rfl, ⟨rfl, _⟩, _, _, rfl, rfl, gap, _, rfl, ⟨someGap, spaced⟩, word, _, rfl,
    ⟨someWord, named⟩, rfl⟩ := fits
  obtain ⟨others, space, rfl⟩ := (List.eq_nil_or_concat' gap).resolve_left someGap
  obtain ⟨first, rest, rfl⟩ := List.exists_cons_of_ne_nil someWord
  refine ⟨before ++ "interface".toList ++ others, space, first, rest ++ after, by simp, ?_, ?_, ?_⟩
  · exact spaced space (List.mem_append_right others List.mem_cons_self)
  · exact named first List.mem_cons_self
  · have length : "interface".toList.length = 9 := rfl
    simp only [List.length_append, length]
    omega

/-! ## Whole words -/

def controlWords : List String :=
  ["if", "else", "for", "while", "do", "switch", "try", "catch", "finally", "with"]

theorem controlHeader_eq :
    controlHeader = inOrder [atStart, wordOf controlWords, atWordEdge] := rfl

theorem not_controlHeader {word rest : List Char} (inside : ∀ letter ∈ word, isWord letter = true)
    (ends : EndsClass isWord rest) (other : ∀ control ∈ controlWords, word ≠ control.toList) :
    controlHeader.occursIn (word ++ rest) = false := by
  rw [Bool.eq_false_iff, controlHeader_eq]
  intro occurs
  obtain ⟨control, member, after, same, endsControl, insideControl⟩ :=
    exists_leadingWord (by decide) (by decide) occurs
  exact other control member (eq_of_endsClass inside ends insideControl endsControl same).1

/-- A class is found at the start or behind a character that is no part of a word. -/
theorem exists_of_classHeader (occurs : classHeader.occursIn letters = true) :
    ∃ after, EndsClass isWord after ∧ (letters = "class".toList ++ after ∨
      ∃ before mark, mark.isAlpha = false ∧
        letters = before ++ mark :: ("class".toList ++ after)) := by
  obtain ⟨before, after, same, edge, ends⟩ :=
    exists_wholeWord (by decide) (List.all_eq_true.mp (by decide)) occurs
  refine ⟨after, ends, ?_⟩
  rcases List.eq_nil_or_concat' before with rfl | ⟨others, mark, rfl⟩
  · exact Or.inl same
  · refine Or.inr ⟨others, mark, ?_, by rw [same]; simp⟩
    have outside : isWord mark = false := by simpa using edge
    rw [Bool.eq_false_iff]
    intro alphabetic
    rw [isWord_of_isAlpha alphabetic] at outside
    cases outside

variable (alphabetic : ∀ letter ∈ name, letter.isAlpha = true)

include alphabetic in
theorem isWord_of_mem : ∀ letter ∈ name, isWord letter = true :=
  fun letter member => isWord_of_isAlpha (alphabetic letter member)

/-! ## A name that is set -/

def declaredHead (name : List Char) : List Char := "const".toList ++ ' ' :: (name ++ [' ', '='])

theorem declaredHead_eq (name : List Char) :
    declaredHead name = ("const".toList ++ ' ' :: (name ++ [' '])) ++ "=".toList := by
  simp [declaredHead]

theorem getLast?_declaredHead (name : List Char) : (declaredHead name).getLast? = some '=' := by
  rw [declaredHead_eq]
  exact List.getLast?_concat

section Declared

include alphabetic

/-- Behind a character that is no letter stands the name, the equals sign or nothing. -/
theorem cut_declaredHead {mark : Char} {before after : List Char} (outside : mark.isAlpha = false)
    (same : declaredHead name = before ++ mark :: after) :
    before = "const".toList ∧ after = name ++ [' ', '='] ∨ after = ['='] ∨ after = [] := by
  have insideConst : ∀ letter ∈ "const".toList, letter.isAlpha = true :=
    List.all_eq_true.mp (by decide)
  obtain ⟨first, rfl, restEq⟩ := exists_append_of_inside insideConst outside same
  cases first with
  | nil =>
      obtain ⟨rfl, rfl⟩ := List.cons.inj restEq
      exact Or.inl ⟨List.append_nil _, rfl⟩
  | cons space first =>
      obtain ⟨_, restEq⟩ := List.cons.inj restEq
      obtain ⟨second, rfl, lastEq⟩ := exists_append_of_inside alphabetic outside restEq
      right
      cases second with
      | nil => exact Or.inl (List.cons.inj lastEq).2.symm
      | cons space second =>
          obtain ⟨_, lastEq⟩ := List.cons.inj lastEq
          cases second with
          | nil => exact Or.inr (List.cons.inj lastEq).2.symm
          | cons equals second => simp at lastEq

theorem not_interfaceHeader_declaredHead :
    interfaceHeader.occursIn (declaredHead name) = false := by
  rw [Bool.eq_false_iff]
  intro occurs
  obtain ⟨before, space, first, after, same, spaced, named, long⟩ :=
    exists_of_interfaceHeader occurs
  have cut := cut_declaredHead alphabetic (isAlpha_of_isSpace spaced) same
  -- behind `const` the white space comes too early for the word of an interface
  rcases cut with ⟨rfl, _⟩ | isEquals | isEnd
  · have length : "const".toList.length = 5 := rfl
    omega
  · obtain ⟨rfl, _⟩ := List.cons.inj isEquals
    exact absurd named (by decide)
  · cases isEnd

theorem not_classHeader_declaredHead (noClass : name ≠ "class".toList) :
    classHeader.occursIn (declaredHead name) = false := by
  rw [Bool.eq_false_iff]
  intro occurs
  obtain ⟨after, ends, same | ⟨before, mark, outside, same⟩⟩ := exists_of_classHeader occurs
  · obtain ⟨_, same⟩ := List.cons.inj same
    obtain ⟨isLetter, _⟩ := List.cons.inj same
    exact absurd isLetter (by decide)
  · rcases cut_declaredHead alphabetic outside same with ⟨_, restEq⟩ | isEquals | isEnd
    · have spaceEnds : EndsClass isWord [' ', '='] := endsClass_cons (by decide) _
      have insideClass : ∀ letter ∈ "class".toList, isWord letter = true :=
        List.all_eq_true.mp (by decide)
      have whole :=
        eq_of_endsClass insideClass ends (isWord_of_mem alphabetic) spaceEnds restEq
      exact noClass whole.1.symm
    · obtain ⟨isLetter, _⟩ := List.cons.inj isEquals
      exact absurd isLetter (by decide)
    · cases isEnd

theorem kindAfter_declaredHead (noClass : name ≠ "class".toList) (top : Option Frame) :
    kindAfter (declaredHead name) top = .object := by
  have ends := getLast?_declaredHead name
  have noAlias : aliasHeader.occursIn (declaredHead name) = false :=
    not_aliasHeader_of_head? rfl (by decide)
  have noControl : controlHeader.occursIn (declaredHead name) = false :=
    not_controlHeader (List.all_eq_true.mp (by decide)) (endsClass_cons (by decide) _) (by decide)
  have noBinding : bindingHead.occursIn (declaredHead name) = false :=
    not_bindingHead (List.mem_of_getLast? ends) (by decide) (by decide)
  have noColon : endsIn ":" (declaredHead name) = false := not_endsIn rfl ends (by decide)
  have noArrow : endsIn "=>" (declaredHead name) = false := not_endsIn rfl ends (by decide)
  have isObject : objectEndings.any (endsIn · (declaredHead name)) = true := by
    rw [List.any_eq_true]
    exact ⟨"=", by decide, endsIn_of_eq_append (declaredHead_eq name)⟩
  simp only [kindAfter, not_enumHeader ends rfl (by decide), noAlias, noControl, noBinding, noColon,
    noArrow, isObject, not_interfaceHeader_declaredHead alphabetic,
    not_classHeader_declaredHead alphabetic noClass, Bool.or_false, Bool.true_or,
    Bool.false_eq_true, if_false, if_true]

end Declared

/-! ## A key -/

def keyHead (name : List Char) : List Char := name ++ ":".toList

section Key

include alphabetic

/-- Nothing stands behind a character of a key that is no letter. -/
theorem cut_keyHead {mark : Char} {before after : List Char} (outside : mark.isAlpha = false)
    (same : keyHead name = before ++ mark :: after) : after = [] := by
  obtain ⟨between, rfl, restEq⟩ := exists_append_of_inside alphabetic outside same
  cases between with
  | nil => exact (List.cons.inj restEq).2.symm
  | cons colon between => simp at restEq

theorem not_interfaceHeader_keyHead : interfaceHeader.occursIn (keyHead name) = false := by
  rw [Bool.eq_false_iff]
  intro occurs
  obtain ⟨before, space, first, after, same, spaced, _⟩ := exists_of_interfaceHeader occurs
  cases cut_keyHead alphabetic (isAlpha_of_isSpace spaced) same

theorem not_classHeader_keyHead (noClass : name ≠ "class".toList) :
    classHeader.occursIn (keyHead name) = false := by
  rw [Bool.eq_false_iff]
  intro occurs
  obtain ⟨after, ends, same | ⟨before, mark, outside, same⟩⟩ := exists_of_classHeader occurs
  · have colonEnds : EndsClass isWord ":".toList := endsClass_cons (by decide) _
    have insideClass : ∀ letter ∈ "class".toList, isWord letter = true :=
      List.all_eq_true.mp (by decide)
    have whole := eq_of_endsClass (isWord_of_mem alphabetic) colonEnds insideClass ends same
    exact noClass whole.1
  · cases cut_keyHead alphabetic outside same

/-- A key that is no word of the language opens an object inside of an object. -/
theorem kindAfter_keyHead (noClass : name ≠ "class".toList) (noDefault : name ≠ "default".toList)
    (noControl : ∀ control ∈ controlWords, name ≠ control.toList) (line : Nat) :
    kindAfter (keyHead name) (some (.brace .object line)) = .object := by
  have ends : (keyHead name).getLast? = some ':' := List.getLast?_concat
  have noAlias : aliasHeader.occursIn (keyHead name) = false :=
    not_aliasHeader_of_getLast? ends rfl (by decide)
  have noControl : controlHeader.occursIn (keyHead name) = false :=
    not_controlHeader (isWord_of_mem alphabetic) (endsClass_cons (by decide) _) noControl
  have noBinding : bindingHead.occursIn (keyHead name) = false :=
    not_bindingHead (List.mem_of_getLast? ends) (by decide) (by decide)
  have colon : endsIn ":" (keyHead name) = true := endsIn_of_eq_append rfl
  have noCase : beginsWith "case " (keyHead name) = false := by
    rw [Bool.eq_false_iff]
    intro begins
    obtain ⟨rest, same⟩ := List.isPrefixOf_iff_prefix.mp begins
    have cut : keyHead name = "case".toList ++ ' ' :: rest := same.symm
    have noRest : rest = [] := cut_keyHead alphabetic rfl cut
    rw [cut, noRest] at ends
    cases ends
  have notDefault : (keyHead name == "default:".toList) = false := by
    rw [beq_eq_false_iff_ne]
    intro same
    exact noDefault (List.append_cancel_right (same : name ++ ":".toList = "default".toList ++ _))
  have inObject :
      (((some (Frame.brace .object line)).bind Frame.braceKind?) == some .object) = true := rfl
  simp only [kindAfter, not_enumHeader ends rfl (by decide), noAlias, noControl, noBinding, colon,
    noCase, notDefault, inObject, not_interfaceHeader_keyHead alphabetic,
    not_classHeader_keyHead alphabetic noClass, Bool.or_false, Bool.false_eq_true, if_false,
    if_true]

end Key

/-! ## An enumeration and a condition -/

def enumHead (name : List Char) : List Char := "enum ".toList ++ name

include alphabetic in
theorem kindAfter_enumHead (nonempty : name ≠ []) (top : Option Frame) :
    kindAfter (enumHead name) top = .enumeration := by
  have named : ∀ letter ∈ name, isName letter = true :=
    fun letter member => isName_of_isAlpha (alphabetic letter member)
  have fits : enumHeader.Fits [] (enumHead name) [] := by
    simp only [enumHeader, fits_inOrder_cons, fits_inOrder_nil, fits_atWordEdge, fits_literal,
      fits_gap, fits_identifier, fits_spaces, fits_atEnd]
    have spaced : ∀ letter ∈ [' '], isSpace letter = true := List.forall_mem_singleton.mpr rfl
    -- `enum`, a space, the name and no white space behind it
    exact ⟨[], enumHead name, rfl, ⟨rfl, Bool.false_ne_true⟩, "enum".toList, ' ' :: name, rfl, rfl,
      [' '], name, rfl, ⟨List.cons_ne_nil _ _, spaced⟩, name, [], (List.append_nil name).symm,
      ⟨nonempty, named⟩, [], [], rfl, List.forall_mem_nil _, [], [], rfl, ⟨rfl, rfl⟩, rfl⟩
  have occurs : enumHeader.occursIn (enumHead name) = true :=
    occursIn_iff_fits.mpr ⟨[], enumHead name, [], (List.append_nil _).symm, fits⟩
  simp only [kindAfter, occurs, if_true]

def conditionHead (name : List Char) : List Char := "if (".toList ++ name ++ ")".toList

theorem controlHeader_conditionHead (name : List Char) :
    controlHeader.occursIn (conditionHead name) = true := by
  have fits : controlHeader.Fits [] "if".toList (" (".toList ++ name ++ ")".toList) := by
    simp only [controlHeader, fits_inOrder_cons, fits_inOrder_nil, fits_atStart, fits_wordOf,
      fits_atWordEdge]
    exact ⟨[], "if".toList, rfl, ⟨rfl, trivial⟩, "if".toList, [], rfl, ⟨"if", by decide, rfl⟩, [],
      [], rfl, ⟨rfl, Bool.false_ne_true.symm⟩, rfl⟩
  exact occursIn_iff_fits.mpr ⟨[], "if".toList, _, rfl, fits⟩

/-- The lines of a condition are statements. -/
theorem isExpression_conditionHead (name : List Char) (top : Option Frame) (line : Nat) :
    (Frame.brace (kindAfter (conditionHead name) top) line).isExpression = false := by
  have ends : (conditionHead name).getLast? = some ')' := List.getLast?_concat
  have noEnum : enumHeader.occursIn (conditionHead name) = false :=
    not_enumHeader ends rfl (by decide)
  simp only [kindAfter, noEnum, controlHeader_conditionHead, Bool.false_eq_true, if_false, if_true]
  split_ifs
  · rfl
  · rfl
  · rfl

/-! ## The segment before a brace -/

theorem endsSegment_of_isSpace {letter : Char} (spaced : isSpace letter = true) :
    endsSegment letter = false := by
  simp only [endsSegment, Bool.or_eq_false_iff, beq_eq_false_iff_ne]
  refine ⟨⟨?_, ?_⟩, ?_⟩
  all_goals
    rintro rfl
    cases spaced

theorem endsSegment_of_all {word : String}
    (goesOn : word.toList.all (fun letter => !endsSegment letter) = true) :
    ∀ letter ∈ word.toList, endsSegment letter = false :=
  fun letter member => (Bool.not_eq_true' _).mp (List.all_eq_true.mp goesOn letter member)

/-- A brace is judged by the head before it on its line, if this ends no segment. -/
theorem judge_of_head {indent head : List Char} (nonempty : head ≠ [])
    (spaced : ∀ letter ∈ indent, isSpace letter = true) (starts : EndsClass isSpace head)
    (ends : EndsClass isSpace head.reverse) (inside : ∀ letter ∈ head, endsSegment letter = false)
    (previous : List Char) (top : Option Frame) :
    judge (indent ++ head ++ [' ']).reverse previous top = kindAfter head top := by
  have goesOn : ∀ letter ∈ (indent ++ head ++ [' ']).reverse, (!endsSegment letter) = true := by
    intro letter member
    rw [Bool.not_eq_true']
    simp only [List.mem_reverse, List.mem_append, List.mem_singleton] at member
    rcases member with (inIndent | inHead) | rfl
    · exact endsSegment_of_isSpace (spaced letter inIndent)
    · exact inside letter inHead
    · rfl
  have segment : segmentOf (indent ++ head ++ [' ']).reverse = head := by
    rw [segmentOf, List.takeWhile_eq_self_iff.mpr goesOn, List.reverse_reverse]
    exact trim_append ends (List.forall_mem_singleton.mpr rfl) spaced starts
  have someHead : head.isEmpty = false := List.isEmpty_eq_false_iff.mpr nonempty
  simp only [judge, segment, someHead, Bool.false_eq_true, if_false]

end Brace

end ScriptLint
