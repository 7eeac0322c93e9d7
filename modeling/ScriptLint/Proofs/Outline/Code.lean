import ScriptLint.Outline.Basic
import ScriptLint.Proofs.Document.Phrases
import ScriptLint.Proofs.Text.Keywords

/-!
# What the code of a line declares

Code declares nothing unless one of its words is the keyword of a declaration. The head of a class,
the head of a method and the declaration of a variable, written with one space between their parts,
declare exactly the name that they give, at its column, whatever the names are, as long as they are
no keywords themselves.
-/

namespace ScriptLint

open Text Text.Pattern

variable {code : List Char} {index : Nat} {line : ScannedLine} {enclosing : Option (List Char)}
  {before after : List Char}

/-! ## Names -/

/-- The keywords behind which a name is declared. -/
def declaringWords : List String := ["class", "enum", "interface", "let", "const", "var"]

/-- A word of letters that is neither the keyword of a declaration nor a member that is skipped, and
does not begin as a function does. -/
structure Title extends Name (declaringWords ++ Declaration.skippedMembers) where
  noFunction : ¬ "function".toList <+: letters

/-- A word behind which nothing is declared. -/
structure IsOrdinary (word : List Char) : Prop where
  ne_keyword : ∀ keyword ∈ declaringWords, word ≠ keyword.toList
  noFunction : ¬ "function".toList <+: word

/-- All words of the code are ordinary ones. -/
def AreOrdinary (code : List Char) : Prop := ∀ word ∈ words code, IsOrdinary word

theorem Title.isOrdinary (title : Title) : IsOrdinary title.letters where
  ne_keyword keyword member := title.free keyword (List.mem_append_left _ member)
  noFunction := title.noFunction

theorem AreOrdinary.not_mem (ordinary : AreOrdinary code) :
    ∀ keyword ∈ declaringWords, keyword.toList ∉ words code :=
  fun keyword isKeyword member => (ordinary _ member).ne_keyword keyword isKeyword rfl

theorem areOrdinary_append (blank : ∀ letter ∈ before, letter.isAlpha = false)
    (ordinary : AreOrdinary code) : AreOrdinary (before ++ code) := by
  intro word member
  rw [words_append_of_forall blank] at member
  rcases List.mem_append.mp member with isEmpty | later
  · rw [List.eq_of_mem_replicate isEmpty]
    exact ⟨by decide, by decide⟩
  · exact ordinary word later

theorem areOrdinary_cons {word : List Char} (alphabetic : ∀ letter ∈ word, letter.isAlpha = true)
    (isOrdinary : IsOrdinary word) {mark : Char} (outside : mark.isAlpha = false)
    (ordinary : AreOrdinary code) : AreOrdinary (word ++ mark :: code) := by
  rw [AreOrdinary, words_append_cons _ outside, words_of_isAlpha alphabetic]
  exact List.forall_mem_cons.mpr ⟨isOrdinary, ordinary⟩

theorem areOrdinary_nil : AreOrdinary [] :=
  List.forall_mem_singleton.mpr ⟨by decide, by decide⟩

theorem areOrdinary_marks (blank : ∀ letter ∈ before, letter.isAlpha = false) :
    AreOrdinary before := by
  have whole := areOrdinary_append blank areOrdinary_nil
  rwa [List.append_nil] at whole

namespace Title

theorem isName_of_mem (title : Title) : ∀ letter ∈ title.letters, isName letter = true :=
  fun letter member => isName_of_isAlpha (title.alphabetic letter member)

/-- A name is taken whole if no further character of a name follows. -/
theorem prefers (title : Title) (before : List Char) (ends : EndsClass isName after) :
    identifier.Prefers before title.letters after [] :=
  .repeated_one title.nonempty title.isName_of_mem ends

theorem endsClass_isSpace (title : Title) (after : List Char) :
    EndsClass isSpace (title.letters ++ after) := by
  obtain ⟨first, found, alphabetic⟩ := title.exists_head?
  rw [EndsClass, List.head?_append, found]
  exact isSpace_of_isAlpha alphabetic

theorem areOrdinary_cons (title : Title) {mark : Char} (outside : mark.isAlpha = false)
    (ordinary : AreOrdinary code) : AreOrdinary (title.letters ++ mark :: code) :=
  ScriptLint.areOrdinary_cons title.alphabetic title.isOrdinary outside ordinary

end Title

/-- The edge in front of a word. -/
theorem prefers_wordEdge (edge : before.getLast?.any isWord = false)
    (opens : after.head?.any isWord = true) : atWordEdge.Prefers before [] after [] := by
  apply Prefers.atWordEdge
  rw [edge, opens]
  exact Bool.false_ne_true

/-- A space is taken alone if no further white space follows. -/
theorem prefers_space (ends : EndsClass isSpace after) : gap.Prefers before [' '] after [] :=
  .repeated_one (List.cons_ne_nil _ _) (List.forall_mem_singleton.mpr rfl) ends

/-! ## Code without a keyword -/

theorem ClassHeader.inCode_eq_nil (absent : "class".toList ∉ words code) (index : Nat) :
    inCode index code = [] := by
  have noMatch : pattern.searchAll code = [] := by
    refine searchAll_eq_nil fun front back shape => ?_
    refine @misses_keyword front back ["class"] _ (by decide) ?_
    rw [List.forall_mem_singleton, ← shape]
    exact absent
  rw [inCode, noMatch]
  rfl

namespace Declaration

theorem functions_eq_nil (absent : ∀ word ∈ words line.code, ¬ "function".toList <+: word)
    (index : Nat) (enclosing : Option (List Char)) : functions index line enclosing = [] := by
  have noMatch : functionPattern.searchAll line.code = [] := by
    refine searchAll_eq_nil fun front back shape => ?_
    refine @misses_beginning front back ["function"] _ (by decide) ?_
    rw [List.forall_mem_singleton, ← shape]
    exact absent
  rw [functions, noMatch]
  rfl

/-- The keywords of variables. -/
def bindingWords : List String := ["let", "const", "var"]

theorem areWords_bindingWords : AreWords bindingWords := by decide

theorem mem_declaringWords : ∀ keyword ∈ bindingWords, keyword ∈ declaringWords := by decide

theorem locals_eq_nil (absent : ∀ keyword ∈ bindingWords, keyword.toList ∉ words line.code)
    (index : Nat) (enclosing : Option (List Char)) : locals index line enclosing = [] := by
  have noMatch : variablePattern.searchAll line.code = [] := by
    refine searchAll_eq_nil fun front back shape => ?_
    refine @misses_keyword front back bindingWords _ areWords_bindingWords ?_
    rw [← shape]
    exact absent
  rw [locals, noMatch]
  rfl

theorem ofLine_of_outside (outside : line.startTop?.any (Frame.opens .classBody) = false)
    (index : Nat) (enclosing : Option (List Char)) :
    ofLine index line enclosing =
      functions index line enclosing ++ locals index line enclosing := by
  rw [ofLine, outside, if_neg Bool.false_ne_true]

theorem ofLine_of_inside (inside : line.startTop?.any (Frame.opens .classBody) = true)
    (index : Nat) (enclosing : Option (List Char)) :
    ofLine index line enclosing = (member? index line enclosing).toList := by
  rw [ofLine, inside, if_pos rfl]

/-- Outside of the body of a class, code without a keyword declares nothing. -/
theorem ofLine_eq_nil (ordinary : AreOrdinary line.code)
    (outside : line.startTop?.any (Frame.opens .classBody) = false) (index : Nat)
    (enclosing : Option (List Char)) : ofLine index line enclosing = [] := by
  have absent : ∀ keyword ∈ bindingWords, keyword.toList ∉ words line.code :=
    fun keyword isKeyword => ordinary.not_mem keyword (mem_declaringWords keyword isKeyword)
  rw [ofLine_of_outside outside,
    functions_eq_nil (fun word member => (ordinary word member).noFunction),
    locals_eq_nil absent]
  rfl

/-- The end of the body of a class is none of its members. -/
theorem member?_closing (codeEq : line.code = ['\x7d']) (index : Nat)
    (enclosing : Option (List Char)) : member? index line enclosing = none := by
  have noMethod : methodPattern.search? ['\x7d'] = none := rfl
  have noProperty : propertyPattern.search? ['\x7d'] = none := rfl
  rw [member?, codeEq, noMethod, noProperty]
  rfl

end Declaration

/-! ## The head of a class -/

/-- What a class extends. -/
inductive Parent where
  | plain (name : Title)
  /-- A type in the name space of the framework. -/
  | framework (name : Title)

def Parent.letters : Parent → List Char
  | plain name => name.letters
  | framework name => frameworkMarker.toList ++ name.letters

theorem Parent.prefers (parent : Parent) (before : List Char) :
    ClassHeader.dottedName.Prefers before parent.letters " \x7b".toList [] := by
  have ends : EndsClass isName " \x7b".toList := endsClass_cons (by decide) _
  have noDot (passed : List Char) :
      (sequence (literal ".") identifier).Misses passed " \x7b".toList :=
    misses_sequence (misses_literal (by decide))
  cases parent with
  | plain name =>
      have whole := (name.prefers before ends).sequence (.many_none (noDot _))
      rwa [List.append_nil] at whole
  | framework name =>
      have space : identifier.Prefers before "UE".toList
          ('.' :: name.letters ++ " \x7b".toList) [] :=
        .repeated_one (by decide) (List.all_eq_true.mp (by decide)) (endsClass_cons (by decide) _)
      have dotted : (sequence (literal ".") identifier).Prefers (before ++ "UE".toList)
          (".".toList ++ name.letters) " \x7b".toList [] :=
        (Prefers.literal ".").sequence (name.prefers _ ends)
      exact space.sequence (.many_single dotted (List.cons_ne_nil _ _) (noDot _))

/-- What stands behind the name of a class that extends another one. -/
def extensionLetters : Option Parent → List Char
  | none => []
  | some parent => " extends ".toList ++ parent.letters

/-- The head of a class, up to its brace. -/
def classHead (name : Title) (parent : Option Parent) : List Char :=
  "class".toList ++ ' ' :: (name.letters ++ extensionLetters parent)

/-- What is recorded under a number. -/
def recorded (number : Nat) (spans : List (Nat × Span)) : Option (List Char) :=
  (spans.find? fun entry => entry.1 == number).map fun entry => entry.2.letters

theorem letters_group? (whole : Span) (spans : List (Nat × Span)) (number : Nat) :
    ((Match.mk whole spans).group? number).map (·.letters) = recorded number spans := by
  rw [Match.group?, Option.map_map]
  rfl

theorem prefers_extension (parent : Option Parent) (before : List Char) :
    ∃ spans, (Pattern.optional (inOrder [gap, literal "extends", gap,
        group 2 ClassHeader.dottedName])).Prefers before (extensionLetters parent) " \x7b".toList
          spans ∧
      recorded 1 spans = none ∧ recorded 2 spans = parent.map Parent.letters := by
  cases parent with
  | none =>
      refine ⟨[], .optional_none ?_, rfl, rfl⟩
      have accepts : gap.Only fun letter => isSpace letter = true := ⟨fun _ => id, fun _ => id⟩
      exact misses_behind_spaces [' '] accepts rfl rfl (List.forall_mem_singleton.mpr rfl)
        (endsClass_cons rfl _) (by decide)
  | some parent =>
      have visible : EndsClass isSpace (parent.letters ++ " \x7b".toList) := by
        cases parent with
        | plain name => exact name.endsClass_isSpace _
        | framework name => exact endsClass_cons rfl _
      have all : PrefersAll [gap, literal "extends", gap, group 2 ClassHeader.dottedName] before
          ([' '] ++ ("extends".toList ++ ([' '] ++ parent.letters))) " \x7b".toList _ :=
        .pass (prefers_space (endsClass_cons rfl _)) (.pass (.literal "extends")
          (.pass (prefers_space visible) (.last (.group 2 (parent.prefers _)))))
      exact ⟨_, .preferred all.inOrder, rfl, rfl⟩

theorem exists_extensionLetters (parent : Option Parent) :
    ∃ letter rest, extensionLetters parent ++ " \x7b".toList = ' ' :: letter :: rest ∧
      isSpace letter = false ∧ letter ≠ '<' := by
  cases parent with
  | none => exact ⟨'\x7b', [], rfl, rfl, by decide⟩
  | some parent => exact ⟨'e', _, rfl, rfl, by decide⟩

/-- The head of a class is taken whole, with its name and its parent. -/
theorem prefers_classHead (name : Title) (parent : Option Parent) :
    ∃ spans, ClassHeader.pattern.Prefers [] (classHead name parent) " \x7b".toList spans ∧
      recorded 1 spans = some name.letters ∧
      recorded 2 spans = parent.map Parent.letters := by
  obtain ⟨letter, rest, behindEq, visible, noBracket⟩ := exists_extensionLetters parent
  obtain ⟨spans, prefersExtension, noName, parentEq⟩ :=
    prefers_extension parent ([] ++ "class".toList ++ [' '] ++ name.letters)
  have noParameters : (inOrder [spaces, literal "<", many (noneOf ">"), literal ">"]).Misses
      ([] ++ "class".toList ++ [' '] ++ name.letters)
      (extensionLetters parent ++ " \x7b".toList) := by
    have accepts : spaces.Only fun letter => isSpace letter = true := fun _ => id
    rw [behindEq]
    exact misses_behind_spaces [' '] accepts rfl rfl (List.forall_mem_singleton.mpr rfl)
      (endsClass_cons visible rest) noBracket
  have ends : EndsClass isName (extensionLetters parent ++ " \x7b".toList) := by
    rw [behindEq]
    exact endsClass_cons (by decide) _
  have startsName : EndsClass isSpace
      (name.letters ++ extensionLetters parent ++ " \x7b".toList) := by
    rw [List.append_assoc]
    exact name.endsClass_isSpace _
  have all : PrefersAll [atWordEdge, literal "class", gap, group 1 identifier,
      Pattern.optional (inOrder [spaces, literal "<", many (noneOf ">"), literal ">"]),
      Pattern.optional (inOrder [gap, literal "extends", gap, group 2 ClassHeader.dottedName])] []
      ("class".toList ++ ([' '] ++ (name.letters ++ extensionLetters parent))) " \x7b".toList
      (spans ++ [(1, spanBehind ([] ++ "class".toList ++ [' ']) name.letters)]) := by
    apply PrefersAll.skip (prefers_wordEdge rfl rfl)
    apply PrefersAll.pass (.literal "class")
    apply PrefersAll.pass (prefers_space startsName)
    apply PrefersAll.cons (.group 1 (name.prefers _ ends))
    apply PrefersAll.skip (.optional_none noParameters)
    exact .last prefersExtension
  refine ⟨_, all.inOrder, ?_, ?_⟩
  · rw [recorded, List.find?_append, Option.map_or]
    exact congrArg (Option.or · _) noName
  · rw [recorded, List.find?_append, Option.map_or, ← parentEq]
    exact Option.or_none

/-- Behind the keyword of a class no further keyword follows. -/
theorem areOrdinary_extension (name : Title) (parent : Option Parent) :
    AreOrdinary (name.letters ++ (extensionLetters parent ++ " \x7b".toList)) := by
  have brace : AreOrdinary ['\x7b'] := areOrdinary_marks (forall_eq_false_of_any (by decide))
  cases parent with
  | none => exact name.areOrdinary_cons rfl brace
  | some parent =>
      have parentOrdinary : AreOrdinary (parent.letters ++ " \x7b".toList) := by
        cases parent with
        | plain name => exact name.areOrdinary_cons rfl brace
        | framework name =>
            exact areOrdinary_cons (List.all_eq_true.mp (by decide : "UE".toList.all Char.isAlpha))
              ⟨by decide, by decide⟩ (by decide : '.'.isAlpha = false)
              (name.areOrdinary_cons rfl brace)
      have extends_ : AreOrdinary ("extends".toList ++ ' ' :: (parent.letters ++ " \x7b".toList)) :=
        areOrdinary_cons (List.all_eq_true.mp (by decide)) ⟨by decide, by decide⟩ rfl parentOrdinary
      exact name.areOrdinary_cons rfl extends_

theorem words_classHead (name : Title) (parent : Option Parent) :
    words (classHead name parent ++ " \x7b".toList) = "class".toList ::
      words (name.letters ++ (extensionLetters parent ++ " \x7b".toList)) := by
  have shape : classHead name parent ++ " \x7b".toList = "class".toList ++
      ' ' :: (name.letters ++ (extensionLetters parent ++ " \x7b".toList)) := by
    simp [classHead]
  rw [shape, words_append_cons _ rfl, words_of_isAlpha (List.all_eq_true.mp (by decide))]
  rfl

/-- The head of a class gives its name and its parent, and no other head follows on its line. -/
theorem ClassHeader.inCode_classHead (name : Title) (parent : Option Parent) (index : Nat) :
    inCode index (classHead name parent ++ " \x7b".toList) =
      [⟨name.letters, parent.map Parent.letters, index⟩] := by
  obtain ⟨spans, prefers, nameEq, parentEq⟩ := prefers_classHead name parent
  have found : pattern.searchAll (classHead name parent ++ " \x7b".toList) =
      [⟨spanBehind [] (classHead name parent), spans⟩] := by
    refine @searchAll_eq_singleton _ ' ' ["class"] _ [] _ _ spans (by decide)
      (List.forall_mem_nil _) (List.all_eq_true.mp (by decide)) (by decide) prefers ?_
    rw [List.forall_mem_singleton, List.append_assoc]
    exact (areOrdinary_extension name parent).not_mem "class" (by decide)
  obtain ⟨span, groupEq, lettersEq⟩ := Option.map_eq_some_iff.mp
    ((letters_group? (spanBehind [] (classHead name parent)) spans 1).trans nameEq)
  rw [inCode, found, List.filterMap_cons, List.filterMap_nil, groupEq]
  simp only [Option.map_some, lettersEq, letters_group?, parentEq]

/-- The head of a class declares nothing but the class. -/
theorem Declaration.ofLine_classHead {name : Title} {parent : Option Parent}
    (codeEq : line.code = classHead name parent ++ " \x7b".toList)
    (outside : line.startTop?.any (Frame.opens .classBody) = false) :
    ofLine index line enclosing = [] := by
  have ordinary := areOrdinary_extension name parent
  have noFunction : ∀ word ∈ words line.code, ¬ "function".toList <+: word := by
    rw [codeEq, words_classHead, List.forall_mem_cons]
    exact ⟨by decide, fun word member => (ordinary word member).noFunction⟩
  have noBinding : ∀ keyword ∈ bindingWords, keyword.toList ∉ words line.code := by
    intro keyword isKeyword
    have other : ∀ keyword ∈ bindingWords, keyword.toList ≠ "class".toList := by decide
    rw [codeEq, words_classHead, List.mem_cons, not_or]
    exact ⟨other keyword isKeyword,
      ordinary.not_mem keyword (mem_declaringWords keyword isKeyword)⟩
  rw [ofLine_of_outside outside, functions_eq_nil noFunction, locals_eq_nil noBinding]
  rfl

/-! ## The head of a method -/

/-- The head of a method without parameters, up to its brace. -/
def methodHead (name : Title) : List Char := name.letters ++ "()".toList

/-- A name begins with no mark. -/
theorem Title.misses_literal (name : Title) (mark : Char) {text : String}
    (spelled : text.toList.head? = some mark) (outside : mark.isAlpha = false) :
    (literal text).Misses before (name.letters ++ after) := by
  apply Pattern.misses_literal
  rintro ⟨rest, same⟩
  obtain ⟨first, found, alphabetic⟩ := name.exists_head?
  have sameHead := congrArg List.head? same
  rw [List.head?_append, List.head?_append, spelled, found] at sameHead
  rw [← Option.some.inj sameHead, outside] at alphabetic
  cases alphabetic

/-- A name with a mark right behind it is no modifier. -/
theorem Title.misses_modifiers (name : Title) {words : List String} {mark : Char}
    (areWords : AreWords words) (outside : mark.isAlpha = false) (visible : isSpace mark = false) :
    (sequence (wordOf words) gap).Misses before (name.letters ++ mark :: after) := by
  intro run behind shape fits
  obtain ⟨_, blanks, rfl, isModifier, isGap⟩ := fits_sequence.mp fits
  obtain ⟨modifier, member, rfl⟩ := fits_wordOf.mp isModifier
  obtain ⟨someGap, spaced⟩ := fits_gap.mp isGap
  obtain ⟨space, others, rfl⟩ := List.exists_cons_of_ne_nil someGap
  have isSpace := spaced space List.mem_cons_self
  rw [List.append_assoc] at shape
  have same := eq_of_endsClass name.alphabetic (endsClass_cons outside after)
    (List.all_eq_true.mp (areWords modifier member).2)
    (endsClass_cons (isAlpha_of_isSpace isSpace) (others ++ behind)) shape
  rw [(List.cons.inj same.2).1, isSpace] at visible
  cases visible

theorem prefers_methodHead (name : Title) (indent : Blank) :
    Declaration.methodPattern.Prefers [] (indent.letters ++ (name.letters ++ "(".toList))
      ") \x7b".toList [(1, spanBehind indent.letters name.letters)] := by
  have noSpaces {before after : List Char} (ends : EndsClass isSpace after) :
      spaces.Prefers before [] after [] := .many_one (List.forall_mem_nil _) ends
  have restEq : name.letters ++ "(".toList ++ ") \x7b".toList =
      name.letters ++ '(' :: ") \x7b".toList := List.append_assoc _ _ _
  have startsName : EndsClass isSpace (name.letters ++ "(".toList ++ ") \x7b".toList) := by
    rw [restEq]
    exact name.endsClass_isSpace _
  have startsParen : EndsClass isSpace ("(".toList ++ ") \x7b".toList) := endsClass_cons rfl _
  have noDecorator : Declaration.decorators.Prefers ([] ++ indent.letters) []
      (name.letters ++ "(".toList ++ ") \x7b".toList) [] := by
    rw [restEq]
    apply Prefers.many_none
    apply misses_inOrder_cons
    exact name.misses_literal '@' rfl rfl
  have noModifier : (Declaration.modifiers Declaration.methodModifiers).Prefers
      ([] ++ indent.letters) [] (name.letters ++ "(".toList ++ ") \x7b".toList) [] := by
    rw [restEq]
    apply Prefers.many_none
    exact name.misses_modifiers (by decide) rfl rfl
  have noStar : (Pattern.optional (literal "*")).Prefers ([] ++ indent.letters) []
      (name.letters ++ "(".toList ++ ") \x7b".toList) [] := by
    rw [restEq]
    apply Prefers.optional_none
    exact name.misses_literal '*' rfl rfl
  have noParameters : Declaration.typeParameters.Prefers ([] ++ indent.letters ++ name.letters) []
      ("(".toList ++ ") \x7b".toList) [] := by
    apply Prefers.optional_none
    apply misses_inOrder_cons
    exact Pattern.misses_literal (by decide)
  have all : PrefersAll [atStart, spaces, Declaration.decorators,
      Declaration.modifiers Declaration.methodModifiers, Pattern.optional (literal "*"), spaces,
      group 1 identifier, spaces, Declaration.typeParameters, spaces, literal "("] []
      (indent.letters ++ (name.letters ++ "(".toList)) ") \x7b".toList
      ([] ++ [(1, spanBehind indent.letters name.letters)]) := by
    apply PrefersAll.skip .atStart
    apply PrefersAll.pass (.many_one indent.isSpace startsName)
    apply PrefersAll.skip noDecorator
    apply PrefersAll.skip noModifier
    apply PrefersAll.skip noStar
    apply PrefersAll.skip (noSpaces startsName)
    apply PrefersAll.cons (.group 1 (name.prefers _ (endsClass_cons (by decide) _)))
    apply PrefersAll.skip (noSpaces startsParen)
    apply PrefersAll.skip noParameters
    apply PrefersAll.skip (noSpaces startsParen)
    exact .last (.literal "(")
  exact all.inOrder

theorem areOrdinary_methodHead (name : Title) :
    AreOrdinary (methodHead name ++ " \x7b".toList) := by
  rw [methodHead, List.append_assoc]
  exact name.areOrdinary_cons rfl (areOrdinary_marks (forall_eq_false_of_any (by decide)))

/-- The head of a method in the body of a class declares it at the column of its name. -/
theorem Declaration.ofLine_methodHead {name : Title} {indent : Blank}
    (codeEq : line.code = indent.letters ++ (methodHead name ++ " \x7b".toList))
    (textEq : line.text = line.code)
    (inside : line.startTop?.any (Frame.opens .classBody) = true) :
    ofLine index line enclosing = [{
      kind := .method, name := name.letters, line := index, character := indent.letters.length
      enclosing, instantiates := none }] := by
  have shape : indent.letters ++ (methodHead name ++ " \x7b".toList) =
      indent.letters ++ (name.letters ++ "(".toList) ++ ") \x7b".toList := by
    simp [methodHead]
  have found := (prefers_methodHead name indent).search?_eq
  rw [← shape, ← codeEq] at found
  have columnEq : line.column (byteLength indent.letters) = indent.letters.length := by
    rw [ScannedLine.column, textEq, codeEq, charColumn_append]
  have declared : member? index line enclosing = some {
      kind := .method, name := name.letters, line := index, character := indent.letters.length
      enclosing, instantiates := none } := by
    unfold member?
    rw [found]
    simpa [Match.group?, spanBehind, columnEq] using fun word isSkipped =>
      (name.free word (List.mem_append_right declaringWords isSkipped)).symm
  rw [ofLine_of_inside inside, declared]
  rfl

/-! ## Variables -/

/-- The declaration of a variable that another one initialises. -/
def bindingCode (name value : Title) : List Char :=
  "let".toList ++ ' ' :: name.letters ++ (" = ".toList ++ (value.letters ++ ";".toList))

/-- Behind the word for a new instance there is white space, but behind the value there is none. -/
theorem not_instancePattern (value : Title) :
    Declaration.instancePattern.occursIn (" = ".toList ++ (value.letters ++ ";".toList)) =
      false := by
  rw [Bool.eq_false_iff]
  intro occurs
  obtain ⟨before, run, after, shape, fits⟩ := occursIn_iff_fits.mp occurs
  simp only [Declaration.instancePattern, fits_inOrder_cons, fits_inOrder_nil, fits_atStart,
    fits_literal, fits_gap] at fits
  obtain ⟨_, _, rfl, ⟨rfl, rfl⟩, spaces, _, rfl, _, type, _, rfl, _, _, _, rfl, rfl, blanks, _, rfl,
    _, _, _, rfl, rfl, gap, behind, rfl, ⟨someGap, spaced⟩, _⟩ := fits
  obtain ⟨space, others, rfl⟩ := List.exists_cons_of_ne_nil someGap
  have isSpace := spaced space List.mem_cons_self
  have cut : " = ".toList ++ (value.letters ++ ";".toList) =
      (spaces ++ type ++ "=".toList ++ blanks ++ "new".toList) ++
        space :: (others ++ behind ++ after) := by
    rw [shape]
    simp only [List.append_assoc, List.nil_append, List.cons_append]
  rcases List.append_eq_append_iff.mp cut with ⟨between, _, valueEq⟩ | ⟨between, marksEq, _⟩
  · have inValue : space ∈ value.letters ++ ";".toList := by
      rw [valueEq]
      exact List.mem_append_right between List.mem_cons_self
    rcases List.mem_append.mp inValue with isLetter | isMark
    · rw [isSpace_of_isAlpha (value.alphabetic space isLetter)] at isSpace
      cases isSpace
    · rw [List.mem_singleton.mp isMark] at isSpace
      cases isSpace
  · have inMarks : 'n' ∈ " = ".toList := by
      rw [marksEq]
      simp
    exact absurd inMarks (by decide)

/-- Behind the keyword of a variable no further keyword follows. -/
theorem areOrdinary_binding (name value : Title) :
    AreOrdinary (name.letters ++ (" = ".toList ++ (value.letters ++ ";".toList))) := by
  have valueOrdinary : AreOrdinary (value.letters ++ ";".toList) :=
    value.areOrdinary_cons rfl areOrdinary_nil
  have marked : AreOrdinary ("= ".toList ++ (value.letters ++ ";".toList)) :=
    areOrdinary_append (forall_eq_false_of_any (by decide)) valueOrdinary
  exact name.areOrdinary_cons rfl marked

theorem mem_words_bindingCode {name value : Title} {indent : Blank} {word : List Char}
    (member : word ∈ words (indent.letters ++ bindingCode name value)) :
    word = "let".toList ∨ IsOrdinary word := by
  have blank : ∀ letter ∈ indent.letters, letter.isAlpha = false :=
    fun letter isBlank => isAlpha_of_isSpace (indent.isSpace letter isBlank)
  have shape : bindingCode name value = "let".toList ++
      ' ' :: (name.letters ++ (" = ".toList ++ (value.letters ++ ";".toList))) := by
    simp [bindingCode]
  rw [words_append_of_forall blank, shape, words_append_cons _ rfl,
    words_of_isAlpha (List.all_eq_true.mp (by decide))] at member
  rcases List.mem_append.mp member with isEmpty | later
  · rw [List.eq_of_mem_replicate isEmpty]
    exact Or.inr ⟨by decide, by decide⟩
  · rcases List.mem_cons.mp later with isKeyword | behind
    · exact Or.inl isKeyword
    · exact Or.inr (areOrdinary_binding name value word behind)

theorem ClassHeader.inCode_bindingCode (name value : Title) (indent : Blank) (index : Nat) :
    inCode index (indent.letters ++ bindingCode name value) = [] := by
  apply inCode_eq_nil
  intro member
  rcases mem_words_bindingCode member with isKeyword | isOrdinary
  · exact absurd isKeyword (by decide)
  · exact isOrdinary.ne_keyword "class" (by decide) rfl

theorem prefers_binding (name : Title) (indent : Blank) {after : List Char}
    (ends : EndsClass isName after) :
    Declaration.variablePattern.Prefers indent.letters ("let".toList ++ ' ' :: name.letters) after
      [(1, spanBehind (indent.letters ++ "let ".toList) name.letters)] := by
  have edge : indent.letters.getLast?.any isWord = false := by
    cases last : indent.letters.getLast? with
    | none => rfl
    | some space => exact isWord_of_isSpace (indent.isSpace space (List.mem_of_getLast? last))
  have all : PrefersAll [atWordEdge, wordOf Declaration.bindingWords, gap, group 1 identifier]
      indent.letters ("let".toList ++ ([' '] ++ name.letters)) after
      [(1, spanBehind (indent.letters ++ "let".toList ++ [' ']) name.letters)] := by
    apply PrefersAll.skip (prefers_wordEdge edge rfl)
    apply PrefersAll.pass (.preferred (.literal "let"))
    apply PrefersAll.pass (prefers_space (name.endsClass_isSpace _))
    exact .last (.group 1 (name.prefers _ ends))
  have lettersEq : indent.letters ++ "let ".toList = indent.letters ++ "let".toList ++ [' '] := by
    rw [List.append_assoc]
    rfl
  rw [lettersEq]
  exact all.inOrder

theorem Declaration.locals_bindingCode {name value : Title} {indent : Blank}
    (codeEq : line.code = indent.letters ++ bindingCode name value)
    (textEq : line.text = line.code) :
    locals index line enclosing = [{
      kind := .binding, name := name.letters, line := index
      character := indent.letters.length + 4, enclosing, instantiates := none }] := by
  have ends : EndsClass isName (" = ".toList ++ (value.letters ++ ";".toList)) :=
    endsClass_cons (by decide) _
  have found : variablePattern.searchAll line.code =
      [⟨spanBehind indent.letters ("let".toList ++ ' ' :: name.letters),
        [(1, spanBehind (indent.letters ++ "let ".toList) name.letters)]⟩] := by
    rw [codeEq]
    refine @searchAll_eq_singleton _ ' ' bindingWords _ _ _ _ _ areWords_bindingWords
      (fun letter member => isAlpha_of_isSpace (indent.isSpace letter member))
      (List.all_eq_true.mp (by decide)) (by decide) (prefers_binding name indent ends) ?_
    exact fun keyword member =>
      (areOrdinary_binding name value).not_mem keyword (mem_declaringWords keyword member)
  have columnEq : line.column (byteLength (indent.letters ++ "let ".toList)) =
      indent.letters.length + 4 := by
    have shape : indent.letters ++ bindingCode name value = (indent.letters ++ "let ".toList) ++
        (name.letters ++ (" = ".toList ++ (value.letters ++ ";".toList))) := by
      simp [bindingCode]
    rw [ScannedLine.column, textEq, codeEq, shape, charColumn_append, List.length_append]
    rfl
  have noInstance : instantiated? line.code
      (spanBehind (indent.letters ++ "let ".toList) name.letters).stop = none := by
    have cut : splitAtByte? line.code
        (spanBehind (indent.letters ++ "let ".toList) name.letters).stop =
          some (indent.letters ++ "let ".toList ++ name.letters,
            " = ".toList ++ (value.letters ++ ";".toList)) := by
      rw [splitAtByte?_eq_some_iff, codeEq]
      refine ⟨by simp [bindingCode], byteLength_append _ _⟩
    have missed := not_instancePattern value
    rw [occursIn, Option.isSome_eq_false_iff, Option.isNone_iff_eq_none] at missed
    simp only [instantiated?, cut, missed, Option.bind_eq_bind, Option.bind_some, Option.bind_none]
  have groupEq (whole : Span) : (Match.mk whole
      [(1, spanBehind (indent.letters ++ "let ".toList) name.letters)]).group? 1 =
        some (spanBehind (indent.letters ++ "let ".toList) name.letters) := rfl
  rw [locals, found, List.filterMap_cons, List.filterMap_nil, groupEq]
  simp only [Option.map_some, noInstance]
  exact congrArg (fun column => [Declaration.mk .binding name.letters index column enclosing none])
    columnEq

/-- A variable in a block stands at the column of its name, and it is no instance. -/
theorem Declaration.ofLine_bindingCode {name value : Title} {indent : Blank}
    (codeEq : line.code = indent.letters ++ bindingCode name value)
    (textEq : line.text = line.code)
    (outside : line.startTop?.any (Frame.opens .classBody) = false) :
    ofLine index line enclosing = [{
      kind := .binding, name := name.letters, line := index
      character := indent.letters.length + 4, enclosing, instantiates := none }] := by
  have noFunction : ∀ word ∈ words line.code, ¬ "function".toList <+: word := by
    intro word member
    rw [codeEq] at member
    rcases mem_words_bindingCode member with rfl | isOrdinary
    · decide
    · exact isOrdinary.noFunction
  rw [ofLine_of_outside outside, functions_eq_nil noFunction, locals_bindingCode codeEq textEq]
  rfl

/-! ## The braces of heads -/

namespace Brace

variable {letters : List Char} {last : Char}

theorem not_classHeader_of_words (absent : "class".toList ∉ words letters) :
    classHeader.occursIn letters = false := by
  rw [Bool.eq_false_iff]
  intro occurs
  obtain ⟨before, after, rfl, edge, ends⟩ :=
    exists_wholeWord (by decide) (List.all_eq_true.mp (by decide)) occurs
  rw [List.append_assoc] at absent
  exact absent (mem_words_of_edge (List.all_eq_true.mp (by decide))
    (isAlpha_of_edge edge) (ends.mono fun _ => isWord_of_isAlpha))

theorem classHeader_classHead (name : Title) (parent : Option Parent) :
    classHeader.occursIn (classHead name parent) = true := by
  have fits : classHeader.Fits [] "class".toList
      (' ' :: (name.letters ++ extensionLetters parent)) := by
    simp only [classHeader, fits_inOrder_cons, fits_inOrder_nil, fits_atWordEdge, fits_literal]
    exact ⟨[], "class".toList, rfl, ⟨rfl, Bool.false_ne_true⟩, "class".toList, [], rfl, rfl, [], [],
      rfl, ⟨rfl, Bool.false_ne_true.symm⟩, rfl⟩
  exact occursIn_iff_fits.mpr ⟨[], "class".toList, _, rfl, fits⟩

/-- The head of a class opens its body. -/
theorem kindAfter_classHead (name : Title) (parent : Option Parent) (top : Option Frame) :
    kindAfter (classHead name parent) top = .classBody := by
  have ordinary := areOrdinary_extension name parent
  have subset : words (classHead name parent) ⊆
      words (classHead name parent ++ " \x7b".toList) := by
    have wordsEq : words (classHead name parent ++ ' ' :: ['\x7b']) = _ :=
      words_append_cons _ rfl _
    rw [show classHead name parent ++ " \x7b".toList = classHead name parent ++ ' ' :: ['\x7b']
      from rfl, wordsEq]
    exact List.subset_append_left _ _
  have noKeyword (keyword : String) (member : keyword ∈ declaringWords)
      (other : keyword.toList ≠ "class".toList) (areWords : AreWords [keyword])
      (patterns : List Pattern) :
      (inOrder (atWordEdge :: wordOf [keyword] :: gap :: patterns)).occursIn
        (classHead name parent) = false := by
    refine occursIn_eq_false fun front back shape => misses_keyword areWords ?_
    rw [List.forall_mem_singleton, ← shape]
    intro isWord
    have inLine := subset isWord
    rw [words_classHead, List.mem_cons] at inLine
    exact inLine.elim other (ordinary.not_mem keyword member)
  have noEnum : enumHeader.occursIn (classHead name parent) = false :=
    noKeyword "enum" (by decide) (by decide) (by decide) _
  have noInterface : interfaceHeader.occursIn (classHead name parent) = false :=
    noKeyword "interface" (by decide) (by decide) (by decide) _
  have noAlias : aliasHeader.occursIn (classHead name parent) = false :=
    @not_aliasHeader_of_head? _ 'c' rfl (by decide)
  simp only [kindAfter, noEnum, noInterface, noAlias, classHeader_classHead, Bool.or_false,
    Bool.false_eq_true, if_false, if_true]

theorem not_valueWordEnd (ends : letters.getLast? = some last) (outside : last.isAlpha = false) :
    valueWordEnd.occursIn letters = false := by
  rw [Bool.eq_false_iff]
  intro occurs
  obtain ⟨before, run, after, rfl, fits⟩ := occursIn_iff_fits.mp occurs
  simp only [valueWordEnd, fits_inOrder_cons, fits_inOrder_nil, fits_wordOf, fits_atEnd] at fits
  obtain ⟨front, _, rfl, _, _, _, rfl, ⟨word, member, rfl⟩, _, _, rfl, ⟨rfl, noRest⟩, rfl⟩ := fits
  have noAfter : after = [] := noRest
  have areWords : AreWords ["return", "yield", "default"] := by decide
  obtain ⟨nonempty, spelled⟩ := areWords word member
  have atEnd : ((before ++ front) ++ word.toList).getLast? = some last := by
    simpa [noAfter] using ends
  rw [List.all_eq_true.mp spelled last (mem_of_getLast?_append nonempty atEnd)] at outside
  cases outside

/-- The head of a method opens a block. -/
theorem kindAfter_methodHead (name : Title) (top : Option Frame) :
    kindAfter (methodHead name) top = .block := by
  have ends : (methodHead name).getLast? = some ')' :=
    List.getLast?_append_of_ne_nil name.letters (by decide)
  have noInterface : interfaceHeader.occursIn (methodHead name) = false := by
    rw [Bool.eq_false_iff]
    intro occurs
    obtain ⟨before, space, first, after, shape, isSpace, _⟩ := exists_of_interfaceHeader occurs
    have member : space ∈ methodHead name := by
      rw [shape]
      exact List.mem_append_right before List.mem_cons_self
    rcases List.mem_append.mp member with isLetter | isMark
    · rw [isSpace_of_isAlpha (name.alphabetic space isLetter)] at isSpace
      cases isSpace
    · have noSpace : ∀ mark ∈ "()".toList, Text.isSpace mark = false :=
        forall_eq_false_of_any (by decide)
      rw [noSpace space isMark] at isSpace
      cases isSpace
  have noAlias : aliasHeader.occursIn (methodHead name) = false :=
    not_aliasHeader_of_getLast? ends rfl (by decide)
  have noClass : classHeader.occursIn (methodHead name) = false := by
    apply not_classHeader_of_words
    have wordsEq : words (methodHead name) = words name.letters ++ words ")".toList :=
      words_append_cons name.letters rfl _
    rw [wordsEq, words_of_isAlpha name.alphabetic, List.singleton_append, List.mem_cons, not_or]
    exact ⟨(name.isOrdinary.ne_keyword "class" (by decide)).symm, by decide⟩
  have noBinding : bindingHead.occursIn (methodHead name) = false :=
    not_bindingHead (List.mem_of_getLast? ends) (by decide) (by decide)
  have noColon : endsIn ":" (methodHead name) = false := not_endsIn rfl ends (by decide)
  have noArrow : endsIn "=>" (methodHead name) = false := not_endsIn rfl ends (by decide)
  have noObject : (objectEndings.any (endsIn · (methodHead name))) = false := by
    have otherLast : ∀ ending ∈ objectEndings,
        ending.toList.getLast?.any (· != ')') = true := by decide
    rw [List.any_eq_false]
    intro ending member
    obtain ⟨mark, marks, other⟩ := (Option.any_eq_true _ _).mp (otherLast ending member)
    exact Bool.eq_false_iff.mp (not_endsIn marks ends (bne_iff_ne.mp other))
  have noValue : valueWordEnd.occursIn (methodHead name) = false := not_valueWordEnd ends rfl
  have someHead : (methodHead name).isEmpty = false := by
    rw [List.isEmpty_eq_false_iff]
    exact List.append_ne_nil_of_left_ne_nil name.nonempty _
  simp only [kindAfter, not_enumHeader ends rfl (by decide), noInterface, noAlias, noClass,
    noBinding, noColon, noArrow, noObject, noValue, someHead, Bool.or_false, Bool.false_and,
    Bool.false_eq_true, if_false, ite_self]

end Brace

end ScriptLint
