import ScriptLint.Proofs.Source.Head
import ScriptLint.Proofs.Source.Strings
import ScriptLint.Proofs.Text.Cuts

/-!
# What braces open behind strings

A brace is judged by the code before it, and the letters of a string belong to the code. So a brace
can be taken for the body of a class because of a word in a string. Two strings without braces,
semicolons and line breaks are judged alike if the words of a class and of an interface occur in
both or in neither: the quotes cut the code, and no other test of a brace looks between them.
-/

namespace ScriptLint

open Text Text.Pattern

namespace Text

variable {test : Char → Bool} {mark : Char}

theorem dropWhile_append_mark (outside : test mark = false) (front rest : List Char) :
    (front ++ mark :: rest).dropWhile test = front.dropWhile test ++ mark :: rest := by
  have stays : (mark :: rest).dropWhile test = mark :: rest :=
    List.dropWhile_cons_of_neg (Bool.eq_false_iff.mp outside)
  rw [List.dropWhile_append, stays]
  split
  · next isEmpty => rw [List.isEmpty_iff.mp isEmpty, List.nil_append]
  · rfl

theorem dropEndWhile_append_mark (outside : test mark = false) (front rest : List Char) :
    dropEndWhile test (front ++ mark :: rest) = front ++ mark :: dropEndWhile test rest := by
  have shown := dropWhile_append_mark outside rest.reverse front.reverse
  simp only [dropEndWhile, List.reverse_append, List.reverse_cons, List.append_assoc,
    List.singleton_append, shown, List.reverse_reverse]

end Text

namespace StringLiteral

variable {style : QuoteStyle} {literal other : StringLiteral style} {front back : List Char}

theorem append_letters (literal : StringLiteral style) (front back : List Char) :
    front ++ literal.letters ++ back =
      front ++ style.quote :: (literal.body ++ style.quote :: back) := by
  simp [letters]

theorem trim_append_letters (literal : StringLiteral style) (front back : List Char) :
    trim (front ++ literal.letters ++ back) =
      trimStart front ++ literal.letters ++ trimEnd back := by
  have outside := style.isSpace_quote
  rw [append_letters, append_letters, trim, trimStart, dropWhile_append_mark outside, trimEnd,
    dropEndWhile_append_mark outside, dropEndWhile_append_mark outside]
  rfl

end StringLiteral

/-! ## A quote cuts the head of a brace -/

namespace Brace

theorem takeWhile_reverse_append {part : List Char}
    (goesOn : ∀ letter ∈ part, endsSegment letter = false) (rest : List Char) :
    (part.reverse ++ rest).takeWhile (fun letter => !endsSegment letter) =
      part.reverse ++ rest.takeWhile fun letter => !endsSegment letter := by
  apply List.takeWhile_append_of_pos
  intro letter member
  rw [goesOn letter (List.mem_reverse.mp member)]
  rfl

theorem takeWhile_append_of_ends {part : List Char}
    (ends : ¬ ∀ letter ∈ part, endsSegment letter = false) (rest : List Char) :
    (part.reverse ++ rest).takeWhile (fun letter => !endsSegment letter) =
      part.reverse.takeWhile fun letter => !endsSegment letter := by
  rw [List.takeWhile_append, if_neg]
  intro same
  apply ends
  intro letter member
  have whole := (List.takeWhile_prefix _).eq_of_length same
  have goesOn := List.takeWhile_eq_self_iff.mp whole letter (List.mem_reverse.mpr member)
  exact (Bool.not_eq_true' _).mp goesOn

variable {mark : Char} (noName : isName mark = false) (noSpace : isSpace mark = false)

include noName in
theorem isWord_of_not_isName : isWord mark = false :=
  (Bool.or_eq_false_iff.mp noName).1

include noName in
theorem only_named : (repeated (one isName)).Only (· ≠ mark) := by
  have each : ∀ letter, isName letter = true → letter ≠ mark := by
    rintro letter named rfl
    rw [noName] at named
    cases named
  exact ⟨each, each⟩

include noSpace in
theorem only_spaced : (one isSpace).Only (· ≠ mark) := by
  rintro letter spaced rfl
  rw [noSpace] at spaced
  cases spaced

include noName in
theorem only_spelled {text : String} (named : text.toList.all isName = true) :
    (literal text).Only (· ≠ mark) := by
  apply only_literal
  rintro letter member rfl
  rw [List.all_eq_true.mp named letter member] at noName
  cases noName

section Words

include noName

theorem occursIn_classHeader (front rest : List Char) :
    classHeader.occursIn (front ++ mark :: rest) =
      (classHeader.occursIn front || classHeader.occursIn rest) := by
  have avoids : classHeader.Only (· ≠ mark) := by
    apply only_inOrder
    simp only [List.forall_mem_cons]
    exact ⟨trivial, only_spelled noName (by decide), trivial, List.forall_mem_nil _⟩
  have looksBack : classHeader.LooksBack := looksBack_inOrder (by simp)
  have looksAhead : classHeader.LooksAhead := looksAhead_inOrder (by simp)
  exact occursIn_append_mark avoids (isWord_of_not_isName noName) looksBack looksAhead front rest

theorem occursIn_controlHeader (front rest : List Char) :
    controlHeader.occursIn (front ++ mark :: rest) = controlHeader.occursIn front := by
  have named : ∀ word ∈ controlWords, word.toList.all isName = true := by decide
  have avoids : controlHeader.Only (· ≠ mark) := by
    apply only_inOrder
    simp only [List.forall_mem_cons]
    refine ⟨trivial, only_firstOf ?_, trivial, List.forall_mem_nil _⟩
    intro pattern member
    obtain ⟨word, wordMember, rfl⟩ := List.mem_map.mp member
    exact only_spelled noName (named word wordMember)
  have looksAhead : controlHeader.LooksAhead := looksAhead_inOrder (by simp)
  exact occursIn_append_mark_of_starts avoids (isWord_of_not_isName noName) looksAhead
    (fun _ _ _ fits => fits.before_eq_nil) front rest

omit noName in
/-- A word after which a value follows ends the text, and no longer word does. -/
theorem occursIn_valueWordEnd_iff {letters : List Char} :
    valueWordEnd.occursIn letters = true ↔
      ∃ word ∈ ["return", "yield", "default"], ∃ before,
        letters = before ++ word.toList ∧ before.getLast?.any isName = false := by
  rw [occursIn_iff_fits]
  constructor
  · rintro ⟨before, run, after, rfl, fits⟩
    simp only [valueWordEnd, fits_inOrder_cons, fits_inOrder_nil, fits_wordOf, fits_atEnd,
      fits_firstOf] at fits
    obtain ⟨edge, _, rfl, ⟨pattern, member, isEdge⟩, _, _, rfl, ⟨word, isValueWord, rfl⟩, _, _,
      rfl, ⟨rfl, noAfter⟩, rfl⟩ := fits
    refine ⟨word, isValueWord, before ++ edge, by simpa using noAfter, ?_⟩
    rcases List.mem_pair.mp member with rfl | rfl
    · obtain ⟨rfl, rfl⟩ := fits_atStart.mp isEdge
      rfl
    · obtain ⟨letter, rfl, outside⟩ := (Spells.one _).fits_iff.mp isEdge
      simpa using outside
  · rintro ⟨word, member, before, rfl, outside⟩
    obtain ⟨start, edge, rfl, isEdge⟩ : ∃ start edge, before = start ++ edge ∧
        (firstOf [atStart, one fun letter => !isName letter]).Fits start edge word.toList := by
      rcases List.eq_nil_or_concat' before with rfl | ⟨others, letter, rfl⟩
      · refine ⟨[], [], rfl, fits_firstOf.mpr ?_⟩
        exact ⟨atStart, List.mem_cons_self, fits_atStart.mpr ⟨rfl, rfl⟩⟩
      · have isLetter : (!isName letter) = true := by simpa using outside
        refine ⟨others, [letter], rfl, fits_firstOf.mpr ?_⟩
        refine ⟨one fun letter => !isName letter, List.mem_cons_of_mem _ List.mem_cons_self, ?_⟩
        exact (Spells.one _).fits_iff.mpr ⟨letter, rfl, isLetter⟩
    have fits : valueWordEnd.Fits start (edge ++ word.toList) [] := by
      simp only [valueWordEnd, fits_inOrder_cons, fits_inOrder_nil, fits_wordOf, fits_atEnd]
      exact ⟨edge, word.toList, rfl, by simpa using isEdge, word.toList, [],
        (List.append_nil _).symm, ⟨word, member, rfl⟩, [], [], rfl, ⟨rfl, rfl⟩, rfl⟩
    exact ⟨start, edge ++ word.toList, [], by simp, fits⟩

/-- A word after which a value follows has the end of the text before it. -/
theorem occursIn_valueWordEnd (front rest : List Char) :
    valueWordEnd.occursIn (front ++ mark :: rest) = valueWordEnd.occursIn (mark :: rest) := by
  have absent : ∀ word ∈ ["return", "yield", "default"], mark ∉ word.toList := by
    intro word member inWord
    have named : ∀ word ∈ ["return", "yield", "default"], word.toList.all isName = true := by
      decide
    rw [List.all_eq_true.mp (named word member) mark inWord] at noName
    cases noName
  -- the word lies behind the mark, and so does the edge before it, unless this is the mark
  have moves (start : List Char) (others : List Char)
      (occurs : valueWordEnd.occursIn (start ++ mark :: rest) = true) :
      valueWordEnd.occursIn (others ++ mark :: rest) = true := by
    obtain ⟨word, member, before, same, outside⟩ := occursIn_valueWordEnd_iff.mp occurs
    have split : before ++ (word.toList ++ []) = start ++ mark :: rest := by
      rw [List.append_nil, same]
    rcases exists_cut (absent word member) split with ⟨_, _, nothing⟩ | ⟨between, rfl, rfl⟩
    · exact absurd nothing (by simp)
    · refine occursIn_valueWordEnd_iff.mpr ⟨word, member, others ++ mark :: between, by simp, ?_⟩
      rw [getLast?_any_append_mark noName] at outside ⊢
      exact outside
  exact Bool.eq_iff_iff.mpr ⟨moves front [], moves [] front⟩

include noSpace

theorem occursIn_interfaceHeader (front rest : List Char) :
    interfaceHeader.occursIn (front ++ mark :: rest) =
      (interfaceHeader.occursIn front || interfaceHeader.occursIn rest) := by
  have spaced := only_spaced noSpace
  have avoids : interfaceHeader.Only (· ≠ mark) := by
    apply only_inOrder
    simp only [List.forall_mem_cons]
    exact ⟨trivial, only_spelled noName (by decide), ⟨spaced, spaced⟩, only_named noName,
      List.forall_mem_nil _⟩
  have looksBack : interfaceHeader.LooksBack := looksBack_inOrder (by simp)
  have looksAhead : interfaceHeader.LooksAhead := looksAhead_inOrder (by simp)
  exact occursIn_append_mark avoids (isWord_of_not_isName noName) looksBack looksAhead front rest

theorem occursIn_enumHeader (front rest : List Char) :
    enumHeader.occursIn (front ++ mark :: rest) = enumHeader.occursIn rest := by
  have spaced := only_spaced noSpace
  have avoids : enumHeader.Only (· ≠ mark) := by
    apply only_inOrder
    simp only [List.forall_mem_cons]
    exact ⟨trivial, only_spelled noName (by decide), ⟨spaced, spaced⟩, only_named noName, spaced,
      trivial, List.forall_mem_nil _⟩
  have looksBack : enumHeader.LooksBack := looksBack_inOrder (by simp)
  have ends (before run after : List Char) (fits : enumHeader.Fits before run after) :
      after = [] :=
    Fits.after_eq_nil [atWordEdge, literal "enum", gap, identifier, spaces] fits
  exact occursIn_append_mark_of_ends avoids (isWord_of_not_isName noName) looksBack ends front rest

/-- The beginning of an alias up to its name. -/
def aliasOpening : List Pattern :=
  [atStart, optional (inOrder [literal "export", gap]),
    optional (inOrder [literal "declare", gap]), literal "type", gap, identifier]

/-- The end of an alias. -/
def aliasEnding : List Pattern := [literal "=", spaces, atEnd]

omit noName noSpace in
theorem aliasHeader_eq :
    aliasHeader = inOrder (aliasOpening ++ many anyOnLine :: aliasEnding) := rfl

/-- What a line may hold passes between the name of an alias and its equals sign. -/
theorem occursIn_aliasHeader {between other : List Char} (inLine : ∀ letter ∈ other, letter ≠ '\n')
    (noEquals : mark ≠ '=') {front rest : List Char}
    (occurs : aliasHeader.occursIn (front ++ mark :: (between ++ mark :: rest)) = true) :
    aliasHeader.occursIn (front ++ mark :: (other ++ mark :: rest)) = true := by
  rw [aliasHeader_eq] at occurs ⊢
  have spaced := only_spaced noSpace
  have word (text : String) (named : text.toList.all isName = true) :
      (inOrder [literal text, gap]).Only (· ≠ mark) := by
    apply only_inOrder
    simp only [List.forall_mem_cons]
    exact ⟨only_spelled noName named, ⟨spaced, spaced⟩, List.forall_mem_nil _⟩
  have opens : (inOrder aliasOpening).Only (· ≠ mark) := by
    apply only_inOrder
    simp only [aliasOpening, List.forall_mem_cons]
    exact ⟨trivial, only_optional (word "export" (by decide)),
      only_optional (word "declare" (by decide)), only_spelled noName (by decide),
      ⟨spaced, spaced⟩, only_named noName, List.forall_mem_nil _⟩
  have closes : (inOrder aliasEnding).Only (· ≠ mark) := by
    apply only_inOrder
    simp only [aliasEnding, List.forall_mem_cons]
    exact ⟨only_literal (List.forall_mem_singleton.mpr noEquals.symm), spaced, trivial,
      List.forall_mem_nil _⟩
  have looksAhead : (inOrder aliasOpening).LooksAhead :=
    looksAhead_inOrder (by simp [aliasOpening, looksAhead_optional, looksAhead_inOrder])
  have looksBack : (inOrder aliasEnding).LooksBack := looksBack_inOrder (by simp [aliasEnding])
  have outside := isWord_of_not_isName noName
  obtain ⟨start, kept, passed, finish, rfl, rfl, startFits, finishFits, allowed⟩ :=
    exists_stretch opens closes outside looksAhead looksBack
      (fun _ _ _ fits => fits.before_eq_nil)
      (fun _ _ _ fits => Fits.after_eq_nil [literal "=", spaces] fits) occurs
  apply occursIn_of_stretch outside looksAhead looksBack startFits finishFits
  have otherAllowed : ∀ letter ∈ other, (!"\n".toList.contains letter) = true := by
    intro letter member
    simpa using inLine letter member
  simp only [List.forall_mem_append, List.forall_mem_cons]
  exact ⟨allowed.2.1, allowed.1, otherAllowed, allowed.1, allowed.2.2⟩

end Words

end Brace

/-! ## Two strings that are judged alike -/

theorem QuoteStyle.isName_quote (style : QuoteStyle) : isName style.quote = false := by
  cases style with
  | single => decide
  | double => decide

/-- The texts that the tests of a brace look for at its two ends. -/
def quoteless : List String := [":", "=>", "case ", "default:"] ++ Brace.objectEndings

theorem QuoteStyle.quote_not_mem (style : QuoteStyle) :
    ∀ marker ∈ quoteless, style.quote ∉ marker.toList := by
  cases style with
  | single => decide
  | double => decide

namespace StringLiteral

variable {style : QuoteStyle} {literal other : StringLiteral style}

/-- Strings that no test of a brace tells apart. -/
structure Resembles (literal other : StringLiteral style) : Prop where
  class_eq : Brace.classHeader.occursIn literal.body = Brace.classHeader.occursIn other.body
  interface_eq :
    Brace.interfaceHeader.occursIn literal.body = Brace.interfaceHeader.occursIn other.body
  goesOn : ∀ letter ∈ literal.body ++ other.body, Brace.endsSegment letter = false
  inLine : ∀ letter ∈ literal.body ++ other.body, letter ≠ '\n'

theorem Resembles.letters_goOn (resembles : literal.Resembles other) :
    (∀ letter ∈ literal.letters, Brace.endsSegment letter = false) ∧
      ∀ letter ∈ other.letters, Brace.endsSegment letter = false := by
  have quote : Brace.endsSegment style.quote = false := by
    cases style with
    | single => rfl
    | double => rfl
  have goesOn := List.forall_mem_append.mp resembles.goesOn
  simp only [letters, List.forall_mem_cons, List.forall_mem_append]
  exact ⟨⟨quote, goesOn.1, quote, List.forall_mem_nil _⟩,
    quote, goesOn.2, quote, List.forall_mem_nil _⟩

theorem aliasHeader_append_letters (resembles : literal.Resembles other)
    (front back : List Char) :
    Brace.aliasHeader.occursIn (front ++ style.quote :: (literal.body ++ style.quote :: back)) =
      Brace.aliasHeader.occursIn (front ++ style.quote :: (other.body ++ style.quote :: back)) := by
  have noEquals : style.quote ≠ '=' :=
    (style.quote_not_mem "=" (by decide)) ∘ List.mem_singleton.mpr
  have inLine := List.forall_mem_append.mp resembles.inLine
  apply Bool.eq_iff_iff.mpr
  constructor
  · exact Brace.occursIn_aliasHeader style.isName_quote style.isSpace_quote inLine.2 noEquals
  · exact Brace.occursIn_aliasHeader style.isName_quote style.isSpace_quote inLine.1 noEquals

theorem kindAfter_append_letters (resembles : literal.Resembles other) (front back : List Char)
    (top : Option Frame) :
    Brace.kindAfter (front ++ literal.letters ++ back) top =
      Brace.kindAfter (front ++ other.letters ++ back) top := by
  have noName := style.isName_quote
  have noSpace := style.isSpace_quote
  have noBinding (body : List Char) :
      Brace.bindingHead.occursIn (front ++ style.quote :: (body ++ style.quote :: back)) = false :=
    Brace.not_bindingHead (List.mem_append_right front List.mem_cons_self)
      (Brace.isWord_of_not_isName noName) noSpace
  have noDefault (body : List Char) :
      (front ++ style.quote :: (body ++ style.quote :: back) == "default:".toList) = false := by
    rw [beq_eq_false_iff_ne]
    intro same
    apply style.quote_not_mem "default:" (by decide)
    rw [← same]
    exact List.mem_append_right front List.mem_cons_self
  have value (body : List Char) :
      Brace.valueWordEnd.occursIn (front ++ style.quote :: (body ++ style.quote :: back)) =
        Brace.valueWordEnd.occursIn (style.quote :: back) := by
    rw [← List.cons_append, ← List.append_assoc]
    exact Brace.occursIn_valueWordEnd noName _ back
  have ends (marker : String) (member : marker ∈ quoteless) (body : List Char) :
      endsIn marker (front ++ style.quote :: (body ++ style.quote :: back)) =
        endsIn marker back := by
    have absent := style.quote_not_mem marker member
    rw [endsIn_append_mark absent, endsIn_append_mark absent]
  have begins (body : List Char) :
      beginsWith "case " (front ++ style.quote :: (body ++ style.quote :: back)) =
        beginsWith "case " front :=
    beginsWith_append_mark (style.quote_not_mem "case " (by decide)) _ _
  have nonempty (body : List Char) :
      (front ++ style.quote :: (body ++ style.quote :: back)).isEmpty = false := by
    cases front with
    | nil => rfl
    | cons letter others => rfl
  rw [append_letters, append_letters]
  -- each test comes down to the code before the string, the code behind it and the two bodies
  simp (disch := decide) only [Brace.kindAfter, Brace.occursIn_enumHeader noName noSpace,
    Brace.occursIn_interfaceHeader noName noSpace, Brace.occursIn_classHeader noName,
    Brace.occursIn_controlHeader noName, aliasHeader_append_letters resembles,
    resembles.class_eq, resembles.interface_eq, noBinding, noDefault, value, ends, begins, nonempty,
    Brace.objectEndings, List.any_cons, List.any_nil]

end StringLiteral

/-! ## Scans that differ in a string -/

/-- A text, and the text with another part in the place of one part. -/
def Exchanges (part other text changed : List Char) : Prop :=
  text = changed ∨
    ∃ front back, text = front ++ part ++ back ∧ changed = front ++ other ++ back

namespace Exchanges

variable {style : QuoteStyle} {literal other : StringLiteral style} {text changed : List Char}

theorem append {part further : List Char} (exchanges : Exchanges part further text changed)
    (back : List Char) : Exchanges part further (text ++ back) (changed ++ back) := by
  rcases exchanges with rfl | ⟨front, rest, rfl, rfl⟩
  · exact Or.inl rfl
  · exact Or.inr ⟨front, rest ++ back, by simp, by simp⟩

theorem trim (exchanges : Exchanges literal.letters other.letters text changed) :
    Exchanges literal.letters other.letters (Text.trim text) (Text.trim changed) := by
  rcases exchanges with rfl | ⟨front, back, rfl, rfl⟩
  · exact Or.inl rfl
  · rw [literal.trim_append_letters, other.trim_append_letters]
    exact Or.inr ⟨_, _, rfl, rfl⟩

theorem isEmpty (exchanges : Exchanges literal.letters other.letters text changed) :
    text.isEmpty = changed.isEmpty := by
  rcases exchanges with rfl | ⟨front, back, rfl, rfl⟩
  · rfl
  · cases front with
    | nil => rfl
    | cons letter others => rfl

/-- A segment holds the whole string or nothing of it. -/
theorem segmentOf (resembles : literal.Resembles other)
    (exchanges : Exchanges literal.letters other.letters text.reverse changed.reverse) :
    Exchanges literal.letters other.letters (Brace.segmentOf text) (Brace.segmentOf changed) := by
  apply Exchanges.trim
  rcases exchanges with same | ⟨front, back, textEq, changedEq⟩
  · rw [List.reverse_inj.mp same]
    exact Or.inl rfl
  · have textEq : text = back.reverse ++ (literal.letters.reverse ++ front.reverse) := by
      rw [← List.reverse_reverse text, textEq]
      simp
    have changedEq : changed = back.reverse ++ (other.letters.reverse ++ front.reverse) := by
      rw [← List.reverse_reverse changed, changedEq]
      simp
    rw [textEq, changedEq]
    by_cases goesOn : ∀ letter ∈ back, Brace.endsSegment letter = false
    · simp only [Brace.takeWhile_reverse_append goesOn,
        Brace.takeWhile_reverse_append resembles.letters_goOn.1,
        Brace.takeWhile_reverse_append resembles.letters_goOn.2]
      refine Or.inr ⟨(front.reverse.takeWhile fun letter => !Brace.endsSegment letter).reverse,
        back, ?_, ?_⟩
      · simp
      · simp
    · simp only [Brace.takeWhile_append_of_ends goesOn]
      exact Or.inl rfl

theorem judge (resembles : literal.Resembles other) {previous further : List Char}
    (codes : Exchanges literal.letters other.letters text.reverse changed.reverse)
    (lines : Exchanges literal.letters other.letters previous further) (top : Option Frame) :
    Brace.judge text previous top = Brace.judge changed further top := by
  have kinds {segment following : List Char}
      (exchanges : Exchanges literal.letters other.letters segment following) :
      Brace.kindAfter segment top = Brace.kindAfter following top := by
    rcases exchanges with rfl | ⟨front, back, rfl, rfl⟩
    · rfl
    · exact StringLiteral.kindAfter_append_letters resembles front back top
  have own := codes.segmentOf resembles
  unfold Brace.judge
  dsimp only
  rw [own.isEmpty]
  split
  · apply kinds
    apply segmentOf resembles
    rw [List.reverse_reverse, List.reverse_reverse]
    exact lines
  · exact kinds own

end Exchanges

theorem Frame.agrees_eq : Frame.Agrees Eq = Eq := by
  funext first second
  apply propext
  constructor
  · intro agree
    cases agree with
    | paren header => rfl
    | bracket => rfl
    | brace related line => rw [related]
  · rintro rfl
    cases first with
    | paren header => exact .paren header
    | bracket => exact .bracket
    | brace kind line => exact .brace rfl line

theorem Frame.stacksAgree_eq : Frame.StacksAgree Eq = Eq := by
  funext first second
  rw [Frame.StacksAgree, Frame.agrees_eq, List.forall₂_eq_eq_eq]

/-- Code that differs in a string, and the same kinds of braces. -/
def Tolerance.strings {style : QuoteStyle} {literal other : StringLiteral style}
    (resembles : literal.Resembles other) : Tolerance where
  texts := Exchanges literal.letters other.letters
  lines := Exchanges literal.letters other.letters
  kinds := Eq
  texts_refl _ := Or.inl rfl
  lines_refl _ := Or.inl rfl
  kinds_refl _ := rfl
  append back exchanges := exchanges.append back
  trim exchanges := exchanges.trim
  isEmpty_trim exchanges := exchanges.trim.isEmpty
  judge := by
    intro first second previous changed stack others codes lines frames
    rw [Frame.stacksAgree_eq] at frames
    rw [frames]
    exact codes.judge resembles lines others.head?

/-- Behind either of two strings that resemble each other the same delimiters open and close, with
the same kinds of braces, on the rest of the line and on the lines below. -/
theorem stacksOver_string_keepsKinds (scanner : Scanner) (index : Nat) {style : QuoteStyle}
    {literal other : StringLiteral style} (resembles : literal.Resembles other)
    {before : List Char} (reads : (scanner.progressOver index before).ReadsCode)
    (after : List Char) (following : List (Nat × List Char)) :
    (scanner.progressOver index (before ++ literal.letters)).stacksOver
          ⟨index, scanner.previous⟩ after =
        (scanner.progressOver index (before ++ other.letters)).stacksOver
          ⟨index, scanner.previous⟩ after ∧
      (scanner.scanLine index (before ++ literal.letters ++ after)).2.stacksOver following =
        (scanner.scanLine index (before ++ other.letters ++ after)).2.stacksOver following := by
  have tolerated : ∀ front, (Tolerance.strings resembles).texts (front ++ literal.letters)
      (front ++ other.letters) :=
    fun front => Or.inr ⟨front, [], (List.append_nil _).symm, (List.append_nil _).symm⟩
  have progresses := Scanner.agrees_progressOver reads tolerated []
  rw [List.append_nil, List.append_nil] at progresses
  have context := (Scanner.Agrees.refl (Tolerance.strings resembles) scanner).context index
  have onLine := progresses.stacksOver context after
  have below := (Scanner.agrees_behind reads tolerated after).stacksOver following
  have same : Frame.StacksAgree (Tolerance.strings resembles).kinds = Eq := Frame.stacksAgree_eq
  rw [same, List.forall₂_eq_eq_eq] at onLine below
  rw [List.forall₂_eq_eq_eq] at below
  exact ⟨onLine, below⟩

/-- A title with a class in it is judged like another one with a class in it. -/
theorem stacksOver_string_keepsKinds_class :
    let titles : StringLiteral .single × StringLiteral .single :=
      (⟨"is a class".toList, forall_of_all (by decide)⟩,
        ⟨"class of its own".toList, forall_of_all (by decide)⟩)
    titles.1.Resembles titles.2 ∧ (({} : Scanner).progressOver 0 "it(".toList).ReadsCode ∧
      (({} : Scanner).progressOver 0 "it('is a class'".toList).stacksOver ⟨0, []⟩
          ", () => \x7b".toList =
        (({} : Scanner).progressOver 0 "it('class of its own'".toList).stacksOver ⟨0, []⟩
          ", () => \x7b".toList := by
  intro titles
  have resembles : titles.1.Resembles titles.2 := by
    constructor
    · decide +kernel
    · decide +kernel
    · exact forall_of_all (by decide)
    · exact forall_of_all (by decide)
  have reads : (({} : Scanner).progressOver 0 "it(".toList).ReadsCode := Or.inl rfl
  have keeps := stacksOver_string_keepsKinds {} 0 resembles reads ", () => \x7b".toList []
  exact ⟨resembles, reads, keeps.1⟩

/-- A word in a title turns the body of a test into the body of a class. -/
theorem scanLine_string_changesKind :
    (({} : Scanner).progressOver 0 "it(".toList).ReadsCode ∧
      (({} : Scanner).scanLine 0 "it('class', () => \x7b".toList).1.endStack =
        [.brace .classBody 0, .paren false] ∧
      (({} : Scanner).scanLine 0 "it('title', () => \x7b".toList).1.endStack =
        [.brace .block 0, .paren false] := by
  refine ⟨Or.inl rfl, ?_, ?_⟩
  · decide +kernel
  · decide +kernel

end ScriptLint
