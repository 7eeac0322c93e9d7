import ScriptLint.Outline.Basic
import ScriptLint.Proofs.Document.Whole
import ScriptLint.Proofs.Text.Surroundings

/-!
# The edges of declared names

A declared name ends where its characters end: a name of a function or a variable is the last part
of its pattern and takes all characters it can, and behind a member's name comes white space or a
mark. In front of it stands white space or a mark too, or nothing, except that the word for a
function needs no space behind it.
-/

namespace ScriptLint.Declaration

open Text Text.Pattern

variable {code before after : List Char} {span : Span} {found : Match}

theorem isName_space : isName ' ' = false := by
  decide

theorem ne_space_of_isName {letter : Char} (accepted : isName letter = true) : letter ≠ ' ' := by
  intro same
  rw [same, isName_space] at accepted
  cases accepted

theorem opensWith_of_bodies {pattern : Pattern} (bodiesEq : pattern.bodies 1 = [identifier]) :
    ∀ body ∈ pattern.bodies 1, body.OpensWith (· ≠ ' ') := by
  rw [bodiesEq]
  intro body member
  rw [List.mem_singleton.mp member]
  exact Or.inl fun _ => ne_space_of_isName

theorem bodies_functionPattern : functionPattern.bodies 1 = [identifier] := by
  simp [functionPattern, bodies]

theorem bodies_variablePattern : variablePattern.bodies 1 = [identifier] := by
  simp [variablePattern, bodies]

theorem bodies_methodPattern : methodPattern.bodies 1 = [identifier] := by
  simp [methodPattern, decorators, modifiers, typeParameters, repeated, bodies]

theorem bodies_propertyPattern : propertyPattern.bodies 1 = [identifier] := by
  simp [propertyPattern, decorators, modifiers, repeated, bodies]

/-- A name that is recorded in code, with what stands in front of it and behind it. -/
structure Records (code : List Char) (span : Span) (before after : List Char) : Prop where
  code_eq : code = before ++ (span.letters ++ after)
  start_eq : span.start = byteLength before
  nonempty : span.letters ≠ []
  inside : ∀ letter ∈ span.letters, isName letter = true
  ends : EndsClass isName after

/-! ## Parts of the patterns -/

/-- No character of a name. -/
def IsApart (letter : Char) : Prop := isName letter = false

theorem isApart_of_isSpace (letter : Char) (spaced : isSpace letter = true) : IsApart letter :=
  isName_of_isSpace spaced

theorem isApart_of_mem {marks : List Char} {mark : Char} (apart : marks.any isName = false)
    (member : mark ∈ marks) : IsApart mark :=
  Bool.eq_false_iff.mpr (List.any_eq_false.mp apart mark member)

theorem isApart_of_contains {marks : List Char} (apart : marks.any isName = false)
    (letter : Char) (member : marks.contains letter = true) : IsApart letter :=
  isApart_of_mem apart (List.contains_iff_mem.mp member)

theorem moves_literal {text : String} {mark : Char} (member : mark ∈ text.toList) :
    (literal text).Moves :=
  moves_inOrder (List.mem_map_of_mem member) trivial

theorem finishesIn_literal {text : String} (apart : text.toList.any isName = false) :
    (literal text).FinishesIn IsApart := by
  apply finishesIn_inOrder
  intro pattern member
  obtain ⟨mark, markMember, rfl⟩ := List.mem_map.mp member
  exact fun letter same => beq_iff_eq.mp same ▸ isApart_of_mem apart markMember

theorem beginsIn_literal {text : String} (apart : text.toList.any isName = false) :
    (literal text).BeginsIn IsApart := by
  apply beginsIn_inOrder
  intro pattern member
  obtain ⟨mark, markMember, rfl⟩ := List.mem_map.mp member
  exact fun letter same => beq_iff_eq.mp same ▸ isApart_of_mem apart markMember

theorem finishesIn_spaces : spaces.FinishesIn IsApart := isApart_of_isSpace

theorem beginsIn_spaces : spaces.BeginsIn IsApart := isApart_of_isSpace

theorem moves_gap : gap.Moves := .inl trivial

theorem finishesIn_gap : gap.FinishesIn IsApart := ⟨isApart_of_isSpace, .inr isApart_of_isSpace⟩

theorem finishesIn_star : (Pattern.optional (literal "*")).FinishesIn IsApart :=
  ⟨finishesIn_literal (by decide), trivial⟩

/-- Each decorator ends with the white space behind it. -/
theorem finishesIn_decorators : decorators.FinishesIn IsApart :=
  finishesIn_inOrder_concat [_, _, _] finishesIn_gap moves_gap

theorem finishesIn_modifiers (words : List String) : (modifiers words).FinishesIn IsApart :=
  ⟨finishesIn_gap, .inl moves_gap⟩

theorem beginsIn_typeParameters : typeParameters.BeginsIn IsApart :=
  ⟨beginsIn_inOrder_cons _ (beginsIn_literal (by decide)) (moves_literal List.mem_cons_self),
    trivial⟩

/-- What stands in front of the name of a method, from the start of the line on. -/
theorem finishesIn_methodHead :
    (inOrder [spaces, decorators, modifiers methodModifiers, Pattern.optional (literal "*"),
      spaces]).FinishesIn IsApart := by
  apply finishesIn_inOrder
  simp only [List.forall_mem_cons]
  exact ⟨finishesIn_spaces, finishesIn_decorators, finishesIn_modifiers _, finishesIn_star,
    finishesIn_spaces, List.forall_mem_nil _⟩

theorem finishesIn_propertyHead :
    (inOrder [spaces, decorators, modifiers propertyModifiers]).FinishesIn IsApart := by
  apply finishesIn_inOrder
  simp only [List.forall_mem_cons]
  exact ⟨finishesIn_spaces, finishesIn_decorators, finishesIn_modifiers _, List.forall_mem_nil _⟩

theorem beginsIn_methodTail :
    (inOrder [spaces, typeParameters, spaces, literal "("]).BeginsIn IsApart := by
  apply beginsIn_inOrder
  simp only [List.forall_mem_cons]
  exact ⟨beginsIn_spaces, beginsIn_typeParameters, beginsIn_spaces, beginsIn_literal (by decide),
    List.forall_mem_nil _⟩

theorem beginsIn_propertyTail :
    (inOrder [spaces, Pattern.optional (oneOf "?!"), spaces, oneOf ":=;"]).BeginsIn IsApart := by
  apply beginsIn_inOrder
  simp only [List.forall_mem_cons]
  exact ⟨beginsIn_spaces, ⟨isApart_of_contains (by decide), trivial⟩, beginsIn_spaces,
    isApart_of_contains (by decide), List.forall_mem_nil _⟩

/-- Between the word for a function and its name. -/
theorem finishesIn_functionGap :
    (inOrder [spaces, Pattern.optional (literal "*"), spaces]).FinishesIn IsApart := by
  apply finishesIn_inOrder
  simp only [List.forall_mem_cons]
  exact ⟨finishesIn_spaces, finishesIn_star, finishesIn_spaces, List.forall_mem_nil _⟩

/-! ## Names -/

theorem any_isName_eq_false {letter? : Option Char} (apart : ∀ letter ∈ letter?, IsApart letter) :
    letter?.any isName = false := by
  cases letter? with
  | none => rfl
  | some letter => exact apart letter rfl

/-- A name that is the last part of its pattern takes all characters of a name. -/
theorem exists_records_of_last {leading : List Pattern}
    (member : found ∈ (inOrder (leading ++ [group 1 identifier])).searchAll code)
    (recorded : found.group? 1 = some span) :
    ∃ before front after, (inOrder leading).Fits before front (span.letters ++ after) ∧
      Records code span (before ++ front) after := by
  obtain ⟨before, front, name, after, codeEq, fits, nonempty, inside, ends, group⟩ :=
    exists_around_of_mem_searchAll member
  obtain rfl := Option.some.inj (group.symm.trans recorded)
  refine ⟨before, front, after, fits, ?_, rfl, nonempty, inside, ends⟩
  rw [codeEq, List.append_assoc]
  rfl

/-- The name of a variable is recorded behind white space. -/
theorem exists_records_of_variable (member : found ∈ variablePattern.searchAll code)
    (recorded : found.group? 1 = some span) :
    ∃ before after, Records code span before after ∧ before.getLast?.any isName = false := by
  obtain ⟨before, front, after, fits, records⟩ := @exists_records_of_last _ _ _
    [atWordEdge, wordOf ["let", "const", "var"], gap] member recorded
  have finishes : (inOrder [atWordEdge, wordOf ["let", "const", "var"], gap]).FinishesIn IsApart :=
    finishesIn_inOrder_concat [_, _] finishesIn_gap moves_gap
  have nonempty := fits.hasEnds.ne_nil (moves_inOrder (by simp) moves_gap)
  refine ⟨before ++ front, after, records, any_isName_eq_false ?_⟩
  rw [List.getLast?_append_of_ne_nil _ nonempty]
  exact fits.hasEnds.last IsApart finishes

/-- The name of a function is recorded behind white space or a star, or directly behind the word for
a function. -/
theorem exists_records_of_function (member : found ∈ functionPattern.searchAll code)
    (recorded : found.group? 1 = some span) :
    ∃ before after, Records code span before after ∧
      (before.getLast?.any isName = false ∨ "function".toList <:+ before) := by
  obtain ⟨before, front, after, fits, records⟩ := @exists_records_of_last _ _ _
    [atWordEdge, literal "function", spaces, Pattern.optional (literal "*"), spaces] member recorded
  refine ⟨before ++ front, after, records, ?_⟩
  rw [fits_inOrder_cons] at fits
  obtain ⟨edge, passed, rfl, edgeFits, fits⟩ := fits
  obtain rfl := edgeFits.eq_nil trivial
  rw [fits_inOrder_cons] at fits
  obtain ⟨word, between, rfl, wordFits, fits⟩ := fits
  obtain rfl := fits_literal.mp wordFits
  rw [List.nil_append, ← List.append_assoc]
  by_cases adjacent : between = []
  · right
    rw [adjacent, List.append_nil]
    exact List.suffix_append before _
  · left
    apply any_isName_eq_false
    rw [List.getLast?_append_of_ne_nil _ adjacent]
    exact fits.hasEnds.last IsApart finishesIn_functionGap

/-- The name of a member is recorded between what no name goes on with, or at the start. -/
theorem exists_records_of_member {leading trailing : List Pattern}
    (isMatch : IsMatch (inOrder (atStart :: leading ++ group 1 identifier :: trailing)) code found)
    (bodiesEq : (inOrder (atStart :: leading ++ group 1 identifier :: trailing)).bodies 1 =
      [identifier])
    (finishes : (inOrder leading).FinishesIn IsApart)
    (begins : (inOrder trailing).BeginsIn IsApart) (moves : (inOrder trailing).Moves)
    (recorded : found.group? 1 = some span) :
    ∃ before after, Records code span before after ∧ before.getLast?.any isName = false := by
  obtain ⟨before, front, back, after, codeEq, startEq, fitsFront, fitsName, fitsBack⟩ :=
    isMatch.exists_around bodiesEq recorded
  obtain ⟨nonempty, inside⟩ := fits_identifier.mp fitsName
  rw [fits_inOrder_cons] at fitsFront
  obtain ⟨nothing, passed, rfl, startFits, fitsPassed⟩ := fitsFront
  obtain ⟨rfl, rfl⟩ := fits_atStart.mp startFits
  have ends : EndsClass isName (back ++ after) := by
    apply any_isName_eq_false
    rw [List.head?_append_of_ne_nil _ (fitsBack.hasEnds.ne_nil moves)]
    exact fitsBack.hasEnds.head IsApart begins
  exact ⟨passed, back ++ after, ⟨codeEq, startEq, nonempty, inside, ends⟩,
    any_isName_eq_false (fitsPassed.hasEnds.last IsApart finishes)⟩

theorem exists_records_of_method (matched : methodPattern.search? code = some found)
    (recorded : found.group? 1 = some span) :
    ∃ before after, Records code span before after ∧ before.getLast?.any isName = false := by
  have moves : (inOrder [spaces, typeParameters, spaces, literal "("]).Moves :=
    @moves_inOrder (literal "(") _ (by simp) (moves_literal List.mem_cons_self)
  exact @exists_records_of_member _ _ _
    [spaces, decorators, modifiers methodModifiers, Pattern.optional (literal "*"), spaces] _
    (isMatch_of_search? matched) bodies_methodPattern finishesIn_methodHead beginsIn_methodTail moves
    recorded

theorem exists_records_of_property (matched : propertyPattern.search? code = some found)
    (recorded : found.group? 1 = some span) :
    ∃ before after, Records code span before after ∧ before.getLast?.any isName = false := by
  have moves : (inOrder [spaces, Pattern.optional (oneOf "?!"), spaces, oneOf ":=;"]).Moves :=
    @moves_inOrder (oneOf ":=;") _ (by simp) trivial
  exact @exists_records_of_member _ _ _ [spaces, decorators, modifiers propertyModifiers] _
    (isMatch_of_search? matched) bodies_propertyPattern finishesIn_propertyHead
    beginsIn_propertyTail moves recorded

/-! ## Declarations -/

/-- A declaration has the place and the letters of a name that is recorded in the code of a line.
Only a function's name may follow the characters of a name, and they are the word for a function. -/
structure IsRecorded (index : Nat) (line : ScannedLine) (declaration : Declaration)
    (before after : List Char) : Prop where
  line_eq : declaration.line = index
  character_eq : declaration.character = line.column (byteLength before)
  code_eq : line.code = before ++ (declaration.name ++ after)
  nonempty : declaration.name ≠ []
  inside : ∀ letter ∈ declaration.name, isName letter = true
  begins : before.getLast?.any isName = false ∨
    (declaration.kind = .function ∧ "function".toList <:+ before)
  ends : after.head?.any isName = false

variable {index : Nat} {line : ScannedLine} {enclosing instantiates : Option (List Char)}
  {declaration : Declaration}

theorem Records.isRecorded (records : Records line.code span before after) (kind : DeclarationKind)
    (begins : before.getLast?.any isName = false ∨
      (kind = .function ∧ "function".toList <:+ before)) :
    IsRecorded index line {
      kind, name := span.letters, line := index, character := line.column span.start, enclosing,
      instantiates } before after where
  line_eq := rfl
  character_eq := congrArg line.column records.start_eq
  code_eq := records.code_eq
  nonempty := records.nonempty
  inside := records.inside
  begins := begins
  ends := records.ends

theorem exists_isRecorded_of_mem_functions (member : declaration ∈ functions index line enclosing) :
    ∃ before after, IsRecorded index line declaration before after := by
  obtain ⟨found, foundMember, equality⟩ := List.mem_filterMap.mp member
  obtain ⟨span, recorded, rfl⟩ := Option.map_eq_some_iff.mp equality
  obtain ⟨before, after, records, begins⟩ := exists_records_of_function foundMember recorded
  exact ⟨before, after, records.isRecorded .function (begins.imp_right fun adjacent => ⟨rfl, adjacent⟩)⟩

theorem exists_isRecorded_of_mem_locals (member : declaration ∈ locals index line enclosing) :
    ∃ before after, IsRecorded index line declaration before after := by
  obtain ⟨found, foundMember, equality⟩ := List.mem_filterMap.mp member
  obtain ⟨span, recorded, rfl⟩ := Option.map_eq_some_iff.mp equality
  obtain ⟨before, after, records, begins⟩ := exists_records_of_variable foundMember recorded
  exact ⟨before, after, records.isRecorded .binding (.inl begins)⟩

theorem exists_isRecorded_of_member? (isMember : member? index line enclosing = some declaration) :
    ∃ before after, IsRecorded index line declaration before after := by
  unfold member? at isMember
  cases method : methodPattern.search? line.code with
  | some found =>
      simp only [method, Option.bind_eq_bind, Option.bind_some] at isMember
      obtain ⟨span, recorded, isMember⟩ := Option.bind_eq_some_iff.mp isMember
      split at isMember
      · cases isMember
      · cases isMember
        obtain ⟨before, after, records, begins⟩ := exists_records_of_method method recorded
        exact ⟨before, after, records.isRecorded .method (.inl begins)⟩
  | none =>
      cases property : propertyPattern.search? line.code with
      | some found =>
          simp only [method, property, Option.map_some, Option.bind_eq_bind, Option.bind_some]
            at isMember
          obtain ⟨span, recorded, isMember⟩ := Option.bind_eq_some_iff.mp isMember
          split at isMember
          · cases isMember
          · cases isMember
            obtain ⟨before, after, records, begins⟩ := exists_records_of_property property recorded
            exact ⟨before, after, records.isRecorded .property (.inl begins)⟩
      | none => simp [method, property] at isMember

theorem exists_isRecorded_of_mem_ofLine (member : declaration ∈ ofLine index line enclosing) :
    ∃ before after, IsRecorded index line declaration before after := by
  unfold ofLine at member
  split at member
  · exact exists_isRecorded_of_member? (Option.mem_toList.mp member)
  · rcases List.mem_append.mp member with isFunction | isLocal
    · exact exists_isRecorded_of_mem_functions isFunction
    · exact exists_isRecorded_of_mem_locals isLocal

/-! ## Places in the document -/

variable {document : Document}

theorem IsRecorded.visible (recorded : IsRecorded index line declaration before after) :
    ∀ letter ∈ declaration.name, letter ≠ ' ' :=
  fun letter member => ne_space_of_isName (recorded.inside letter member)

theorem IsRecorded.shows (recorded : IsRecorded index line declaration before after)
    (member : (line, index) ∈ document.scan.zipIdx) :
    document.Shows declaration.line declaration.character declaration.name before.getLast?
      after.head? := by
  rw [recorded.line_eq, recorded.character_eq]
  exact Document.shows_of_code member recorded.nonempty recorded.visible recorded.code_eq

/-- A word directly in front of a name in the code stands in front of it in the line. -/
theorem IsRecorded.isSuffix_take {word : List Char}
    (recorded : IsRecorded index line declaration before after)
    (member : (line, index) ∈ document.scan.zipIdx) (visible : ' ' ∉ word)
    (adjacent : word <:+ before) :
    word <:+ (document.line declaration.line).take declaration.character := by
  obtain ⟨earlier, rfl⟩ := adjacent
  have holds := Document.holds_of_mem_zipIdx member
  have codeEq : line.code = earlier ++ ((word ++ declaration.name) ++ after) := by
    rw [recorded.code_eq]
    simp only [List.append_assoc]
  have visibleBoth : ∀ letter ∈ word ++ declaration.name, letter ≠ ' ' :=
    List.forall_mem_append.mpr ⟨fun _ member same => visible (same ▸ member), recorded.visible⟩
  obtain ⟨initial, final, textEq, measured⟩ := exists_run_of_blankWhere
    (List.append_ne_nil_of_right_ne_nil word recorded.nonempty) visibleBoth
    (holds.code_eq.symm.trans (codeEq.trans (List.append_assoc _ _ _).symm))
  have columnEq : line.column (byteLength (earlier ++ word)) = (initial ++ word).length := by
    rw [ScannedLine.column, textEq, byteLength_append, ← measured, ← byteLength_append,
      ← List.append_assoc, List.append_assoc, charColumn_append]
  rw [recorded.line_eq, recorded.character_eq, columnEq, holds.line_eq, textEq,
    ← List.append_assoc, List.append_assoc, List.take_left]
  exact List.suffix_append initial word

theorem exists_isRecorded_of_mem_declarations
    (member : declaration ∈ (Outline.ofDocument document).declarations) :
    ∃ index line before after, (line, index) ∈ document.scan.zipIdx ∧
      IsRecorded index line declaration before after := by
  obtain ⟨entry, entryMember, declared⟩ := List.mem_flatMap.mp member
  split at declared
  · obtain ⟨before, after, recorded⟩ := exists_isRecorded_of_mem_ofLine declared
    exact ⟨entry.2, entry.1, before, after, entryMember, recorded⟩
  · exact absurd declared List.not_mem_nil

/-- A declared name stands in the document, and it is whole unless the word for a function stands
directly in front of it. -/
theorem isWholeAt_iff (ascii : document.IsAscii)
    (member : declaration ∈ (Outline.ofDocument document).declarations) :
    declaration.name <+: (document.line declaration.line).drop declaration.character ∧
      (document.IsWholeAt declaration.line declaration.character declaration.name.length ↔
        ¬(declaration.kind = .function ∧
          "function".toList <:+ (document.line declaration.line).take declaration.character)) := by
  obtain ⟨index, line, before, after, entryMember, recorded⟩ :=
    exists_isRecorded_of_mem_declarations member
  have shows := recorded.shows entryMember
  refine ⟨shows.isPrefix, ?_⟩
  constructor
  · rintro whole ⟨-, front, shape⟩
    have begins := whole.begins
    rw [Document.letterBefore?, ← shape, List.getLast?_append_of_ne_nil front (by decide)] at begins
    exact absurd begins (by decide)
  · intro apart
    rw [shows.isWholeAt_iff ascii]
    refine ⟨recorded.begins.resolve_right ?_, recorded.ends⟩
    rintro ⟨isFunction, adjacent⟩
    exact apart ⟨isFunction, recorded.isSuffix_take entryMember (by decide) adjacent⟩

end ScriptLint.Declaration
