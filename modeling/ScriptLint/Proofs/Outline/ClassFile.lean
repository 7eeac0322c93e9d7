import ScriptLint.Proofs.Outline.Code
import ScriptLint.Proofs.Source.Reading

/-!
# The outline of a file of classes

A file of classes is laid out line by line: the head of each class, its methods with their
variables, and the closing braces. What a line adds to the outline it adds in every document in
which the scanner comes to it with the same delimiters open, so it is stated by a contract, and the
contracts of neighbouring lines are put together. A declaration knows the line of the brace of its
class, and the head on that line is found among all heads, because heads come in the order of their
lines.
-/

namespace ScriptLint

open Text

namespace ClassFile

/-! ## Classes -/

/-- A variable that another one initialises. -/
structure Binding where
  name : Title
  value : Title

structure Method where
  name : Title
  bindings : List Binding

structure ClassDecl where
  name : Title
  parent : Option Parent
  methods : List Method

/-- A line of the file; those that declare a name come with the class around them. -/
inductive Line where
  | header (decl : ClassDecl)
  | method (decl : ClassDecl) (method : Method)
  | binding (decl : ClassDecl) (binding : Binding)
  | methodEnd
  | classEnd

/-- The characters of a line. -/
def Line.letters : Line → List Char
  | header decl => classHead decl.name decl.parent ++ " \x7b".toList
  | method _ member => "    ".toList ++ (methodHead member.name ++ " \x7b".toList)
  | binding _ item => "        ".toList ++ bindingCode item.name item.value
  | methodEnd => "    \x7d".toList
  | classEnd => "\x7d".toList

def Method.lines (decl : ClassDecl) (method : Method) : List Line :=
  .method decl method :: method.bindings.map (.binding decl) ++ [.methodEnd]

def ClassDecl.lines (decl : ClassDecl) : List Line :=
  .header decl :: decl.methods.flatMap (Method.lines decl) ++ [.classEnd]

end ClassFile

/-- A file of classes with different names. -/
structure ClassFile where
  classes : List ClassFile.ClassDecl
  distinct : (classes.map (·.name.letters)).Nodup
  /-- The last line ends with a line feed too. -/
  terminated : Bool

namespace ClassFile

def lines (file : ClassFile) : List Line := file.classes.flatMap ClassDecl.lines

def text (file : ClassFile) : List Char :=
  joinWith '\n' (file.lines.map Line.letters) ++ if file.terminated then ['\n'] else []

/-! ## The code of the lines -/

section Phrases

variable {index : Nat} {start : List Frame}

/-- White space of one line. -/
def spaces (count : Nat) : Blank :=
  ⟨List.replicate count ' ', fun letter member => by
    rw [List.eq_of_mem_replicate member]
    decide⟩

/-- The characters of the heads of classes. -/
def isHeadLetter (letter : Char) : Bool := letter.isAlpha || letter == ' ' || letter == '.'

theorem isHeadLetter_of_isAlpha {letter : Char} (alphabetic : letter.isAlpha = true) :
    isHeadLetter letter = true := by
  rw [isHeadLetter, alphabetic]
  rfl

theorem isInert_of_isHeadLetter {letter : Char} (inHead : isHeadLetter letter = true) :
    isInert letter = true ∧ Brace.endsSegment letter = false := by
  simp only [isHeadLetter, Bool.or_eq_true, beq_iff_eq] at inHead
  rcases inHead with (alphabetic | rfl) | rfl
  · exact ⟨isInert_of_isAlpha alphabetic, Brace.endsSegment_of_isAlpha alphabetic⟩
  · exact ⟨rfl, rfl⟩
  · exact ⟨rfl, rfl⟩

theorem isHeadLetter_of_mem (title : Title) :
    ∀ letter ∈ title.letters, isHeadLetter letter = true :=
  fun letter member => isHeadLetter_of_isAlpha (title.alphabetic letter member)

theorem exists_parent_eq (parent : Parent) :
    ∃ (front : List Char) (last : Title), parent.letters = front ++ last.letters ∧
      ∀ letter ∈ front, isHeadLetter letter = true := by
  cases parent with
  | plain name => exact ⟨[], name, rfl, List.forall_mem_nil _⟩
  | framework name =>
      exact ⟨frameworkMarker.toList, name, rfl, List.all_eq_true.mp (by decide)⟩

/-- The head of a class ends with a name. -/
theorem exists_classHead_eq (name : Title) (parent : Option Parent) :
    ∃ (front : List Char) (last : Title), classHead name parent = front ++ last.letters ∧
      ∀ letter ∈ front, isHeadLetter letter = true := by
  have keyword : ∀ letter ∈ "class".toList ++ [' '], isHeadLetter letter = true :=
    List.all_eq_true.mp (by decide)
  have link : ∀ letter ∈ " extends ".toList, isHeadLetter letter = true :=
    List.all_eq_true.mp (by decide)
  have headEq : classHead name parent =
      "class".toList ++ [' '] ++ (name.letters ++ extensionLetters parent) := by
    rw [classHead, List.append_assoc, List.singleton_append]
  rw [headEq]
  cases parent with
  | none =>
      refine ⟨"class".toList ++ [' '], name, ?_, keyword⟩
      exact congrArg ("class".toList ++ [' '] ++ ·) (List.append_nil name.letters)
  | some parent =>
      obtain ⟨front, last, shape, inFront⟩ := exists_parent_eq parent
      refine ⟨"class".toList ++ [' '] ++ (name.letters ++ (" extends ".toList ++ front)), last,
        ?_, ?_⟩
      · have extensionEq : extensionLetters (some parent) =
            " extends ".toList ++ (front ++ last.letters) :=
          congrArg (" extends ".toList ++ ·) shape
        rw [extensionEq]
        simp only [List.append_assoc]
      · rw [List.forall_mem_append, @List.forall_mem_append _ _ name.letters,
          @List.forall_mem_append _ _ " extends ".toList]
        exact ⟨keyword, isHeadLetter_of_mem name, link, inFront⟩

theorem isHeadLetter_of_mem_classHead {name : Title} {parent : Option Parent} :
    ∀ letter ∈ classHead name parent, isHeadLetter letter = true := by
  obtain ⟨front, last, shape, inFront⟩ := exists_classHead_eq name parent
  rw [shape, List.forall_mem_append]
  exact ⟨inFront, isHeadLetter_of_mem last⟩

/-- The head of a class, as code of a row. -/
def classPhrase (name : Title) (parent : Option Parent) : Phrase where
  letters := classHead name parent
  plain letter member := isPlain_of_isInert
    (isInert_of_isHeadLetter (isHeadLetter_of_mem_classHead letter member)).1
  starts := rfl
  ends := by
    obtain ⟨front, last, shape, _⟩ := exists_classHead_eq name parent
    obtain ⟨letter, found, alphabetic⟩ := last.exists_getLast?
    rw [EndsClass, List.head?_reverse, shape, List.getLast?_append_of_ne_nil _ last.nonempty, found]
    exact isSpace_of_isAlpha alphabetic
  nonempty := List.cons_ne_nil _ _

theorem moves_classPhrase (name : Title) (parent : Option Parent) :
    (classPhrase name parent).braced.Moves index start (.brace .classBody index :: start) := by
  have inert : ∀ letter ∈ (classPhrase name parent).letters, isInert letter = true :=
    fun letter member => (isInert_of_isHeadLetter (isHeadLetter_of_mem_classHead letter member)).1
  have inside : ∀ letter ∈ (classPhrase name parent).letters, Brace.endsSegment letter = false :=
    fun letter member => (isInert_of_isHeadLetter (isHeadLetter_of_mem_classHead letter member)).2
  have moves := Phrase.moves_braced (@Phrase.moves_of_isInert _ index inert start) inside
  have kindEq : Brace.kindAfter (classPhrase name parent).letters start.head? = .classBody :=
    Brace.kindAfter_classHead name parent start.head?
  rwa [kindEq] at moves

/-- The head of a method, as code of a row. -/
def methodPhrase (name : Title) : Phrase :=
  (name.phrase.withMark .openParen).withMark .closeParen

theorem letters_methodPhrase (name : Title) : (methodPhrase name).letters = methodHead name := by
  rw [methodPhrase, Phrase.letters_withMark, Phrase.letters_withMark, List.append_assoc]
  rfl

theorem moves_methodPhrase (name : Title) :
    (methodPhrase name).braced.Moves index start (.brace .block index :: start) := by
  have moves : (methodPhrase name).Moves index start start := by
    intro scanner indent isAt
    have shape : indent.letters ++ (methodPhrase name).letters =
        indent.letters ++ name.letters ++ ['('] ++ [')'] := by
      rw [letters_methodPhrase]
      simp [methodHead]
    rw [shape, Progress.skim_append, Progress.stack_skim_closing (Or.inl rfl),
      Progress.skim_append, Progress.stack_skim_paren, List.tail_cons, Progress.skim_append,
      Progress.stack_skim_of_isInert name.isInert, Progress.stack_skim_of_isInert indent.isInert]
    exact isAt.stack_eq
  have inside : ∀ letter ∈ (methodPhrase name).letters, Brace.endsSegment letter = false := by
    rw [letters_methodPhrase, methodHead, List.forall_mem_append]
    exact ⟨name.endsSegment_eq, forall_eq_false_of_any (by decide)⟩
  have braced := Phrase.moves_braced moves inside
  rwa [letters_methodPhrase, Brace.kindAfter_methodHead] at braced

/-- The declaration of a variable, as code of a row. -/
def bindingPhrase (name value : Title) : Phrase :=
  ((((Phrase.keyword "let" (by decide)).join .space name.phrase).join .space
    (.ofMark .equals)).join .space value.phrase).withMark .semicolon

theorem letters_bindingPhrase (name value : Title) :
    (bindingPhrase name value).letters = bindingCode name value := by
  rw [bindingPhrase, Phrase.letters_withMark, bindingCode]
  simp [Phrase.join, Phrase.keyword, Phrase.word, Phrase.ofMark, Mark.letter, Blank.space]

theorem moves_bindingPhrase (name value : Title) :
    (bindingPhrase name value).Moves index start start := by
  have equals : ∀ letter ∈ (Phrase.ofMark .equals).letters, isInert letter = true :=
    List.forall_mem_singleton.mpr rfl
  refine Phrase.moves_withMark ?_ rfl
  refine Phrase.moves_join (Phrase.moves_join (Phrase.moves_join ?_ .space name.isInert) .space
    equals) .space value.isInert
  exact Phrase.moves_word _ _ start

end Phrases

def Line.indent : Line → Blank
  | header _ | classEnd => .none
  | method _ _ | methodEnd => spaces 4
  | binding _ _ => spaces 8

def Line.phrase : Line → Phrase
  | header decl => (classPhrase decl.name decl.parent).braced
  | method _ member => (methodPhrase member.name).braced
  | binding _ item => bindingPhrase item.name item.value
  | methodEnd | classEnd => .ofMark .closeBrace

theorem Line.letters_eq (item : Line) :
    item.letters = item.indent.letters ++ item.phrase.letters := by
  have bracedEq (head : Phrase) : head.braced.letters = head.letters ++ " \x7b".toList :=
    List.append_assoc head.letters [' '] ['\x7b']
  cases item with
  | header decl => exact (bracedEq (classPhrase decl.name decl.parent)).symm
  | method decl member =>
      rw [phrase, bracedEq, letters_methodPhrase]
      rfl
  | binding decl item =>
      rw [phrase, letters_bindingPhrase]
      rfl
  | methodEnd => rfl
  | classEnd => rfl

theorem Line.not_mem_letters (item : Line) : '\n' ∉ item.letters := by
  rw [item.letters_eq, List.mem_append, not_or]
  refine ⟨fun inIndent => (item.indent.spaced '\n' inIndent).2 rfl, fun inPhrase => ?_⟩
  exact (ne_of_isPlain (item.phrase.plain '\n' inPhrase)).2.2.2.2 rfl

theorem Line.dropReturn_letters (item : Line) : dropReturn item.letters = item.letters := by
  rw [item.letters_eq, dropReturn_append _ item.phrase.nonempty,
    item.phrase.toBody.dropReturn_letters]

/-! ## What lines add to the outline -/

def Line.header? (index : Nat) : Line → Option ClassHeader
  | header decl => some ⟨decl.name.letters, decl.parent.map Parent.letters, index⟩
  | method _ _ | binding _ _ | methodEnd | classEnd => none

/-- A name that a line declares in a class, behind the given characters of the line. -/
structure Declared where
  kind : DeclarationKind
  before : List Char
  name : Title
  owner : ClassDecl

def Line.declared? : Line → Option Declared
  | method decl member => some ⟨.method, "    ".toList, member.name, decl⟩
  | binding decl item => some ⟨.binding, "        let ".toList, item.name, decl⟩
  | header _ | methodEnd | classEnd => none

theorem Line.exists_letters_eq {item : Line} {declared : Declared}
    (found : item.declared? = some declared) :
    ∃ rest, item.letters = declared.before ++ declared.name.letters ++ rest := by
  cases item with
  | method decl member =>
      obtain rfl := Option.some.inj found
      refine ⟨"()".toList ++ " \x7b".toList, ?_⟩
      rw [List.append_assoc, ← List.append_assoc member.name.letters]
      rfl
  | binding decl item =>
      obtain rfl := Option.some.inj found
      refine ⟨" = ".toList ++ (item.value.letters ++ ";".toList), ?_⟩
      rw [List.append_assoc]
      rfl
  | header _ | methodEnd | classEnd => cases found

/-- The declaration on a line of a document. -/
def Declared.declaration (index : Nat) (declared : Declared) : Declaration where
  kind := declared.kind
  name := declared.name.letters
  line := index
  character := declared.before.length
  enclosing := some declared.owner.name.letters
  instantiates := none

/-- The heads of classes on lines with the given number on. -/
def headersFrom (index : Nat) (lines : List Line) : List ClassHeader :=
  (lines.zipIdx index).filterMap fun entry => entry.1.header? entry.2

def declarationsFrom (index : Nat) (lines : List Line) : List Declaration :=
  (lines.zipIdx index).filterMap fun entry => entry.1.declared?.map (Declared.declaration entry.2)

theorem headersFrom_append (index : Nat) (lines others : List Line) :
    headersFrom index (lines ++ others) =
      headersFrom index lines ++ headersFrom (index + lines.length) others := by
  rw [headersFrom, List.zipIdx_append, List.filterMap_append]
  rfl

theorem declarationsFrom_append (index : Nat) (lines others : List Line) :
    declarationsFrom index (lines ++ others) =
      declarationsFrom index lines ++ declarationsFrom (index + lines.length) others := by
  rw [declarationsFrom, List.zipIdx_append, List.filterMap_append]
  rfl

/-- Among the classes of a document the lines lead from one stack to the other, and they add their
heads of classes and their declarations to the outline. -/
structure HasOutline (classes : List ClassHeader) (index : Nat) (start stop : List Frame)
    (lines : List Line) : Prop where
  leaves : ∀ scanner : Scanner, scanner.IsAt start →
    (scanner.behind (numberedFrom index (lines.map Line.letters))).IsAt stop
  classes_eq : ∀ scanner : Scanner, scanner.IsAt start →
    Outline.classesOf
      ((scanner.scanNumbered (numberedFrom index (lines.map Line.letters))).zipIdx index) =
        headersFrom index lines
  declarations_eq : ∀ scanner : Scanner, scanner.IsAt start →
    Outline.declarationsOf classes
      ((scanner.scanNumbered (numberedFrom index (lines.map Line.letters))).zipIdx index) =
        declarationsFrom index lines

namespace HasOutline

variable {classes : List ClassHeader} {index : Nat} {start middle stop : List Frame}
  {lines others : List Line}

theorem nil : HasOutline classes index start start [] where
  leaves _ isAt := isAt
  classes_eq _ _ := rfl
  declarations_eq _ _ := rfl

theorem append (first : HasOutline classes index start middle lines)
    (second : HasOutline classes (index + lines.length) middle stop others) :
    HasOutline classes index start stop (lines ++ others) := by
  have numberedEq : numberedFrom index ((lines ++ others).map Line.letters) =
      numberedFrom index (lines.map Line.letters) ++
        numberedFrom (index + lines.length) (others.map Line.letters) := by
    rw [List.map_append, numberedFrom_append, List.length_map]
  have scannedEq (scanner : Scanner) :
      (scanner.scanNumbered
          (numberedFrom index ((lines ++ others).map Line.letters))).zipIdx index =
        (scanner.scanNumbered (numberedFrom index (lines.map Line.letters))).zipIdx index ++
          ((scanner.behind (numberedFrom index (lines.map Line.letters))).scanNumbered
            (numberedFrom (index + lines.length) (others.map Line.letters))).zipIdx
              (index + lines.length) := by
    have lengthEq := congrArg List.length
      (scanner.map_text_scanNumbered (numberedFrom index (lines.map Line.letters)))
    rw [List.length_map, List.length_map, length_numberedFrom, List.length_map] at lengthEq
    rw [numberedEq, Scanner.scanNumbered_append, List.zipIdx_append, lengthEq]
  constructor
  case leaves =>
    intro scanner isAt
    rw [numberedEq, Scanner.behind_append]
    exact second.leaves _ (first.leaves scanner isAt)
  case classes_eq =>
    intro scanner isAt
    have later := second.classes_eq _ (first.leaves scanner isAt)
    have here := first.classes_eq scanner isAt
    rw [Outline.classesOf] at here later
    rw [Outline.classesOf, scannedEq, List.flatMap_append, here, later, headersFrom_append]
  case declarations_eq =>
    intro scanner isAt
    have later := second.declarations_eq _ (first.leaves scanner isAt)
    have here := first.declarations_eq scanner isAt
    rw [Outline.declarationsOf] at here later
    rw [Outline.declarationsOf, scannedEq, List.flatMap_append, here, later,
      declarationsFrom_append]

/-- A line adds what its code declares. -/
theorem line {item : Line} (moves : item.phrase.Moves index start stop)
    (heads : ClassHeader.inCode index item.letters = (item.header? index).toList)
    (declares : ∀ line : ScannedLine, line.Spells item.letters start →
      Declaration.ofLine index line (Outline.enclosing? classes line) =
        (item.declared?.map (Declared.declaration index)).toList) :
    HasOutline classes index start stop [item] := by
  have spells (scanner : Scanner) (isAt : scanner.IsAt start) :
      (scanner.scanLine index item.letters).1.Spells item.letters start ∧
        (scanner.scanLine index item.letters).2.IsAt stop := by
    rw [item.letters_eq]
    exact isAt.scanLine_phrase moves item.indent
  constructor
  case leaves => exact fun scanner isAt => (spells scanner isAt).2
  case classes_eq =>
    intro scanner isAt
    have shown := (spells scanner isAt).1
    change Outline.classesOf [((scanner.scanLine index item.letters).1, index)] = _
    rw [Outline.classesOf, List.flatMap_singleton, shown.beginsCode_eq, if_pos rfl, shown.code_eq,
      heads, headersFrom, List.filterMap_eq_flatMap_toList]
    exact (List.append_nil _).symm
  case declarations_eq =>
    intro scanner isAt
    have shown := (spells scanner isAt).1
    change Outline.declarationsOf classes [((scanner.scanLine index item.letters).1, index)] = _
    rw [Outline.declarationsOf, List.flatMap_singleton, shown.beginsCode_eq, if_pos rfl,
      declares _ shown, declarationsFrom, List.filterMap_eq_flatMap_toList]
    exact (List.append_nil _).symm

end HasOutline

/-! ## The outline of a class -/

/-- The class is the one whose body the brace on the line opens. -/
def Holds (classes : List ClassHeader) (opened : Nat) (decl : ClassDecl) : Prop :=
  (Outline.classAt? classes opened).map (·.name) = some decl.name.letters

section Outlines

variable {classes : List ClassHeader} {index opened block : Nat} {decl : ClassDecl}
  {line : ScannedLine}

theorem enclosing?_body (holds : Holds classes opened decl)
    (stackEq : line.startStack = [.brace .classBody opened]) :
    Outline.enclosing? classes line = some decl.name.letters := by
  rw [Outline.enclosing?, stackEq, List.findSome?_cons]
  dsimp only
  rw [holds]

theorem enclosing?_block (holds : Holds classes opened decl)
    (stackEq : line.startStack = [.brace .block block, .brace .classBody opened]) :
    Outline.enclosing? classes line = some decl.name.letters := by
  rw [Outline.enclosing?, stackEq, List.findSome?_cons, List.findSome?_cons]
  dsimp only
  rw [holds]

theorem hasOutline_header (decl : ClassDecl) :
    HasOutline classes index [] [.brace .classBody index] [.header decl] := by
  refine .line (moves_classPhrase decl.name decl.parent)
    (ClassHeader.inCode_classHead decl.name decl.parent index) fun line spells => ?_
  apply Declaration.ofLine_classHead spells.code_eq
  rw [spells.startTop?_eq]
  rfl

theorem hasOutline_classEnd :
    HasOutline classes index [.brace .classBody opened] [] [.classEnd] := by
  refine .line (Phrase.moves_closing (Or.inr rfl) _ _)
    (ClassHeader.inCode_eq_nil (by decide) index) fun line spells => ?_
  have inside : line.startTop?.any (Frame.opens .classBody) = true := by
    rw [spells.startTop?_eq]
    rfl
  rw [Declaration.ofLine_of_inside inside, Declaration.member?_closing spells.code_eq]
  rfl

theorem hasOutline_method (holds : Holds classes opened decl) (member : Method) :
    HasOutline classes index [.brace .classBody opened]
      [.brace .block index, .brace .classBody opened] [.method decl member] := by
  have ordinary : AreOrdinary (Line.method decl member).letters :=
    areOrdinary_append (forall_eq_false_of_any (by decide)) (areOrdinary_methodHead member.name)
  refine .line (moves_methodPhrase member.name)
    (ClassHeader.inCode_eq_nil (ordinary.not_mem "class" (by decide)) index) fun line spells => ?_
  have inside : line.startTop?.any (Frame.opens .classBody) = true := by
    rw [spells.startTop?_eq]
    rfl
  rw [enclosing?_body holds spells.startStack_eq]
  exact @Declaration.ofLine_methodHead index line _ member.name (spaces 4) spells.code_eq
    spells.text_eq inside

theorem hasOutline_binding (holds : Holds classes opened decl) (item : Binding) :
    HasOutline classes index [.brace .block block, .brace .classBody opened]
      [.brace .block block, .brace .classBody opened] [.binding decl item] := by
  refine .line (moves_bindingPhrase item.name item.value)
    (ClassHeader.inCode_bindingCode item.name item.value (spaces 8) index) fun line spells => ?_
  have outside : line.startTop?.any (Frame.opens .classBody) = false := by
    rw [spells.startTop?_eq]
    rfl
  rw [enclosing?_block holds spells.startStack_eq]
  exact @Declaration.ofLine_bindingCode index line _ item.name item.value (spaces 8) spells.code_eq
    spells.text_eq outside

theorem hasOutline_methodEnd :
    HasOutline classes index [.brace .block block, .brace .classBody opened]
      [.brace .classBody opened] [.methodEnd] := by
  refine .line (Phrase.moves_closing (Or.inr rfl) _ _)
    (ClassHeader.inCode_eq_nil (by decide) index) fun line spells => ?_
  have ordinary : AreOrdinary line.code := by
    rw [spells.code_eq]
    exact areOrdinary_marks (forall_eq_false_of_any (by decide))
  have outside : line.startTop?.any (Frame.opens .classBody) = false := by
    rw [spells.startTop?_eq]
    rfl
  exact Declaration.ofLine_eq_nil ordinary outside index _

theorem hasOutline_bindings (holds : Holds classes opened decl) (items : List Binding) :
    HasOutline classes index [.brace .block block, .brace .classBody opened]
      [.brace .block block, .brace .classBody opened] (items.map (.binding decl)) := by
  induction items generalizing index with
  | nil => exact .nil
  | cons item rest inductionHypothesis =>
      exact (hasOutline_binding holds item).append inductionHypothesis

theorem Method.hasOutline (holds : Holds classes opened decl) (member : Method) :
    HasOutline classes index [.brace .classBody opened] [.brace .classBody opened]
      (member.lines decl) :=
  ((hasOutline_method holds member).append (hasOutline_bindings holds member.bindings)).append
    hasOutline_methodEnd

theorem hasOutline_methods (holds : Holds classes opened decl) (members : List Method) :
    HasOutline classes index [.brace .classBody opened] [.brace .classBody opened]
      (members.flatMap (Method.lines decl)) := by
  induction members generalizing index with
  | nil => exact .nil
  | cons member rest inductionHypothesis =>
      exact (member.hasOutline holds).append inductionHypothesis

theorem ClassDecl.hasOutline (holds : Holds classes index decl) :
    HasOutline classes index [] [] decl.lines :=
  ((hasOutline_header decl).append (hasOutline_methods holds decl.methods)).append
    hasOutline_classEnd

/-- Every class is found at its own brace if every head is found on its own line. -/
theorem hasOutline_classes (decls : List ClassDecl)
    (found : ∀ header ∈ headersFrom index (decls.flatMap ClassDecl.lines),
      Outline.classAt? classes header.line = some header) :
    HasOutline classes index [] [] (decls.flatMap ClassDecl.lines) := by
  induction decls generalizing index with
  | nil => exact .nil
  | cons decl rest inductionHypothesis =>
      rw [List.flatMap_cons, headersFrom_append, List.forall_mem_append] at found
      have holds : Holds classes index decl := by
        have isHead : ⟨decl.name.letters, decl.parent.map Parent.letters, index⟩ ∈
            headersFrom index decl.lines := List.mem_cons_self
        rw [Holds, found.1 _ isHead]
        rfl
      exact (ClassDecl.hasOutline holds).append (inductionHypothesis found.2)

end Outlines

/-! ## The outline of a file -/

theorem classAt?_eq_of_pairwise {classes : List ClassHeader}
    (increasing : classes.Pairwise (·.line < ·.line)) {header : ClassHeader}
    (member : header ∈ classes) : Outline.classAt? classes header.line = some header := by
  obtain ⟨before, after, rfl⟩ := List.append_of_mem member
  have below : ∀ later ∈ after, header.line < later.line :=
    (List.pairwise_cons.mp (List.pairwise_append.mp increasing).2.1).1
  have noLater : after.reverse.find? (fun later => later.line ≤ header.line) = none := by
    rw [List.find?_eq_none]
    intro later isLater
    have above := below later (List.mem_reverse.mp isLater)
    simpa using above
  rw [Outline.classAt?, List.reverse_append, List.reverse_cons, List.append_assoc,
    List.find?_append, noLater]
  simp

theorem line_eq_of_header? {item : Line} {index : Nat} {header : ClassHeader}
    (isHead : item.header? index = some header) : header.line = index := by
  cases item with
  | header decl =>
      cases isHead
      rfl
  | method _ _ | binding _ _ | methodEnd | classEnd => cases isHead

theorem pairwise_headersFrom (index : Nat) (lines : List Line) :
    (headersFrom index lines).Pairwise (·.line < ·.line) := by
  have increasing : (lines.zipIdx index).Pairwise (·.2 < ·.2) := by
    rw [← List.pairwise_map, List.zipIdx_map_snd]
    exact List.pairwise_lt_range'
  rw [headersFrom, List.pairwise_filterMap]
  refine increasing.imp fun less first isFirst second isSecond => ?_
  rw [line_eq_of_header? isFirst, line_eq_of_header? isSecond]
  exact less

theorem hasOutline (file : ClassFile) :
    HasOutline (headersFrom 0 file.lines) 0 [] [] file.lines :=
  hasOutline_classes file.classes fun _ member =>
    classAt?_eq_of_pairwise (pairwise_headersFrom 0 file.lines) member

end ClassFile

end ScriptLint
