import ScriptLint.Proofs.Outline.Code
import ScriptLint.Proofs.Rule.Order
import ScriptLint.Proofs.Source.Stack

/-!
# The owners of members

A stack remembers on which line a class body was opened, and the list of classes on which lines
their headers stand. An outline joins the two by the last header at or above the brace. This is the
header of the body if some header stands at the brace: on its line, or on the nearest code line
above a brace that has a line of its own. If none does, as with a class that has no name, the body
counts as one of the class above.
-/

namespace ScriptLint

open Text Text.Pattern

/-- The line on which a class body was opened. -/
def Frame.classLine? : Frame → Option Nat
  | .brace .classBody opened => some opened
  | _ => none

/-- The line on which the innermost class body was opened that is open at the start of a line. -/
def ScannedLine.classLine? (line : ScannedLine) : Option Nat :=
  line.startStack.findSome? Frame.classLine?

namespace Document

variable (document : Document)

/-- The line has no code but an opening brace. -/
def IsBraceAlone (number : Nat) : Prop :=
  ∃ line, document.scan[number]? = some line ∧ trim line.code = "\x7b".toList

/-- The line is the nearest one with code above another one. -/
def IsNearestCodeAbove (number other : Nat) : Prop :=
  number < other ∧ (∃ line, document.scan[number]? = some line ∧ line.isCode = true) ∧
    ∀ between line, number < between → between < other → document.scan[between]? = some line →
      line.isCode = false

/-- The header stands on the line of the brace, or on the nearest code line above if the brace has a
line of its own. -/
def HeaderStandsAt (brace : Nat) (header : ClassHeader) : Prop :=
  header.line = brace ∨
    (document.IsBraceAlone brace ∧ document.IsNearestCodeAbove header.line brace)

end Document

namespace Outline

variable {document : Document} {classes : List ClassHeader} {header other : ClassHeader}
  {line : ScannedLine} {brace : Nat}

/-! ## Headers -/

theorem line_eq_of_mem_inCode {number : Nat} {code : List Char}
    (member : header ∈ ClassHeader.inCode number code) : header.line = number := by
  obtain ⟨found, _, declared⟩ := List.mem_filterMap.mp member
  obtain ⟨span, _, rfl⟩ := Option.map_eq_some_iff.mp declared
  rfl

theorem mem_classesOf :
    header ∈ classesOf document.scan.zipIdx ↔ ∃ line, document.scan[header.line]? = some line ∧
      line.beginsCode = true ∧ header ∈ ClassHeader.inCode header.line line.code := by
  rw [classesOf, List.mem_flatMap]
  constructor
  · rintro ⟨⟨line, number⟩, entryMember, member⟩
    split at member
    · next begins =>
        have numberEq := line_eq_of_mem_inCode member
        have found := List.mem_zipIdx_iff_getElem?.mp entryMember
        exact ⟨line, numberEq ▸ found, begins, numberEq ▸ member⟩
    · exact absurd member List.not_mem_nil
  · rintro ⟨line, found, begins, member⟩
    refine ⟨(line, header.line), List.mem_zipIdx_iff_getElem?.mpr found, ?_⟩
    rw [if_pos begins]
    exact member

theorem line_eq_of_mem_entry {entry : ScannedLine × Nat} (member : header ∈
    if entry.1.beginsCode then ClassHeader.inCode entry.2 entry.1.code else []) :
    header.line = entry.2 := by
  split at member
  · exact line_eq_of_mem_inCode member
  · exact absurd member List.not_mem_nil

/-- The headers are listed from the first line on. -/
theorem pairwise_classesOf (document : Document) :
    (classesOf document.scan.zipIdx).Pairwise fun first second => first.line ≤ second.line := by
  rw [classesOf, List.pairwise_flatMap]
  constructor
  · intro entry _
    refine List.pairwise_of_forall_mem_list fun first firstMember second secondMember => ?_
    rw [line_eq_of_mem_entry firstMember, line_eq_of_mem_entry secondMember]
  · refine (pairwise_zipIdx document.scan 0).imp fun {entry below} before => ?_
    intro first firstMember second secondMember
    rw [line_eq_of_mem_entry firstMember, line_eq_of_mem_entry secondMember]
    exact Nat.le_of_lt before

/-- The header that is chosen for a brace is the last one at or above it. -/
theorem classAt?_eq_some (ordered : classes.Pairwise fun first second => first.line ≤ second.line)
    (found : classAt? classes brace = some header) :
    header ∈ classes ∧ header.line ≤ brace ∧
      ∀ other ∈ classes, other.line ≤ brace → other.line ≤ header.line := by
  obtain ⟨isAt, later, earlier, shape, isBelow⟩ := List.find?_eq_some_iff_append.mp found
  have classesEq : classes = earlier.reverse ++ header :: later.reverse := by
    rw [← List.reverse_reverse classes, shape]
    simp
  refine ⟨?_, of_decide_eq_true isAt, fun other member isAbove => ?_⟩
  · rw [classesEq]
    exact List.mem_append_right _ List.mem_cons_self
  · rw [classesEq] at member ordered
    rcases List.mem_append.mp member with isEarlier | isLater
    · exact (List.pairwise_append.mp ordered).2.2 other isEarlier header List.mem_cons_self
    · rcases List.mem_cons.mp isLater with rfl | isBehind
      · exact Nat.le_refl _
      · have notAbove := isBelow other (List.mem_reverse.mp isBehind)
        simp only [Bool.not_eq_true', decide_eq_false_iff_not] at notAbove
        exact absurd isAbove notAbove

theorem classAt?_eq_none_iff :
    classAt? classes brace = none ↔ ∀ header ∈ classes, brace < header.line := by
  simp [classAt?]

theorem classAt?_eq_none_of_le {outer : Nat} (none : classAt? classes brace = none)
    (lower : outer ≤ brace) : classAt? classes outer = Option.none := by
  rw [classAt?_eq_none_iff] at none ⊢
  exact fun header member => Nat.lt_of_le_of_lt lower (none header member)

/-! ## Braces -/

theorem enclosing?_eq_findSome? : enclosing? classes line =
    line.startStack.findSome? fun frame =>
      (frame.classLine?.bind (classAt? classes)).map (·.name) := by
  apply congrArg (List.findSome? · line.startStack)
  funext frame
  cases frame with
  | brace kind opened => cases kind <;> rfl
  | paren header => rfl
  | bracket => rfl

theorem classLine?_mem_openingLines {frame : Frame} {stack : List Frame} {opened : Nat}
    (member : frame ∈ stack) (isClass : frame.classLine? = some opened) :
    opened ∈ Frame.openingLines stack := by
  unfold Frame.classLine? at isClass
  split at isClass
  · next number =>
      cases isClass
      exact Frame.mem_openingLines.mpr ⟨_, member⟩
  · cases isClass

/-- If no header stands at or above the brace of the innermost class body, none stands at or above
the braces outside of it. -/
theorem enclosing?_eq (ordered : (Frame.openingLines line.startStack).Pairwise (· ≤ ·)) :
    enclosing? classes line = (line.classLine?.bind (classAt? classes)).map (·.name) := by
  rw [enclosing?_eq_findSome?, ScannedLine.classLine?]
  generalize line.startStack = stack at ordered
  induction stack with
  | nil => rfl
  | cons frame rest inductionHypothesis =>
      rw [← List.singleton_append, Frame.openingLines_append, List.pairwise_append] at ordered
      obtain ⟨restOrdered, _, below⟩ := ordered
      rw [List.findSome?_cons, List.findSome?_cons]
      cases isClass : frame.classLine? with
      | none => exact inductionHypothesis restOrdered
      | some opened =>
          rw [Option.bind_some]
          cases chosen : classAt? classes opened with
          | some header => rfl
          | none =>
              refine List.findSome?_eq_none_iff.mpr fun outer member => ?_
              cases isOuter : outer.classLine? with
              | none => rfl
              | some number =>
                  have lower := below number (classLine?_mem_openingLines member isOuter) opened
                    (classLine?_mem_openingLines (List.mem_singleton_self frame) isClass)
                  rw [Option.bind_some, classAt?_eq_none_of_le chosen lower]
                  rfl

theorem inCode_eq_nil_of_brace {code : List Char} (alone : trim code = "\x7b".toList)
    (number : Nat) : ClassHeader.inCode number code = [] := by
  obtain ⟨trailing, codeEq, spaced⟩ := exists_eq_append_trim code
  have ordinary : AreOrdinary code := by
    apply areOrdinary_marks
    rw [codeEq, alone]
    intro letter member
    rcases List.mem_append.mp member with front | behind
    · rcases List.mem_append.mp front with leading | isBrace
      · exact isAlpha_of_isSpace (List.mem_takeWhile_imp leading)
      · have braceEq : letter = '\x7b' := by simpa using isBrace
        rw [braceEq]
        rfl
    · exact isAlpha_of_isSpace (spaced letter behind)
  exact ClassHeader.inCode_eq_nil (ordinary.not_mem "class" (by decide)) number

/-- If some header stands at a brace, the one that is chosen does. -/
theorem standsAt_of_classAt? (chosen : classAt? (classesOf document.scan.zipIdx) brace = some header)
    (member : other ∈ classesOf document.scan.zipIdx)
    (stands : document.HeaderStandsAt brace other) : document.HeaderStandsAt brace header := by
  obtain ⟨isHeader, isAbove, isLast⟩ := classAt?_eq_some (pairwise_classesOf document) chosen
  obtain ⟨line, found, begins, inLine⟩ := mem_classesOf.mp isHeader
  rcases stands with onBrace | ⟨⟨braceLine, braceFound, alone⟩, nearest⟩
  · left
    have reaches := isLast other member (Nat.le_of_eq onBrace)
    omega
  · have reaches := isLast other member (Nat.le_of_lt nearest.1)
    -- no header stands on the line of the brace or between the two lines
    have notBrace : header.line ≠ brace := by
      intro same
      rw [same, braceFound] at found
      cases found
      rw [inCode_eq_nil_of_brace alone] at inLine
      exact absurd inLine List.not_mem_nil
    have notBetween : ¬ other.line < header.line := by
      intro between
      have noCode := nearest.2.2 header.line line between (by omega) found
      rw [ScannedLine.beginsCode, noCode] at begins
      cases begins
    have same : header.line = other.line := by omega
    exact Or.inr ⟨⟨braceLine, braceFound, alone⟩, same ▸ nearest⟩

/-- All declarations of a line belong to the class around the line. -/
theorem enclosing_of_mem_declarations {declaration : Declaration}
    (member : declaration ∈ (ofDocument document).declarations) :
    ∃ line, document.scan[declaration.line]? = some line ∧
      declaration.enclosing = (line.classLine?.bind
        (classAt? (ofDocument document).classes)).map (·.name) := by
  obtain ⟨⟨line, index⟩, entryMember, declared⟩ := List.mem_flatMap.mp member
  split at declared
  · have found : document.scan[index]? = some line := List.mem_zipIdx_iff_getElem?.mp entryMember
    obtain ⟨onLine, enclosingEq⟩ := Declaration.place_of_mem_ofLine declared
    have ordered := (Document.keepsStacks_of_getElem?_scan found).start_ordered
    refine ⟨line, by rw [onLine]; exact found, ?_⟩
    rw [enclosingEq, enclosing?_eq ordered]
    rfl
  · exact absurd declared List.not_mem_nil

/-- A declaration belongs to the class of the last header at or above the brace of the innermost
class body around its line, and to none if there is no such header. If it belongs to a class, a
header of that name stands at the brace exactly if any header does. -/
theorem enclosing_standsAt_iff {document : Document} {declaration : Declaration}
    (member : declaration ∈ (ofDocument document).declarations) :
    ∃ line, document.scan[declaration.line]? = some line ∧
      declaration.enclosing = (line.classLine?.bind
        (classAt? (ofDocument document).classes)).map (·.name) ∧
      ∀ name, declaration.enclosing = some name → ∃ brace, line.classLine? = some brace ∧
        ((∃ header ∈ (ofDocument document).classes,
            header.name = name ∧ document.HeaderStandsAt brace header) ↔
          ∃ header ∈ (ofDocument document).classes, document.HeaderStandsAt brace header) := by
  obtain ⟨line, found, enclosingEq⟩ := enclosing_of_mem_declarations member
  refine ⟨line, found, enclosingEq, fun name owned => ?_⟩
  rw [owned] at enclosingEq
  obtain ⟨header, chosen, nameEq⟩ := Option.map_eq_some_iff.mp enclosingEq.symm
  obtain ⟨brace, isClass, chosen⟩ := Option.bind_eq_some_iff.mp chosen
  refine ⟨brace, isClass, ?_, ?_⟩
  · rintro ⟨other, isHeader, _, stands⟩
    exact ⟨other, isHeader, stands⟩
  · rintro ⟨other, isHeader, stands⟩
    exact ⟨header, (classAt?_eq_some (pairwise_classesOf document) chosen).1, nameEq,
      standsAt_of_classAt? chosen isHeader stands⟩

/-- A class with a name and one member. -/
def namedClass : Document := ⟨"class A \x7b\n    foo = 1;\n\x7d".toList⟩

/-- The member of a class with a name belongs to that class. -/
theorem enclosing_standsAt_iff_namedClass :
    ⟨.property, "foo".toList, 1, 4, some "A".toList, none⟩ ∈ (ofDocument namedClass).declarations ∧
      ∃ header ∈ (ofDocument namedClass).classes,
        header.name = "A".toList ∧ namedClass.HeaderStandsAt 0 header := by
  have isMember : ⟨.property, "foo".toList, 1, 4, some "A".toList, none⟩ ∈
      (ofDocument namedClass).declarations := by
    decide +kernel
  have isHeader : ⟨"A".toList, none, 0⟩ ∈ (ofDocument namedClass).classes := by decide +kernel
  have opened : namedClass.scan[1]?.bind ScannedLine.classLine? = some 0 := by decide +kernel
  obtain ⟨line, found, _, owners⟩ := enclosing_standsAt_iff isMember
  obtain ⟨brace, isClass, stands⟩ := owners _ rfl
  rw [found, Option.bind_some, isClass] at opened
  cases opened
  exact ⟨isMember, stands.mpr ⟨_, isHeader, Or.inl rfl⟩⟩

/-- A class of the framework, and below it a class without a name that has one member. -/
def unnamedClass : Document :=
  ⟨("class A extends UE.Actor \x7b\x7d\nconst b = class \x7b\n    Foo = 1;\n" ++
    "\x7d;").toList⟩

/-- The member of the class without a name belongs to the class above, although no header stands at
the brace around it. -/
theorem unnamedClass_ownedByAnother :
    (∃ declaration ∈ (ofDocument unnamedClass).declarations,
      declaration.name = "Foo".toList ∧ declaration.enclosing = some "A".toList ∧
        unnamedClass.scan[declaration.line]?.bind ScannedLine.classLine? = some 1) ∧
      ∀ header ∈ (ofDocument unnamedClass).classes, ¬ unnamedClass.HeaderStandsAt 1 header := by
  constructor
  · refine ⟨⟨.property, "Foo".toList, 2, 4, some "A".toList, none⟩, ?_, rfl, rfl, ?_⟩
    · decide +kernel
    · decide +kernel
  · have noOther : ∀ header ∈ (ofDocument unnamedClass).classes, header.line ≠ 1 := by
      decide +kernel
    have notAlone : (unnamedClass.scan[1]?.map fun line => trim line.code) ≠
        some "\x7b".toList := by
      decide +kernel
    rintro header member (onBrace | ⟨⟨line, found, alone⟩, _⟩)
    · exact noOther header member onBrace
    · rw [found, Option.map_some, alone] at notAlone
      exact notAlone rfl

end Outline

end ScriptLint
