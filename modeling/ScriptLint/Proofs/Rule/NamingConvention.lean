import Mathlib.Data.List.Nodup
import ScriptLint.Proofs.Outline.ClassFile
import ScriptLint.Proofs.Outline.Framework
import ScriptLint.Proofs.Rule.Padding

/-!
# Names in files of classes

In a file of classes the names of methods and of variables are checked unless the class around them
derives from the framework, directly or through other classes of the file. The classes of a file
have different names, so the names that the outline finds stand for the classes themselves, and
cycles among the classes and classes that come before their parents make no difference.
-/

namespace ScriptLint

open Text

namespace ClassFile

variable {file : ClassFile} {decl owner : ClassDecl} {item : Line} {name : List Char}

/-! ## Classes of the framework -/

/-- A chain of links leads from the class through classes of the file to a type of the framework. -/
inductive Reaches (file : ClassFile) : ClassDecl → Prop where
  | direct {decl : ClassDecl} {type : Title} (parentEq : decl.parent = some (.framework type)) :
      Reaches file decl
  | through {decl other : ClassDecl} {type : Title} (parentEq : decl.parent = some (.plain type))
      (member : other ∈ file.classes) (sameName : other.name.letters = type.letters)
      (reaches : Reaches file other) : Reaches file decl

theorem isFrameworkName_plain (type : Title) :
    isFrameworkName (Parent.plain type).letters = false := by
  rw [Bool.eq_false_iff]
  intro isFramework
  obtain ⟨rest, shape⟩ := List.isPrefixOf_iff_prefix.mp isFramework
  have dotted : '.' ∈ type.letters := by
    change _ = type.letters at shape
    rw [← shape]
    exact List.mem_append_left rest (by decide)
  exact absurd (type.alphabetic '.' dotted) (by decide)

theorem isFrameworkName_framework (type : Title) :
    isFrameworkName (Parent.framework type).letters = true :=
  List.isPrefixOf_iff_prefix.mpr (List.prefix_append _ _)

/-- The class that a line belongs to, if the line names it. -/
def Line.owner? : Line → Option ClassDecl
  | header decl | method decl _ | binding decl _ => some decl
  | methodEnd | classEnd => none

theorem eq_of_owner? (member : item ∈ decl.lines) (owned : item.owner? = some owner) :
    owner = decl := by
  simp only [ClassDecl.lines, Method.lines, List.mem_append, List.mem_cons, List.mem_flatMap,
    List.mem_map, List.not_mem_nil, or_false] at member
  rcases member with (rfl | ⟨_, _, (rfl | ⟨_, _, rfl⟩) | rfl⟩) | rfl
  · exact (Option.some.inj owned).symm
  · exact (Option.some.inj owned).symm
  · exact (Option.some.inj owned).symm
  · cases owned
  · cases owned

theorem owner?_of_declared? {declared : Declared} (found : item.declared? = some declared) :
    item.owner? = some declared.owner := by
  cases item with
  | method decl member => exact congrArg (·.map Declared.owner) found
  | binding decl item => exact congrArg (·.map Declared.owner) found
  | header _ | methodEnd | classEnd => cases found

theorem kind_ne_property {declared : Declared} (found : item.declared? = some declared) :
    declared.kind ≠ .property := by
  cases item with
  | method decl member =>
      obtain rfl := Option.some.inj found
      exact nofun
  | binding decl item =>
      obtain rfl := Option.some.inj found
      exact nofun
  | header _ | methodEnd | classEnd => cases found

theorem mem_classes_of_owner? (member : item ∈ file.lines) (owned : item.owner? = some owner) :
    owner ∈ file.classes := by
  obtain ⟨decl, isClass, inClass⟩ := List.mem_flatMap.mp member
  rw [eq_of_owner? inClass owned]
  exact isClass

/-- The heads of the classes of the file. -/
def headers (file : ClassFile) : List ClassHeader := headersFrom 0 file.lines

/-- The outline that the file should have. -/
def outline (file : ClassFile) : Outline where
  classes := file.headers
  declarations := declarationsFrom 0 file.lines
  isEntryPoint := false
  framework := ClassHeader.frameworkClasses file.headers

theorem exists_decl_of_mem_headers {header : ClassHeader} (member : header ∈ file.headers) :
    ∃ decl ∈ file.classes, header.name = decl.name.letters ∧
      header.parent = decl.parent.map Parent.letters := by
  obtain ⟨⟨item, index⟩, isLine, isHead⟩ := List.mem_filterMap.mp member
  cases item with
  | header decl =>
      cases isHead
      exact ⟨decl, mem_classes_of_owner? (List.fst_mem_of_mem_zipIdx isLine) rfl, rfl, rfl⟩
  | method _ _ | binding _ _ | methodEnd | classEnd => cases isHead

theorem exists_mem_headers (member : decl ∈ file.classes) :
    ∃ header ∈ file.headers, header.name = decl.name.letters ∧
      header.parent = decl.parent.map Parent.letters := by
  have isLine : Line.header decl ∈ file.lines :=
    List.mem_flatMap.mpr ⟨decl, member, List.mem_cons_self⟩
  rw [← List.zipIdx_map_fst 0 file.lines] at isLine
  obtain ⟨⟨_, index⟩, inFile, rfl⟩ := List.mem_map.mp isLine
  exact ⟨_, List.mem_filterMap.mpr ⟨_, inFile, rfl⟩, rfl, rfl⟩

theorem Reaches.derives (reaches : file.Reaches decl) (member : decl ∈ file.classes) :
    ClassHeader.Derives file.headers decl.name.letters := by
  induction reaches with
  | @direct decl type parentEq =>
      obtain ⟨header, isHead, nameEq, linkEq⟩ := exists_mem_headers member
      rw [← nameEq]
      apply ClassHeader.derives_of_extendsFramework isHead
      rw [ClassHeader.extendsFramework, linkEq, parentEq]
      exact isFrameworkName_framework type
  | @through decl other type parentEq isClass sameName _ inductionHypothesis =>
      obtain ⟨header, isHead, nameEq, linkEq⟩ := exists_mem_headers member
      rw [← nameEq]
      apply (inductionHypothesis isClass).of_parent isHead
      rw [linkEq, parentEq, sameName]
      rfl

theorem reaches_of_isFrameworkName {parent : Parent} (parentEq : decl.parent = some parent)
    (isType : isFrameworkName parent.letters = true) : file.Reaches decl := by
  cases parent with
  | plain type =>
      rw [isFrameworkName_plain] at isType
      cases isType
  | framework type => exact .direct parentEq

theorem Reaches.of_parent {parent : Parent} (reaches : file.Reaches owner)
    (member : owner ∈ file.classes) (sameName : owner.name.letters = parent.letters)
    (parentEq : decl.parent = some parent) : file.Reaches decl := by
  cases parent with
  | plain type => exact .through parentEq member sameName reaches
  | framework type => exact .direct parentEq

theorem exists_reaches_of_derives (derives : ClassHeader.Derives file.headers name) :
    ∃ decl ∈ file.classes, decl.name.letters = name ∧ file.Reaches decl := by
  refine derives.holds (fun name => ∃ decl ∈ file.classes, decl.name.letters = name ∧
    file.Reaches decl) (fun header isHead isRoot => ?_) fun header isHead _ link found => ?_
  · obtain ⟨decl, isClass, nameEq, parentEq⟩ := exists_decl_of_mem_headers isHead
    rw [ClassHeader.extendsFramework, parentEq, Option.any_map] at isRoot
    obtain ⟨parent, extension, isType⟩ := (Option.any_eq_true _ _).mp isRoot
    exact ⟨decl, isClass, nameEq.symm, reaches_of_isFrameworkName extension isType⟩
  · obtain ⟨decl, isClass, nameEq, parentEq⟩ := exists_decl_of_mem_headers isHead
    obtain ⟨other, isOther, sameName, reaches⟩ := found
    rw [parentEq] at link
    obtain ⟨parent, extension, parentName⟩ := Option.map_eq_some_iff.mp link
    exact ⟨decl, isClass, nameEq.symm,
      reaches.of_parent isOther (sameName.trans parentName.symm) extension⟩

theorem mem_frameworkClasses_iff : name ∈ ClassHeader.frameworkClasses file.headers ↔
    ∃ decl ∈ file.classes, decl.name.letters = name ∧ file.Reaches decl := by
  rw [ClassHeader.mem_frameworkClasses]
  constructor
  · exact exists_reaches_of_derives
  · rintro ⟨decl, member, rfl, reaches⟩
    exact reaches.derives member

/-- The name of a class stands for no other class of the file. -/
theorem isFrameworkClass_name (member : decl ∈ file.classes) :
    file.outline.isFrameworkClass decl.name.letters = true ↔ file.Reaches decl := by
  have noType : isFrameworkName decl.name.letters = false := isFrameworkName_plain decl.name
  rw [Outline.isFrameworkClass, noType, Bool.false_or, List.contains_iff_mem]
  constructor
  · intro found
    obtain ⟨other, isOther, sameName, reaches⟩ := mem_frameworkClasses_iff.mp found
    rwa [← List.inj_on_of_nodup_map file.distinct isOther member sameName]
  · exact fun reaches => mem_frameworkClasses_iff.mpr ⟨decl, member, rfl, reaches⟩

theorem any_isFrameworkClass :
    decl.parent.any (file.outline.isFrameworkClass ·.letters) = true ↔ file.Reaches decl := by
  have isFramework (parent : Parent) : file.outline.isFrameworkClass parent.letters = true ↔
      isFrameworkName parent.letters = true ∨
        parent.letters ∈ ClassHeader.frameworkClasses file.headers := by
    rw [Outline.isFrameworkClass, Bool.or_eq_true, List.contains_iff_mem]
    rfl
  rw [Option.any_eq_true]
  constructor
  · rintro ⟨parent, parentEq, found⟩
    rcases (isFramework parent).mp found with isType | isClass
    · exact reaches_of_isFrameworkName parentEq isType
    · obtain ⟨other, member, sameName, reaches⟩ := mem_frameworkClasses_iff.mp isClass
      exact reaches.of_parent member sameName parentEq
  · intro reaches
    cases reaches with
    | @direct _ type parentEq =>
        exact ⟨_, parentEq, (isFramework _).mpr (Or.inl (isFrameworkName_framework type))⟩
    | through parentEq member sameName reaches =>
        have isClass := mem_frameworkClasses_iff.mpr ⟨_, member, sameName, reaches⟩
        exact ⟨_, parentEq, (isFramework _).mpr (Or.inr isClass)⟩

instance : DecidablePred file.Reaches := fun _ => decidable_of_iff _ any_isFrameworkClass

/-! ## Issues -/

/-- The name begins with an uppercase letter, and the class around it does not derive from the
framework. -/
def Declared.IsReported (file : ClassFile) (declared : Declared) : Prop :=
  declared.name.letters.head?.any Char.isUpper = true ∧ ¬ file.Reaches declared.owner

instance : DecidablePred (Declared.IsReported file) := fun _ => inferInstanceAs (Decidable (_ ∧ _))

/-- The issue for a name at its column, with its length. -/
def Declared.issue (index : Nat) (declared : Declared) : Issue :=
  let label := declared.kind.label
  let name := String.ofList declared.name.letters
  { line := index
    character := declared.before.length
    length := some declared.name.letters.length
    message := s!"{label} name '{name}' should start with a lowercase letter"
    severity := .warning
    ruleId := "namingConvention" }

/-- The issues of the lines in order. -/
def issues (file : ClassFile) : List Issue :=
  file.lines.zipIdx.filterMap fun entry =>
    (entry.1.declared?.filter (Declared.IsReported file ·)).map (Declared.issue entry.2)

/-! ## The document -/

/-- The text without a line feed at its end. -/
def body (file : ClassFile) : List Char := joinWith '\n' (file.lines.map Line.letters)

theorem body_eq_nil (empty : file.classes = []) : file.body = [] := by
  rw [body, lines, empty]
  rfl

/-- The text ends with the brace of its last class. -/
theorem exists_body_eq (nonempty : file.classes ≠ []) : ∃ front, file.body = front ++ ['\x7d'] := by
  obtain ⟨initial, last, classesEq⟩ := (List.eq_nil_or_concat file.classes).resolve_left nonempty
  have linesEq : file.lines = (initial.flatMap ClassDecl.lines ++
      .header last :: last.methods.flatMap (Method.lines last)) ++ [.classEnd] := by
    rw [lines, classesEq, List.concat_eq_append, List.flatMap_append, List.flatMap_singleton,
      ClassDecl.lines, List.append_assoc, List.cons_append]
  rw [body, linesEq, List.map_append, List.map_singleton, joinWith_append_cons, List.flatMap_nil,
    List.append_nil]
  exact ⟨_, rfl⟩

theorem lines_body (file : ClassFile) :
    Document.lines ⟨file.body⟩ = file.lines.map Line.letters := by
  by_cases empty : file.classes = []
  · rw [body_eq_nil empty, lines, empty]
    rfl
  · obtain ⟨front, bodyEq⟩ := exists_body_eq empty
    have someText : file.body.isEmpty = false := by
      rw [bodyEq, List.isEmpty_eq_false_iff]
      exact List.append_ne_nil_of_right_ne_nil front (List.cons_ne_nil _ _)
    have someLines : file.lines.map Line.letters ≠ [] := by
      intro noLines
      rw [body, noLines] at someText
      cases someText
    have inLine : ∀ line ∈ file.lines.map Line.letters, '\n' ∉ line :=
      List.forall_mem_map.mpr fun item _ => item.not_mem_letters
    rw [Document.lines, someText, if_neg Bool.false_ne_true, body,
      splitOn_joinWith someLines inLine, List.map_map]
    exact List.map_congr_left fun item _ => item.dropReturn_letters

theorem endsInDefaultExport_body (file : ClassFile) :
    Outline.endsInDefaultExport file.body = false := by
  rw [Bool.eq_false_iff]
  intro isEntry
  obtain ⟨before, word, shape, isExport⟩ := Outline.endsInDefaultExport_iff.mp isEntry
  have someWord : word ≠ [] := isExport.ne_nil
  by_cases empty : file.classes = []
  · rw [body_eq_nil empty] at shape
    exact someWord (List.append_eq_nil_iff.mp shape.symm).2
  · obtain ⟨front, bodyEq⟩ := exists_body_eq empty
    have last := congrArg List.getLast? (bodyEq.symm.trans shape)
    rw [List.getLast?_concat, List.getLast?_append_of_ne_nil before someWord] at last
    exact isExport.not_mem (by decide) (by decide) (by decide) (List.mem_of_getLast? last.symm)

theorem ofDocument_body (file : ClassFile) : Outline.ofDocument ⟨file.body⟩ = file.outline := by
  have atStart : ({} : Scanner).IsAt [] := ⟨rfl, rfl⟩
  have scanEq : Document.scan ⟨file.body⟩ =
      ({} : Scanner).scanNumbered (numberedFrom 0 (file.lines.map Line.letters)) := by
    rw [← file.lines_body]
    rfl
  have classesEq := (hasOutline file).classes_eq {} atStart
  have declarationsEq := (hasOutline file).declarations_eq {} atStart
  rw [← scanEq] at classesEq declarationsEq
  rw [Outline.ofDocument, classesEq, declarationsEq, file.endsInDefaultExport_body]
  rfl

end ClassFile

namespace NamingConvention

variable {file : ClassFile}

theorem isUppercase_of_isAlpha {letter : Char} (alphabetic : letter.isAlpha = true) :
    isUppercase letter = letter.isUpper := by
  rw [isUppercase, if_pos (isAscii_of_isAlpha alphabetic)]

variable {declared : ClassFile.Declared}

theorem isExempt_iff (inFile : declared.owner ∈ file.classes) (index : Nat) :
    isExempt file.outline (declared.declaration index) = true ↔
      file.Reaches declared.owner := by
  have exemptEq : isExempt file.outline (declared.declaration index) =
      (file.outline.isFrameworkClass declared.owner.name.letters || false) := rfl
  rw [exemptEq, Bool.or_false]
  exact ClassFile.isFrameworkClass_name inFile

theorem isReported_iff (inFile : declared.owner ∈ file.classes)
    (noProperty : declared.kind ≠ .property) (index : Nat) :
    isReported file.outline (declared.declaration index) = true ↔ declared.IsReported file := by
  have checked : (declared.declaration index).kind != .property := bne_iff_ne.mpr noProperty
  have upperEq : (declared.declaration index).startsUppercase =
      declared.name.letters.head?.any Char.isUpper := by
    obtain ⟨first, found, alphabetic⟩ := declared.name.exists_head?
    change declared.name.letters.head?.any isUppercase = _
    rw [found, Option.any_some, Option.any_some, isUppercase_of_isAlpha alphabetic]
  rw [isReported, checked, upperEq, Bool.true_and, Bool.and_eq_true, Bool.not_eq_true',
    ← Bool.not_eq_true, isExempt_iff inFile]
  rfl

theorem issues_body (file : ClassFile) : issues ⟨file.body⟩ = file.issues := by
  rw [issues, file.ofDocument_body]
  change ((ClassFile.declarationsFrom 0 file.lines).filter (isReported file.outline)).map issueOf =
    file.issues
  rw [ClassFile.declarationsFrom, List.filter_filterMap, List.map_filterMap, ClassFile.issues]
  refine List.filterMap_congr fun entry member => ?_
  cases found : entry.1.declared? with
  | none => rfl
  | some declared =>
      have inFile : declared.owner ∈ file.classes :=
        ClassFile.mem_classes_of_owner? (List.fst_mem_of_mem_zipIdx member)
          (ClassFile.owner?_of_declared? found)
      have sameReport :=
        isReported_iff inFile (ClassFile.kind_ne_property found) entry.2
      rw [Option.map_some, Option.filter_some, Option.filter_some]
      by_cases reported : declared.IsReported file
      · rw [if_pos (sameReport.mpr reported), if_pos (decide_eq_true reported)]
        rfl
      · rw [if_neg (mt sameReport.mp reported), if_neg (mt of_decide_eq_true reported)]
        rfl

/-- In a file of classes the rule reports exactly the methods and the variables whose names begin
with an uppercase letter in classes from which no chain leads to the framework, each once, in the
order of the document, at the column behind what stands in front of the name. -/
theorem check_classFile (file : ClassFile) (options : RuleOptions) :
    rule.check ⟨file.text⟩ options = .ok file.issues ∧
      ∀ (item : ClassFile.Line) (declared : ClassFile.Declared),
        item.declared? = some declared →
          ∃ rest, item.letters = declared.before ++ declared.name.letters ++ rest := by
  have checkBody : rule.check ⟨file.body⟩ options = .ok file.issues :=
    congrArg Except.ok (issues_body file)
  refine ⟨?_, fun item _ found => item.exists_letters_eq found⟩
  cases ended : file.terminated with
  | false =>
      have textEq : file.text = file.body := by
        rw [ClassFile.text, ended, if_neg Bool.false_ne_true, List.append_nil]
        rfl
      rw [textEq, checkBody]
  | true =>
      have textEq : file.text = file.body ++ ['\n'] := by
        rw [ClassFile.text, ended, if_pos rfl]
        rfl
      rw [textEq, ignoresPadding _ _ (Document.isPaddedTo_append_feed file.body) options, checkBody]

example :
    let lower : Title := ⟨⟨['v'], nofun, List.forall_mem_singleton.mpr rfl, by decide⟩, by decide⟩
    let upper : Title := ⟨⟨['V'], nofun, List.forall_mem_singleton.mpr rfl, by decide⟩, by decide⟩
    let type : Title := ⟨⟨['T'], nofun, List.forall_mem_singleton.mpr rfl, by decide⟩, by decide⟩
    let method : ClassFile.Method := ⟨upper, [⟨lower, upper⟩, ⟨upper, lower⟩]⟩
    let file : ClassFile := {
      -- the first class comes before its parent, and the last one has none
      classes := [⟨upper, some (.plain type), [method]⟩, ⟨type, some (.framework lower), []⟩,
        ⟨lower, none, [method]⟩]
      distinct := by decide
      terminated := true }
    file.issues.map (fun issue => (issue.line, issue.character, issue.length)) =
      [(9, 4, some 1), (11, 12, some 1)] := by
  decide +kernel

end NamingConvention

end ScriptLint
