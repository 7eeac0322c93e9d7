import ScriptLint.Proofs.Rule.Order

/-!
# The order of declarations

An outline visits the lines from the first on, and on each of them it looks for functions before it
looks for variables. So its declarations ascend, except that the functions of a line stand before
its variables, also before those on their left. The rule for names reports in the order of the
outline, so its issues ascend on documents whose lines declare their functions first.
-/

namespace ScriptLint

/-- The first declaration does not stand behind the second one. -/
def Declaration.IsNotAfter (first second : Declaration) : Prop :=
  first.line < second.line ∨ (first.line = second.line ∧ first.character ≤ second.character)

/-- An outline lists a declaration before one of a line below, a function before a variable of its
line, and of two declarations of a line and a kind the one on the left. -/
inductive Declaration.IsListedBefore (first second : Declaration) : Prop where
  | above (lower : first.line < second.line)
  | function (same : first.line = second.line) (isFunction : first.kind = .function)
      (isVariable : second.kind = .binding)
  | left (same : first.line = second.line) (kinds : first.kind = second.kind)
      (columns : first.character ≤ second.character)

/-- No function stands behind a variable of its line. -/
def Outline.FunctionsComeFirst (outline : Outline) : Prop :=
  ∀ function ∈ outline.declarations, ∀ binding ∈ outline.declarations,
    function.kind = .function → binding.kind = .binding → function.line = binding.line →
      function.character ≤ binding.character

namespace Declaration

variable {document : Document} {index : Nat} {line : ScannedLine}
  {enclosing : Option (List Char)} {declaration first second : Declaration}

theorem kind_eq_of_mem_functions (member : declaration ∈ functions index line enclosing) :
    declaration.kind = .function := by
  obtain ⟨found, _, declared⟩ := List.mem_filterMap.mp member
  obtain ⟨span, _, rfl⟩ := Option.map_eq_some_iff.mp declared
  rfl

theorem kind_eq_of_mem_locals (member : declaration ∈ locals index line enclosing) :
    declaration.kind = .binding := by
  obtain ⟨found, _, declared⟩ := List.mem_filterMap.mp member
  obtain ⟨span, _, rfl⟩ := Option.map_eq_some_iff.mp declared
  rfl

theorem pairwise_of_kind {declarations : List Declaration} {kind : DeclarationKind}
    (lines : ∀ declaration ∈ declarations, declaration.line = index)
    (kinds : ∀ declaration ∈ declarations, declaration.kind = kind)
    (columns : declarations.Pairwise fun first second => first.character ≤ second.character) :
    declarations.Pairwise IsListedBefore := by
  apply columns.imp_of_mem
  intro first second firstMember secondMember ordered
  apply IsListedBefore.left
  · rw [lines first firstMember, lines second secondMember]
  · rw [kinds first firstMember, kinds second secondMember]
  · exact ordered

theorem pairwise_ofLine (holds : document.Holds index line) :
    (ofLine index line enclosing).Pairwise IsListedBefore := by
  have lines : ∀ declaration ∈ ofLine index line enclosing, declaration.line = index :=
    fun declaration member => line_eq_of_mem_ofLine member
  unfold ofLine at lines ⊢
  by_cases inClass : line.startTop?.any (Frame.opens .classBody) = true
  · rw [if_pos inClass]
    cases member? index line enclosing with
    | none => exact .nil
    | some member => exact List.pairwise_singleton _ member
  · rw [if_neg inClass, List.forall_mem_append] at lines
    rw [if_neg inClass]
    apply List.pairwise_append.mpr
    refine ⟨?functions, ?locals, ?both⟩
    case functions =>
      have kinds : ∀ declaration ∈ functions index line enclosing, declaration.kind = .function :=
        fun declaration member => kind_eq_of_mem_functions member
      exact pairwise_of_kind lines.1 kinds (pairwise_functions holds)
    case locals =>
      have kinds : ∀ declaration ∈ locals index line enclosing, declaration.kind = .binding :=
        fun declaration member => kind_eq_of_mem_locals member
      exact pairwise_of_kind lines.2 kinds (pairwise_locals holds)
    case both =>
      intro first firstMember second secondMember
      apply IsListedBefore.function
      · rw [lines.1 first firstMember, lines.2 second secondMember]
      · exact kind_eq_of_mem_functions firstMember
      · exact kind_eq_of_mem_locals secondMember

theorem IsListedBefore.isNotAfter (listed : first.IsListedBefore second)
    (leftmost : first.kind = .function → second.kind = .binding → first.line = second.line →
      first.character ≤ second.character) : first.IsNotAfter second := by
  cases listed with
  | above lower => exact Or.inl lower
  | function same isFunction isVariable =>
      exact Or.inr ⟨same, leftmost isFunction isVariable same⟩
  | left same kinds columns => exact Or.inr ⟨same, columns⟩

/-- A variable is listed before no function of its line. -/
theorem not_isListedBefore (isVariable : first.kind = .binding)
    (isFunction : second.kind = .function) (same : first.line = second.line) :
    ¬ first.IsListedBefore second := by
  rintro (lower | ⟨_, isFirst, _⟩ | ⟨_, kinds, _⟩)
  · omega
  · rw [isVariable] at isFirst
    cases isFirst
  · rw [isVariable, isFunction] at kinds
    cases kinds

end Declaration

namespace Outline

theorem pairwise_declarations (document : Document) :
    (ofDocument document).declarations.Pairwise Declaration.IsListedBefore := by
  apply List.pairwise_flatMap.mpr
  constructor
  · intro entry member
    split
    · exact Declaration.pairwise_ofLine (Document.holds_of_mem_zipIdx member)
    · exact .nil
  · apply (pairwise_zipIdx document.scan 0).imp
    intro entry below ordered first firstMember second secondMember
    split at firstMember
    · split at secondMember
      · apply Declaration.IsListedBefore.above
        rw [Declaration.line_eq_of_mem_ofLine firstMember,
          Declaration.line_eq_of_mem_ofLine secondMember]
        exact ordered
      · exact absurd secondMember List.not_mem_nil
    · exact absurd firstMember List.not_mem_nil

/-- Of two items of which one cannot be listed before the other, the other comes first. -/
theorem rel_of_pairwise {α : Type} {listed related : α → α → Prop} {items : List α}
    (inOrder : items.Pairwise listed) (pairwise : items.Pairwise related) {first second : α}
    (firstMember : first ∈ items) (secondMember : second ∈ items) (other : first ≠ second)
    (notListed : ¬ listed second first) : related first second := by
  obtain ⟨front, back, rfl⟩ := List.append_of_mem firstMember
  obtain ⟨_, rest, cut⟩ := List.pairwise_append.mp (inOrder.and pairwise)
  rcases List.mem_append.mp secondMember with inFront | inRest
  · exact absurd (cut second inFront first List.mem_cons_self).1 notListed
  · rcases List.mem_cons.mp inRest with same | inBack
    · exact absurd same.symm other
    · exact ((List.pairwise_cons.mp rest).1 second inBack).2

/-- Declarations are in order exactly if on each line the functions come first. -/
theorem pairwise_isNotAfter_iff (document : Document) :
    (ofDocument document).declarations.Pairwise Declaration.IsNotAfter ↔
      (ofDocument document).FunctionsComeFirst := by
  have listed := pairwise_declarations document
  constructor
  · intro ordered function functionMember binding bindingMember isFunction isBinding same
    have other : function ≠ binding := by
      rintro rfl
      rw [isFunction] at isBinding
      cases isBinding
    -- the outline lists the function first, so the order of the two is that of their columns
    have notListed := Declaration.not_isListedBefore isBinding isFunction same.symm
    have related := rel_of_pairwise listed ordered functionMember bindingMember other notListed
    rcases related with lower | ⟨_, columns⟩
    · omega
    · exact columns
  · intro first
    apply listed.imp_of_mem
    intro declaration later member laterMember before
    exact before.isNotAfter (first declaration member later laterMember)

end Outline

namespace NamingConvention

theorem isAscending_issues {document : Document}
    (ordered : (Outline.ofDocument document).declarations.Pairwise Declaration.IsNotAfter) :
    Issue.IsAscending (issues document) := by
  simp only [issues]
  split
  · exact .nil
  · exact List.pairwise_map.mpr (ordered.filter _)

end NamingConvention

/-- An outline lists a line before the lines below, the functions of a line before its variables,
and what is of one kind from left to right. So its declarations are in order exactly if on each line
the functions come first, and then the rule for names reports in order. -/
theorem declarations_inOrder (document : Document) :
    let outline := Outline.ofDocument document
    outline.declarations.Pairwise Declaration.IsListedBefore ∧
      (outline.declarations.Pairwise Declaration.IsNotAfter ↔ outline.FunctionsComeFirst) ∧
      (outline.FunctionsComeFirst → ∀ options, ∃ issues,
        NamingConvention.rule.check document options = .ok issues ∧ Issue.IsAscending issues) := by
  intro outline
  have iff := Outline.pairwise_isNotAfter_iff document
  refine ⟨Outline.pairwise_declarations document, iff, ?_⟩
  intro first options
  exact ⟨_, rfl, NamingConvention.isAscending_issues (iff.mpr first)⟩

/-- The issues for a function and a variable behind it ascend. -/
theorem declarations_inOrder_function :
    let document : Document := ⟨"function B() \x7b\x7d const A = 1;".toList⟩
    (Outline.ofDocument document).FunctionsComeFirst ∧
      ∃ issues, NamingConvention.rule.check document .enabled = .ok issues ∧
        Issue.IsAscending issues ∧ issues.map (·.character) = [9, 22] := by
  intro document
  have first : (Outline.ofDocument document).FunctionsComeFirst := by
    unfold Outline.FunctionsComeFirst
    decide +kernel
  obtain ⟨issues, checked, ascending⟩ := (declarations_inOrder document).2.2 first .enabled
  refine ⟨first, issues, checked, ascending, ?_⟩
  rw [← Except.ok.inj checked]
  decide +kernel

/-- A function stands before the variable on its left, and their issues descend. -/
theorem declarations_notInOrder :
    let document : Document := ⟨"const A = 1; function B() \x7b\x7d".toList⟩
    (Outline.ofDocument document).declarations.map
        (fun declaration => (declaration.line, declaration.character)) = [(0, 22), (0, 6)] ∧
      ∃ issues, NamingConvention.rule.check document .enabled = .ok issues ∧
        ¬ Issue.IsAscending issues := by
  intro document
  refine ⟨by decide +kernel, _, rfl, ?_⟩
  unfold Issue.IsAscending
  decide +kernel

end ScriptLint
