import Mathlib.Data.List.Chain
import Mathlib.Logic.Function.Iterate
import ScriptLint.Outline.Framework

/-!
# Reachability of the framework

The passes over the headers compute the least set of names that holds every class with a parent in
the framework's name space and every class with a parent in the set. What a pass adds is reached by
a chain of headers, and a set that a pass leaves alone is closed under the chains.

The main statement says that the passes come to an end and that a name is found exactly if a chain
leads from it to the framework, so neither the order of the headers nor a cycle among them matters.
-/

namespace ScriptLint.ClassHeader

variable {headers chain : List ClassHeader} {names : List (List Char)} {header : ClassHeader}
  {name parent : List Char}

/-- A class extends another one by its name. -/
def Extends (child header : ClassHeader) : Prop := child.parent = some header.name

/-- A chain of the headers leads from a class with the name to one that extends a type of the
framework by name. -/
def Derives (headers : List ClassHeader) (name : List Char) : Prop :=
  ∃ chain : List ClassHeader, (∀ header ∈ chain, header ∈ headers) ∧ chain.IsChain Extends ∧
    chain.head?.map (·.name) = some name ∧ chain.getLast?.any extendsFramework = true

/-! ## Chains -/

theorem derives_of_extendsFramework (member : header ∈ headers)
    (isRoot : header.extendsFramework = true) : Derives headers header.name :=
  ⟨[header], List.forall_mem_singleton.mpr member, List.isChain_singleton header, rfl, isRoot⟩

theorem Derives.of_parent (derives : Derives headers parent) (member : header ∈ headers)
    (link : header.parent = some parent) : Derives headers header.name := by
  obtain ⟨chain, inside, linked, headEq, last⟩ := derives
  cases chain with
  | nil => cases headEq
  | cons next rest =>
      have nextEq : next.name = parent := Option.some.inj headEq
      have linkNext : header.Extends next := by rw [Extends, link, nextEq]
      refine ⟨header :: next :: rest, List.forall_mem_cons.mpr ⟨member, inside⟩,
        List.isChain_cons_cons.mpr ⟨linkNext, linked⟩, rfl, ?_⟩
      rwa [List.getLast?_cons_cons]

/-- What holds of every class that extends a type of the framework by name, and of every class whose
parent it holds of, holds of whatever derives from the framework. -/
theorem Derives.holds (holds : List Char → Prop) (derives : Derives headers name)
    (base : ∀ header ∈ headers, header.extendsFramework = true → holds header.name)
    (step : ∀ header ∈ headers, ∀ parent, header.parent = some parent → holds parent →
      holds header.name) : holds name := by
  obtain ⟨chain, inside, linked, headEq, last⟩ := derives
  induction chain generalizing name with
  | nil => cases headEq
  | cons first rest inductionHypothesis =>
      rw [List.forall_mem_cons] at inside
      have firstEq : first.name = name := Option.some.inj headEq
      subst firstEq
      cases rest with
      | nil => exact base first inside.1 last
      | cons next others =>
          rw [List.isChain_cons_cons] at linked
          rw [List.getLast?_cons_cons] at last
          exact step first inside.1 next.name linked.1
            (inductionHypothesis inside.2 linked.2 rfl last)

/-! ## Passes -/

theorem mem_roots : name ∈ roots headers ↔
    ∃ header ∈ headers, header.extendsFramework = true ∧ header.name = name := by
  simp [roots, and_assoc]

theorem mem_adopt_of_parent (link : header.parent = some parent) (member : parent ∈ names) :
    header.name ∈ adopt names header := by
  have adopted : header.parent.any names.contains = true := by
    rw [link, Option.any_some]
    exact List.contains_iff_mem.mpr member
  rw [adopt, if_pos adopted]
  exact List.mem_insert_self

theorem exists_parent_of_mem_adopt (member : name ∈ adopt names header) :
    name ∈ names ∨ name = header.name ∧ ∃ parent ∈ names, header.parent = some parent := by
  unfold adopt at member
  split at member
  · next adopted =>
      obtain ⟨parent, link, isIn⟩ := (Option.any_eq_true _ _).mp adopted
      rcases List.mem_insert_iff.mp member with isName | earlier
      · exact Or.inr ⟨isName, parent, List.contains_iff_mem.mp isIn, link⟩
      · exact Or.inl earlier
  · exact Or.inl member

/-- A pass adds every class whose parent is in. -/
theorem mem_pass_of_parent (isHeader : header ∈ headers) (link : header.parent = some parent)
    (member : parent ∈ names) : header.name ∈ pass headers names := by
  obtain ⟨before, after, rfl⟩ := List.append_of_mem isHeader
  have parentIn : parent ∈ pass before names := (suffix_pass before names).subset member
  have added := mem_adopt_of_parent link parentIn
  rw [pass, List.foldl_append, List.foldl_cons]
  exact (suffix_pass after _).subset added

/-- A pass adds only what derives from the framework. -/
theorem derives_of_mem_pass (others : List ClassHeader)
    (inside : ∀ header ∈ others, header ∈ headers)
    (sound : ∀ name ∈ names, Derives headers name) :
    ∀ name ∈ pass others names, Derives headers name := by
  induction others generalizing names with
  | nil => exact sound
  | cons header rest inductionHypothesis =>
      rw [List.forall_mem_cons] at inside
      refine inductionHypothesis inside.2 fun name member => ?_
      rcases exists_parent_of_mem_adopt member with earlier | ⟨rfl, parent, isIn, link⟩
      · exact sound name earlier
      · exact (sound parent isIn).of_parent inside.1 link

/-! ## The last pass -/

theorem missing_le_length (headers : List ClassHeader) (names : List (List Char)) :
    missing headers names ≤ headers.length :=
  List.countP_le_length

/-- The passes come to an end, and the last one changes nothing. -/
theorem exists_close_eq_iterate (headers : List ClassHeader) (names : List (List Char)) :
    ∃ passes ≤ missing headers names, close headers names = (pass headers)^[passes] names ∧
      pass headers (close headers names) = close headers names := by
  induction names using close.induct headers with
  | case1 names stays =>
      rw [close, if_pos stays]
      exact ⟨0, Nat.zero_le _, rfl, pass_eq_self_iff.mpr stays⟩
  | case2 names grows inductionHypothesis =>
      obtain ⟨passes, bounded, closeEq, fixed⟩ := inductionHypothesis
      rw [close, if_neg grows]
      refine ⟨passes + 1, ?_, closeEq, fixed⟩
      have fewer := missing_pass_lt grows
      omega

theorem suffix_close (headers : List ClassHeader) (names : List (List Char)) :
    names <:+ close headers names := by
  induction names using close.induct headers with
  | case1 names stays =>
      have closeEq : close headers names = names := by
        rw [close, if_pos stays]
      exact ⟨[], closeEq.symm⟩
  | case2 names grows inductionHypothesis =>
      rw [close, if_neg grows]
      exact (suffix_pass headers names).trans inductionHypothesis

theorem derives_of_mem_close (sound : ∀ name ∈ names, Derives headers name) :
    ∀ name ∈ close headers names, Derives headers name := by
  induction names using close.induct headers with
  | case1 names stays =>
      rw [close, if_pos stays]
      exact sound
  | case2 names grows inductionHypothesis =>
      rw [close, if_neg grows]
      exact inductionHypothesis (derives_of_mem_pass headers (fun _ member => member) sound)

theorem mem_frameworkClasses : name ∈ frameworkClasses headers ↔ Derives headers name := by
  obtain ⟨_, _, _, fixed⟩ := exists_close_eq_iterate headers (roots headers)
  constructor
  · refine derives_of_mem_close (fun name member => ?_) name
    obtain ⟨header, isHeader, isRoot, rfl⟩ := mem_roots.mp member
    exact derives_of_extendsFramework isHeader isRoot
  · intro derives
    refine derives.holds (· ∈ frameworkClasses headers) (fun header isHeader isRoot => ?_)
      fun header isHeader parent link member => ?_
    · exact (suffix_close headers (roots headers)).subset
        (mem_roots.mpr ⟨header, isHeader, isRoot, rfl⟩)
    · rw [frameworkClasses, ← fixed]
      exact mem_pass_of_parent isHeader link member

theorem Derives.of_subset {others : List ClassHeader} (derives : Derives headers name)
    (inside : ∀ header ∈ headers, header ∈ others) : Derives others name := by
  obtain ⟨chain, chainInside, linked, headEq, last⟩ := derives
  exact ⟨chain, fun header member => inside header (chainInside header member), linked, headEq,
    last⟩

/-- The passes come to an end after at most as many as there are headers, and a name is found
exactly if a chain of headers leads from it to the framework. So the order of the headers does not
matter, and classes that extend only each other are not found. -/
theorem frameworkClasses_reachable (headers : List ClassHeader) :
    (∃ passes ≤ headers.length, frameworkClasses headers = (pass headers)^[passes] (roots headers) ∧
      pass headers (frameworkClasses headers) = frameworkClasses headers) ∧
    (∀ name, name ∈ frameworkClasses headers ↔ Derives headers name) ∧
    (∀ others, headers.Perm others →
      ∀ name, name ∈ frameworkClasses others ↔ name ∈ frameworkClasses headers) ∧
    ∀ cycle : List (List Char),
      (∀ header ∈ headers, header.name ∈ cycle → ∀ parent, header.parent = some parent →
        parent ∈ cycle ∧ isFrameworkName parent = false) →
      ∀ name ∈ cycle, name ∉ frameworkClasses headers := by
  refine ⟨?ends, fun _ => mem_frameworkClasses, ?reordered, ?cyclic⟩
  case ends =>
    obtain ⟨passes, bounded, closeEq, fixed⟩ := exists_close_eq_iterate headers (roots headers)
    exact ⟨passes, bounded.trans (missing_le_length _ _), closeEq, fixed⟩
  case reordered =>
    intro others reordered name
    rw [mem_frameworkClasses, mem_frameworkClasses]
    exact ⟨fun derives => derives.of_subset fun _ => reordered.mem_iff.mpr,
      fun derives => derives.of_subset fun _ => reordered.mem_iff.mp⟩
  case cyclic =>
    -- whatever derives from the framework lies outside of the cycle
    intro cycle closed name member found
    refine (mem_frameworkClasses.mp found).holds (· ∉ cycle) ?_ ?_ member
    · intro header isHeader isRoot inCycle
      obtain ⟨parent, link, isFramework⟩ := (Option.any_eq_true _ _).mp isRoot
      rw [(closed header isHeader inCycle parent link).2] at isFramework
      cases isFramework
    · intro header isHeader parent link outside inCycle
      exact outside (closed header isHeader inCycle parent link).1

example :
    let header (name parent : String) : ClassHeader := ⟨name.toList, some parent.toList, 0⟩
    let headers :=
      [header "A" "B", header "B" "C", header "C" "UE.D", header "E" "F", header "F" "E"]
    (frameworkClasses headers).map String.ofList = ["A", "B", "C"] := by
  decide +kernel

end ScriptLint.ClassHeader
