import ScriptLint.Text.Pattern

/-!
# Classes and the framework

A class header gives the name of a class and of the class it extends. A class belongs to the
framework if a chain of headers leads from it to a parent whose name begins with the framework's
own name space. The set is found in passes over the headers: each adds the classes whose parent is
already in, and the last one is the first that adds nothing. There is a last one, because each pass
that changes anything adds the name of a class that was missing.
-/

namespace ScriptLint

open Text Text.Pattern

structure ClassHeader where
  name : List Char
  parent : Option (List Char)
  line : Nat
  deriving DecidableEq, Repr

/-- How the names of the framework's own types begin. -/
def frameworkMarker : String := "UE."

def isFrameworkName (name : List Char) : Bool := beginsWith frameworkMarker name

namespace ClassHeader

/-- A name with further names behind it, joined by dots. -/
def dottedName : Pattern := sequence identifier (many (sequence (literal ".") identifier))

/-- A class header: its name in group 1 and its parent in group 2. -/
def pattern : Pattern :=
  inOrder [atWordEdge, literal "class", gap, group 1 identifier,
    optional (inOrder [spaces, literal "<", many (noneOf ">"), literal ">"]),
    optional (inOrder [gap, literal "extends", gap, group 2 dottedName])]

def inCode (line : Nat) (code : List Char) : List ClassHeader :=
  (pattern.searchAll code).filterMap fun found =>
    (found.group? 1).map fun span =>
      { name := span.letters, parent := (found.group? 2).map (·.letters), line }

/-- The class extends a type of the framework by name. -/
def extendsFramework (header : ClassHeader) : Bool := header.parent.any isFrameworkName

/-- The names of the classes that extend a type of the framework by name. -/
def roots (headers : List ClassHeader) : List (List Char) :=
  ((headers.filter extendsFramework).map (·.name)).eraseDups

/-- The names with that of a class whose parent is among them. -/
def adopt (names : List (List Char)) (header : ClassHeader) : List (List Char) :=
  if header.parent.any names.contains then names.insert header.name else names

/-- One pass over the classes. What a class adds counts for the classes behind it. -/
def pass (headers : List ClassHeader) (names : List (List Char)) : List (List Char) :=
  headers.foldl adopt names

/-- Number of the classes whose name is not among the names. -/
def missing (headers : List ClassHeader) (names : List (List Char)) : Nat :=
  headers.countP (·.name ∉ names)

theorem suffix_adopt (names : List (List Char)) (header : ClassHeader) :
    names <:+ adopt names header := by
  unfold adopt
  split
  · by_cases member : header.name ∈ names
    · exact ⟨[], (List.insert_of_mem member).symm⟩
    · rw [List.insert_of_not_mem member]
      exact List.suffix_cons header.name names
  · exact List.suffix_rfl

/-- A pass puts new names in front of the old ones. -/
theorem suffix_pass (headers : List ClassHeader) (names : List (List Char)) :
    names <:+ pass headers names := by
  induction headers generalizing names with
  | nil => exact List.suffix_rfl
  | cons header rest inductionHypothesis =>
      exact (suffix_adopt names header).trans (inductionHypothesis (adopt names header))

theorem pass_eq_self_iff {headers : List ClassHeader} {names : List (List Char)} :
    pass headers names = names ↔ (pass headers names).length = names.length :=
  ⟨congrArg List.length, fun same => ((suffix_pass headers names).eq_of_length same.symm).symm⟩

/-- A pass that changes anything adds the name of a class. -/
theorem exists_mem_pass {headers : List ClassHeader} {names : List (List Char)}
    (grows : pass headers names ≠ names) :
    ∃ header ∈ headers, header.name ∉ names ∧ header.name ∈ pass headers names := by
  induction headers generalizing names with
  | nil => exact absurd rfl grows
  | cons header rest inductionHypothesis =>
      by_cases stays : adopt names header = names
      · have restGrows : pass rest names ≠ names := by
          intro same
          apply grows
          rw [pass, List.foldl_cons, stays]
          exact same
        obtain ⟨found, member, isNew, added⟩ := inductionHypothesis restGrows
        refine ⟨found, List.mem_cons_of_mem _ member, isNew, ?_⟩
        rw [pass, List.foldl_cons, stays]
        exact added
      · have isNew : header.name ∉ names := by
          intro member
          apply stays
          rw [adopt, List.insert_of_mem member, ite_self]
        have added : header.name ∈ adopt names header := by
          by_cases adopted : header.parent.any names.contains = true
          · rw [adopt, if_pos adopted]
            exact List.mem_insert_self
          · rw [adopt, if_neg adopted] at stays
            exact absurd rfl stays
        exact ⟨header, List.mem_cons_self, isNew, (suffix_pass rest _).subset added⟩

theorem missing_pass_lt {headers : List ClassHeader} {names : List (List Char)}
    (grows : (pass headers names).length ≠ names.length) :
    missing headers (pass headers names) < missing headers names := by
  obtain ⟨header, member, isNew, added⟩ := exists_mem_pass (mt pass_eq_self_iff.mp grows)
  obtain ⟨before, after, shape⟩ := List.append_of_mem member
  have fewer (others : List ClassHeader) :
      missing others (pass headers names) ≤ missing others names := by
    refine List.countP_mono_left fun other _ absent => ?_
    rw [decide_eq_true_eq] at absent ⊢
    exact fun inNames => absent ((suffix_pass headers names).subset inNames)
  have beforeFewer := fewer before
  have afterFewer := fewer after
  have split (others : List (List Char)) : missing headers others =
      missing before others + missing (header :: after) others := by
    rw [shape, missing, List.countP_append]
    rfl
  have missed : missing (header :: after) names = missing after names + 1 :=
    List.countP_cons_of_pos (decide_eq_true isNew)
  have found : missing (header :: after) (pass headers names) =
      missing after (pass headers names) :=
    List.countP_cons_of_neg (by simpa using added)
  rw [split, split, missed, found]
  omega

/-- The names with what passes over the classes add to them, until one adds nothing. -/
def close (headers : List ClassHeader) (names : List (List Char)) : List (List Char) :=
  if (pass headers names).length = names.length then names
  else close headers (pass headers names)
termination_by missing headers names
decreasing_by exact missing_pass_lt ‹_›

/-- The names of the classes that belong to the framework by what they extend. -/
def frameworkClasses (headers : List ClassHeader) : List (List Char) :=
  close headers (roots headers)

end ClassHeader

end ScriptLint
