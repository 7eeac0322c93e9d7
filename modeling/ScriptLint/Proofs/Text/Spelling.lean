import ScriptLint.Proofs.Text.Completeness

/-!
# What patterns spell

A pattern that neither records anything nor has conditions spells a set of words: it runs from one
place to another exactly if a word of the set leads from the one to the other.
-/

namespace ScriptLint.Text

/-- A way that passes two words passes a place between them. -/
theorem Place.Leads.exists_middle {start stop : Place} {first second : List Char}
    (leads : start.Leads (first ++ second) stop) :
    ∃ middle, start.Leads first middle ∧ Place.Leads middle second stop := by
  refine ⟨⟨first.getLast?.or start.before, start.position + byteLength first,
    second ++ stop.rest⟩, ⟨?_, rfl, rfl⟩, rfl, ?_, ?_⟩
  · rw [leads.rest_eq, List.append_assoc]
  · rw [leads.position_eq, byteLength_append, Nat.add_assoc]
  · rw [leads.before_eq, List.getLast?_append, Option.or_assoc]

theorem Place.exists_last (place : Place) : ∃ last, place.Leads place.rest last ∧ last.rest = [] :=
  ⟨⟨place.rest.getLast?.or place.before, place.position + byteLength place.rest, []⟩,
    ⟨(List.append_nil _).symm, rfl, rfl⟩, rfl⟩

namespace Pattern

/-- The pattern spells the words, and nothing else. -/
def Spells (pattern : Pattern) (words : List Char → Prop) : Prop :=
  ∀ reached next : Reached, Runs pattern reached next ↔
    next.groups = reached.groups ∧ ∃ word, words word ∧ reached.place.Leads word next.place

namespace Spells

variable {first second pattern : Pattern} {words others : List Char → Prop}

theorem congr (spells : pattern.Spells words) (same : ∀ word, words word ↔ others word) :
    pattern.Spells others := by
  have sameWords : words = others := funext fun word => propext (same word)
  exact sameWords ▸ spells

theorem empty : Pattern.empty.Spells (· = []) := by
  intro reached next
  constructor
  · rintro ⟨⟩
    exact ⟨rfl, [], rfl, .refl _⟩
  · rintro ⟨sameGroups, word, rfl, leads⟩
    have stays : next.place = reached.place :=
      leads.eq_of_position_eq (.refl _) leads.position_eq
    cases next
    cases reached
    cases stays
    cases sameGroups
    exact .empty _

theorem one (accepts : Char → Bool) :
    (Pattern.one accepts).Spells fun word => ∃ letter, word = [letter] ∧ accepts letter = true := by
  intro reached next
  constructor
  · rintro ⟨⟩
    next letter rest accepted follows =>
      exact ⟨rfl, [letter], ⟨letter, rfl, accepted⟩, .after follows⟩
  · rintro ⟨sameGroups, _, ⟨letter, rfl, accepted⟩, leads⟩
    have follows : reached.place.rest = letter :: next.place.rest := leads.rest_eq
    have moved : next.place = reached.place.after letter next.place.rest :=
      leads.eq_of_position_eq (.after follows) leads.position_eq
    have nextEq : next = { reached with place := reached.place.after letter next.place.rest } := by
      cases next
      simp only at moved sameGroups
      rw [sameGroups, ← moved]
    rw [nextEq]
    exact .one follows accepted

theorem sequence (spells : first.Spells words) (spellsOthers : second.Spells others) :
    (Pattern.sequence first second).Spells fun word =>
      ∃ front back, word = front ++ back ∧ words front ∧ others back := by
  intro reached next
  constructor
  · rintro ⟨⟩
    next middle firstRuns secondRuns =>
      obtain ⟨sameGroups, front, isFront, leads⟩ := (spells _ _).mp firstRuns
      obtain ⟨sameFurther, back, isBack, further⟩ := (spellsOthers _ _).mp secondRuns
      exact ⟨sameFurther.trans sameGroups, front ++ back, ⟨front, back, rfl, isFront, isBack⟩,
        leads.trans further⟩
  · rintro ⟨sameGroups, _, ⟨front, back, rfl, isFront, isBack⟩, leads⟩
    obtain ⟨middle, leadsFront, leadsBack⟩ := leads.exists_middle
    exact .sequence ((spells reached ⟨middle, reached.groups⟩).mpr ⟨rfl, front, isFront, leadsFront⟩)
      ((spellsOthers _ next).mpr ⟨sameGroups, back, isBack, leadsBack⟩)

theorem optional (spells : pattern.Spells words) :
    (Pattern.optional pattern).Spells fun word => words word ∨ word = [] := by
  intro reached next
  constructor
  · rintro ⟨⟩
    case preferred runs =>
      obtain ⟨sameGroups, word, isWord, leads⟩ := (spells _ _).mp runs
      exact ⟨sameGroups, word, Or.inl isWord, leads⟩
    case other runs =>
      obtain ⟨sameGroups, word, isEmpty, leads⟩ := (empty _ _).mp runs
      exact ⟨sameGroups, word, Or.inr isEmpty, leads⟩
  · rintro ⟨sameGroups, word, isWord | isEmpty, leads⟩
    · exact .preferred ((spells _ _).mpr ⟨sameGroups, word, isWord, leads⟩)
    · exact .other ((empty _ _).mpr ⟨sameGroups, word, isEmpty, leads⟩)

theorem many_one (accepts : Char → Bool) :
    (Pattern.many (Pattern.one accepts)).Spells fun word =>
      ∀ letter ∈ word, accepts letter = true := by
  intro reached next
  constructor
  · intro runs
    have repeats := runs.reflTransGen_of_many
    clear runs
    induction repeats using Relation.ReflTransGen.head_induction_on with
    | refl => exact ⟨rfl, [], nofun, .refl _⟩
    | head stepRuns _ inductionHypothesis =>
        obtain ⟨sameGroups, _, ⟨letter, rfl, accepted⟩, leads⟩ := (one accepts _ _).mp stepRuns
        obtain ⟨sameFurther, rest, others, further⟩ := inductionHypothesis
        exact ⟨sameFurther.trans sameGroups, [letter] ++ rest,
          List.forall_mem_cons.mpr ⟨accepted, others⟩, leads.trans further⟩
  · rintro ⟨sameGroups, word, accepted, leads⟩
    induction word generalizing reached with
    | nil =>
        have runs : Runs Pattern.empty reached next :=
          (empty _ _).mpr ⟨sameGroups, [], rfl, leads⟩
        cases runs
        exact .manyNone _ _
    | cons letter rest inductionHypothesis =>
        rw [List.forall_mem_cons] at accepted
        have leadsBoth : reached.place.Leads ([letter] ++ rest) next.place := leads
        obtain ⟨middle, leadsFirst, leadsRest⟩ := leadsBoth.exists_middle
        have firstRuns : Runs (.one accepts) reached ⟨middle, reached.groups⟩ :=
          (one accepts _ _).mpr ⟨rfl, [letter], ⟨letter, rfl, accepted.1⟩, leadsFirst⟩
        exact .manyMore firstRuns
          (inductionHypothesis ⟨middle, reached.groups⟩ sameGroups accepted.2 leadsRest)

theorem repeated_one (accepts : Char → Bool) :
    (Pattern.repeated (Pattern.one accepts)).Spells fun word =>
      word ≠ [] ∧ ∀ letter ∈ word, accepts letter = true := by
  refine ((one accepts).sequence (many_one accepts)).congr fun word => ?_
  constructor
  · rintro ⟨_, rest, rfl, ⟨letter, rfl, accepted⟩, others⟩
    exact ⟨List.cons_ne_nil _ _, List.forall_mem_cons.mpr ⟨accepted, others⟩⟩
  · rintro ⟨nonempty, accepted⟩
    cases word with
    | nil => exact absurd rfl nonempty
    | cons letter rest =>
        rw [List.forall_mem_cons] at accepted
        exact ⟨[letter], rest, rfl, ⟨letter, rfl, accepted.1⟩, accepted.2⟩

theorem foldl_letters (letters front : List Char) (spells : pattern.Spells (· = front)) :
    ((letters.map fun letter => Pattern.one (· == letter)).foldl Pattern.sequence pattern).Spells
      (· = front ++ letters) := by
  induction letters generalizing pattern front with
  | nil =>
      rw [List.append_nil]
      exact spells
  | cons letter rest inductionHypothesis =>
      have spellsLetter : (Pattern.one (· == letter)).Spells (· = [letter]) := by
        refine (one _).congr fun word => ⟨?_, ?_⟩
        · rintro ⟨found, rfl, same⟩
          rw [beq_iff_eq.mp same]
        · rintro rfl
          exact ⟨letter, rfl, beq_self_eq_true letter⟩
      have spellsBoth : (Pattern.sequence pattern (Pattern.one (· == letter))).Spells
          (· = front ++ [letter]) := by
        refine (spells.sequence spellsLetter).congr fun word => ⟨?_, ?_⟩
        · rintro ⟨_, _, rfl, rfl, rfl⟩
          rfl
        · rintro rfl
          exact ⟨front, [letter], rfl, rfl, rfl⟩
      have spellsAll := inductionHypothesis (front ++ [letter]) spellsBoth
      rw [List.append_assoc] at spellsAll
      exact spellsAll

theorem literal (text : String) : (Pattern.literal text).Spells (· = text.toList) :=
  foldl_letters text.toList [] empty

end Spells

end Pattern

end ScriptLint.Text
