import ScriptLint.Proofs.Text.Runs

/-!
# Matches

A match of a text is a run of the pattern between two places of it, with nothing recorded before.
All the searches return matches. The whole of a match and each of its groups is a span of the text,
a group has run one of the patterns recorded under its number, and it is there if every run records
it.
-/

namespace ScriptLint.Text

namespace Pattern

/-- A match of a pattern in a text. -/
def IsMatch (pattern : Pattern) (letters : List Char) (found : Match) : Prop :=
  ∃ start stop : Reached, start.place.IsIn letters ∧ start.groups = [] ∧
    Runs pattern start stop ∧ found = ⟨start.place.spanTo stop.place, stop.groups⟩

theorem isMatch_of_matchAt? {pattern : Pattern} {limit : Nat} {letters : List Char} {place : Place}
    {found : Match} (inText : place.IsIn letters)
    (matched : matchAt? pattern limit place = some found) : IsMatch pattern letters found := by
  rw [matchAt?, Option.map_eq_some_iff] at matched
  obtain ⟨reached, first, foundEq⟩ := matched
  exact ⟨⟨place, []⟩, reached, inText, rfl, runs_of_mem_ends (List.mem_of_mem_head? first),
    foundEq.symm⟩

theorem isMatch_of_searchFrom {pattern : Pattern} {limit position : Nat} {letters rest : List Char}
    {before : Option Char} {found : Match} (inText : Place.IsIn letters ⟨before, position, rest⟩)
    (matched : searchFrom pattern limit before position rest = some found) :
    IsMatch pattern letters found := by
  induction rest generalizing before position with
  | nil => exact isMatch_of_matchAt? inText matched
  | cons letter rest inductionHypothesis =>
      rw [searchFrom] at matched
      split at matched
      · next here matchedHere =>
          cases matched
          exact isMatch_of_matchAt? inText matchedHere
      · exact inductionHypothesis (inText.leads (Place.Leads.after rfl)) matched

theorem isMatch_of_search? {pattern : Pattern} {letters : List Char} {found : Match}
    (matched : search? pattern letters = some found) : IsMatch pattern letters found :=
  isMatch_of_searchFrom (.first letters) matched

theorem isMatch_of_mem_searchAllFrom {pattern : Pattern} {limit free position : Nat}
    {letters rest : List Char} {before : Option Char} {found : Match}
    (inText : Place.IsIn letters ⟨before, position, rest⟩)
    (member : found ∈ searchAllFrom pattern limit free before position rest) :
    IsMatch pattern letters found := by
  induction rest generalizing free before position with
  | nil =>
      rw [searchAllFrom] at member
      split at member
      · exact isMatch_of_matchAt? inText (Option.mem_toList.mp member)
      · exact absurd member List.not_mem_nil
  | cons letter rest inductionHypothesis =>
      have inRest := inText.leads (Place.Leads.after rfl)
      rw [searchAllFrom] at member
      split at member
      · split at member
        · next here matchedHere =>
            rcases List.mem_cons.mp member with same | later
            · exact isMatch_of_matchAt? inText (same ▸ matchedHere)
            · exact inductionHypothesis inRest later
        · exact inductionHypothesis inRest member
      · exact inductionHypothesis inRest member

theorem isMatch_of_mem_searchAll {pattern : Pattern} {letters : List Char} {found : Match}
    (member : found ∈ searchAll pattern letters) : IsMatch pattern letters found :=
  isMatch_of_mem_searchAllFrom (.first letters) member

namespace IsMatch

variable {pattern : Pattern} {letters : List Char} {found : Match} {number : Nat} {span : Span}
  {test : Char → Prop}

theorem whole_isIn (isMatch : IsMatch pattern letters found) : found.whole.IsIn letters := by
  obtain ⟨start, stop, inText, _, runs, foundEq⟩ := isMatch
  obtain ⟨run, leads, _⟩ := runs.exists_leads
  rw [foundEq]
  exact inText.spanTo leads

/-- The whole of a match begins with a character with which the pattern opens. -/
theorem whole_opens (isMatch : IsMatch pattern letters found) (opens : pattern.OpensWith test) :
    ∃ letter rest, found.whole.letters = letter :: rest ∧ test letter := by
  obtain ⟨start, stop, _, _, runs, foundEq⟩ := isMatch
  obtain ⟨letter, run, leads, passes⟩ := runs.exists_leads_cons opens
  exact ⟨letter, run, by rw [foundEq, leads.spanTo_eq], passes⟩

theorem mem_groups_of_group? (recorded : found.group? number = some span) :
    (number, span) ∈ found.groups := by
  rw [Match.group?, Option.map_eq_some_iff] at recorded
  obtain ⟨entry, first, spanEq⟩ := recorded
  have sameNumber : entry.1 = number := by
    simpa using List.find?_some first
  rw [← sameNumber, ← spanEq]
  exact List.mem_of_find?_eq_some first

/-- A group has run one of the patterns recorded under its number. -/
theorem exists_runs_of_group? (isMatch : IsMatch pattern letters found)
    (recorded : found.group? number = some span) :
    ∃ body ∈ pattern.bodies number, ∃ start stop : Reached, start.place.IsIn letters ∧
      Runs body start stop ∧ span = start.place.spanTo stop.place := by
  have member := mem_groups_of_group? recorded
  obtain ⟨start, stop, inText, noGroups, runs, foundEq⟩ := isMatch
  rw [foundEq] at member
  rcases runs.of_mem_groups inText member with before | recordedRun
  · rw [noGroups] at before
    exact absurd before List.not_mem_nil
  · exact recordedRun

theorem group_isIn (isMatch : IsMatch pattern letters found)
    (recorded : found.group? number = some span) : span.IsIn letters := by
  obtain ⟨_, _, start, stop, inText, runs, spanEq⟩ := isMatch.exists_runs_of_group? recorded
  obtain ⟨run, leads, _⟩ := runs.exists_leads
  rw [spanEq]
  exact inText.spanTo leads

theorem group_opens (isMatch : IsMatch pattern letters found)
    (recorded : found.group? number = some span)
    (opens : ∀ body ∈ pattern.bodies number, body.OpensWith test) :
    ∃ letter rest, span.letters = letter :: rest ∧ test letter := by
  obtain ⟨body, isBody, start, stop, _, runs, spanEq⟩ := isMatch.exists_runs_of_group? recorded
  obtain ⟨letter, run, leads, passes⟩ := runs.exists_leads_cons (opens body isBody)
  exact ⟨letter, run, by rw [spanEq, leads.spanTo_eq], passes⟩

theorem isSome_group? (isMatch : IsMatch pattern letters found)
    (records : pattern.Records number) : (found.group? number).isSome := by
  obtain ⟨start, stop, _, _, runs, foundEq⟩ := isMatch
  obtain ⟨span, member⟩ := runs.exists_mem_groups records
  rw [Match.group?, foundEq, Option.isSome_map, List.find?_isSome]
  exact ⟨(number, span), member, beq_self_eq_true number⟩

end IsMatch

/-! ## Compound patterns -/

section Compound

variable {test : Char → Prop} {number : Nat} {pattern : Pattern} {patterns : List Pattern}

theorem foldl_bodies {first : Pattern} :
    (patterns.foldl sequence first).bodies number =
      first.bodies number ++ patterns.flatMap (bodies number) := by
  induction patterns generalizing first with
  | nil => simp
  | cons next rest inductionHypothesis =>
      rw [List.foldl_cons, inductionHypothesis, List.flatMap_cons, bodies, List.append_assoc]

@[simp]
theorem bodies_inOrder : (inOrder patterns).bodies number = patterns.flatMap (bodies number) := by
  rw [inOrder, foldl_bodies]
  rfl

@[simp]
theorem bodies_literal (text : String) : (literal text).bodies number = [] := by
  rw [literal, bodies_inOrder, List.flatMap_eq_nil_iff]
  intro pattern member
  obtain ⟨letter, _, same⟩ := List.mem_map.mp member
  rw [← same]
  rfl

@[simp]
theorem bodies_firstOf : (firstOf patterns).bodies number = patterns.flatMap (bodies number) := by
  induction patterns with
  | nil => rfl
  | cons first rest inductionHypothesis =>
      cases rest with
      | nil => exact (List.append_nil _).symm
      | cons next others =>
          have eachPart : (firstOf (first :: next :: others)).bodies number =
              first.bodies number ++ (firstOf (next :: others)).bodies number := rfl
          rw [eachPart, inductionHypothesis]
          exact List.flatMap_cons.symm

@[simp]
theorem bodies_wordOf (words : List String) : (wordOf words).bodies number = [] := by
  rw [wordOf, bodies_firstOf, List.flatMap_map, List.flatMap_eq_nil_iff]
  exact fun word _ => bodies_literal word

@[simp]
theorem bodies_optional : (Pattern.optional pattern).bodies number = pattern.bodies number :=
  List.append_nil _

@[simp]
theorem bodies_noneOf (text : String) : (noneOf text).bodies number = [] := rfl

@[simp]
theorem bodies_oneOf (text : String) : (oneOf text).bodies number = [] := rfl

@[simp]
theorem bodies_spaces : spaces.bodies number = [] := rfl

@[simp]
theorem bodies_gap : gap.bodies number = [] := rfl

@[simp]
theorem bodies_identifier : identifier.bodies number = [] := rfl

theorem foldl_records {first : Pattern} :
    (patterns.foldl sequence first).Records number ↔
      first.Records number ∨ ∃ pattern ∈ patterns, pattern.Records number := by
  induction patterns generalizing first with
  | nil => simp
  | cons next rest inductionHypothesis =>
      rw [List.foldl_cons, inductionHypothesis, List.exists_mem_cons_iff, ← or_assoc]
      rfl

@[simp]
theorem records_inOrder :
    (inOrder patterns).Records number ↔ ∃ pattern ∈ patterns, pattern.Records number := by
  rw [inOrder, foldl_records]
  exact or_iff_right id

theorem opensWith_foldl {first : Pattern} (opens : first.OpensWith test) :
    (patterns.foldl sequence first).OpensWith test := by
  induction patterns generalizing first with
  | nil => exact opens
  | cons next rest inductionHypothesis => exact inductionHypothesis (Or.inl opens)

/-- A sequence opens with what its first pattern opens with. -/
theorem opensWith_inOrder_cons (opens : pattern.OpensWith test) :
    (inOrder (pattern :: patterns)).OpensWith test := by
  have opensFirst : (sequence empty pattern).OpensWith test := Or.inr ⟨trivial, opens⟩
  rw [inOrder, List.foldl_cons]
  exact opensWith_foldl opensFirst

/-- A sequence opens with what its second pattern opens with if the first is a condition. -/
theorem opensWith_inOrder_condition_cons {leading : Pattern} (condition : leading.IsCondition)
    (opens : pattern.OpensWith test) :
    (inOrder (leading :: pattern :: patterns)).OpensWith test := by
  have opensSecond : (sequence (sequence empty leading) pattern).OpensWith test :=
    Or.inr ⟨⟨trivial, condition⟩, opens⟩
  rw [inOrder, List.foldl_cons, List.foldl_cons]
  exact opensWith_foldl opensSecond

theorem opensWith_literal {text : String} {letter : Char} {others : List Char}
    (spelled : text.toList = letter :: others) (passes : test letter) :
    (literal text).OpensWith test := by
  rw [literal, spelled, List.map_cons]
  apply opensWith_inOrder_cons
  intro found same
  exact beq_iff_eq.mp same ▸ passes

end Compound

end Pattern

end ScriptLint.Text
