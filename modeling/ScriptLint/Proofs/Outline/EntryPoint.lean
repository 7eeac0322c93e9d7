import ScriptLint.Outline.Basic
import ScriptLint.Proofs.Text.Spelling
import ScriptLint.Proofs.Text.Terminators

/-!
# Entry points

A text is an entry point if its last words are the export of a name as default. Between these words
and behind them any white space will do, so a text stays an entry point, or stays none, if line
feeds are written as carriage returns with line feeds, or if a line feed is added at the end.
-/

namespace ScriptLint.Outline

open Text Text.Pattern

/-- The export of a name as default, with the white space and the semicolon behind it. -/
def IsDefaultExport (word : List Char) : Prop :=
  ∃ gapBefore gapBehind name between mark behind : List Char,
    word = "export".toList ++ gapBefore ++ "default".toList ++ gapBehind ++ name ++ between ++
      mark ++ behind ∧
    (gapBefore ≠ [] ∧ ∀ letter ∈ gapBefore, isSpace letter = true) ∧
    (gapBehind ≠ [] ∧ ∀ letter ∈ gapBehind, isSpace letter = true) ∧
    (name ≠ [] ∧ ∀ letter ∈ name, isName letter = true) ∧
    (∀ letter ∈ between, isSpace letter = true) ∧ (mark = [';'] ∨ mark = []) ∧
    ∀ letter ∈ behind, isSpace letter = true

theorem spells_isDefaultExport :
    (inOrder [literal "export", gap, literal "default", gap, identifier, spaces,
      optional (literal ";"), spaces]).Spells IsDefaultExport := by
  have parts := (((((((Spells.empty.sequence (.literal "export")).sequence
    (.repeated_one isSpace)).sequence (.literal "default")).sequence
    (.repeated_one isSpace)).sequence (.repeated_one isName)).sequence
    (.many_one isSpace)).sequence (.optional (.literal ";"))).sequence (.many_one isSpace)
  refine parts.congr fun word => ⟨?_, ?_⟩
  · rintro ⟨_, behind, rfl, ⟨_, mark, rfl, ⟨_, between, rfl, ⟨_, name, rfl, ⟨_, gapBehind, rfl,
      ⟨_, _, rfl, ⟨_, gapBefore, rfl, ⟨_, _, rfl, rfl, rfl⟩, spacedBefore⟩, rfl⟩, spacedBehind⟩,
      named⟩, spacedBetween⟩, marked⟩, spaced⟩
    exact ⟨gapBefore, gapBehind, name, between, mark, behind, rfl, spacedBefore, spacedBehind,
      named, spacedBetween, marked, spaced⟩
  · rintro ⟨gapBefore, gapBehind, name, between, mark, behind, rfl, spacedBefore, spacedBehind,
      named, spacedBetween, marked, spaced⟩
    exact ⟨_, behind, rfl, ⟨_, mark, rfl, ⟨_, between, rfl, ⟨_, name, rfl, ⟨_, gapBehind, rfl,
      ⟨_, _, rfl, ⟨_, gapBefore, rfl, ⟨[], _, rfl, rfl, rfl⟩, spacedBefore⟩, rfl⟩, spacedBehind⟩,
      named⟩, spacedBetween⟩, marked⟩, spaced⟩

/-- A text is an entry point exactly if it ends with the export of a name as default. -/
theorem endsInDefaultExport_iff {letters : List Char} :
    endsInDefaultExport letters = true ↔
      ∃ before word, letters = before ++ word ∧ IsDefaultExport word := by
  rw [endsInDefaultExport, occursIn_iff]
  constructor
  · rintro ⟨start, stop, ⟨before, leads⟩, ⟨⟩⟩
    next middle bodyRuns endRuns =>
      obtain ⟨_, word, isExport, further⟩ := (spells_isDefaultExport _ _).mp bodyRuns
      cases endRuns with
      | atEnd isLast =>
          refine ⟨before, word, ?_, isExport⟩
          have restEq := leads.rest_eq
          rw [further.rest_eq, isLast, List.append_nil] at restEq
          exact restEq
  · rintro ⟨before, word, rfl, isExport⟩
    obtain ⟨last, leads, isLast⟩ := Place.exists_last (.first (before ++ word))
    obtain ⟨middle, leadsBefore, leadsWord⟩ := leads.exists_middle
    have bodyRuns := (spells_isDefaultExport ⟨middle, []⟩ ⟨last, []⟩).mpr
      ⟨rfl, word, isExport, leadsWord⟩
    exact ⟨⟨middle, []⟩, ⟨last, []⟩, ⟨before, leadsBefore⟩, .sequence bodyRuns (.atEnd isLast)⟩

theorem IsDefaultExport.ne_nil {word : List Char} (isExport : IsDefaultExport word) :
    word ≠ [] := by
  obtain ⟨_, _, _, _, _, _, rfl, _⟩ := isExport
  simp

theorem IsDefaultExport.head?_eq {word : List Char} (isExport : IsDefaultExport word) :
    word.head? = some 'e' := by
  obtain ⟨_, _, _, _, _, _, rfl, _⟩ := isExport
  rfl

theorem not_mem_of_isName {name : List Char} {letter : Char} (notName : isName letter = false)
    (named : ∀ found ∈ name, isName found = true) : letter ∉ name := by
  intro member
  have isName := named letter member
  rw [notName] at isName
  cases isName

/-- An export consists of names, white space and perhaps a semicolon. -/
theorem IsDefaultExport.not_mem {word : List Char} (isExport : IsDefaultExport word)
    {letter : Char} (noSpace : isSpace letter = false) (noName : isName letter = false)
    (noSemicolon : letter ≠ ';') : letter ∉ word := by
  obtain ⟨gapBefore, gapBehind, name, between, mark, behind, rfl, ⟨_, spacedBefore⟩,
    ⟨_, spacedBehind⟩, ⟨_, named⟩, spacedBetween, marked, spaced⟩ := isExport
  have noGap : ∀ gap : List Char, (∀ found ∈ gap, isSpace found = true) → letter ∉ gap := by
    intro gap spacedGap member
    rw [spacedGap _ member] at noSpace
    cases noSpace
  have noWord {text : List Char} (inside : text.all isName = true) : letter ∉ text :=
    not_mem_of_isName noName (List.all_eq_true.mp inside)
  have noMark : letter ∉ mark := by
    rcases marked with rfl | rfl
    · exact fun member => noSemicolon (List.mem_singleton.mp member)
    · exact List.not_mem_nil
  simp only [List.mem_append, not_or]
  exact ⟨⟨⟨⟨⟨⟨⟨noWord (by decide), noGap _ spacedBefore⟩, noWord (by decide)⟩,
    noGap _ spacedBehind⟩, not_mem_of_isName noName named⟩, noGap _ spacedBetween⟩, noMark⟩,
    noGap _ spaced⟩

/-! ## Texts in front of an export -/

/-- What stands before a character that no export holds does not matter. -/
theorem endsInDefaultExport_append_cons (front : List Char) {mark : Char} (rest : List Char)
    (noSpace : isSpace mark = false) (noName : isName mark = false) (noSemicolon : mark ≠ ';') :
    endsInDefaultExport (front ++ mark :: rest) = endsInDefaultExport rest := by
  rw [Bool.eq_iff_iff, endsInDefaultExport_iff, endsInDefaultExport_iff]
  constructor
  · rintro ⟨before, word, shape, isExport⟩
    rcases List.append_eq_append_iff.mp shape with
      ⟨between, beforeEq, restEq⟩ | ⟨between, frontEq, wordEq⟩
    · cases between with
      | nil =>
          have inWord : mark ∈ word := by
            rw [← List.nil_append word, ← restEq]
            exact List.mem_cons_self
          exact absurd inWord (isExport.not_mem noSpace noName noSemicolon)
      | cons letter others =>
          obtain ⟨rfl, rfl⟩ := List.cons.inj restEq
          exact ⟨others, word, rfl, isExport⟩
    · have inWord : mark ∈ word := by
        rw [wordEq]
        exact List.mem_append_right between List.mem_cons_self
      exact absurd inWord (isExport.not_mem noSpace noName noSemicolon)
  · rintro ⟨before, word, rfl, isExport⟩
    exact ⟨front ++ mark :: before, word, by rw [List.append_assoc]; rfl, isExport⟩

/-- A character with which no export begins does not matter at the start. -/
theorem endsInDefaultExport_cons {letter : Char} (other : letter ≠ 'e') (rest : List Char) :
    endsInDefaultExport (letter :: rest) = endsInDefaultExport rest := by
  rw [Bool.eq_iff_iff, endsInDefaultExport_iff, endsInDefaultExport_iff]
  constructor
  · rintro ⟨before, word, shape, isExport⟩
    cases before with
    | nil =>
        have opens := isExport.head?_eq
        rw [← List.nil_append word, ← shape] at opens
        exact absurd (Option.some.inj opens) other
    | cons first others =>
        obtain ⟨_, rfl⟩ := List.cons.inj shape
        exact ⟨others, word, rfl, isExport⟩
  · rintro ⟨before, word, rfl, isExport⟩
    exact ⟨letter :: before, word, rfl, isExport⟩

/-! ## Terminators -/

/-- Carriage returns can be put into an export and can be taken out of it. -/
theorem endsInDefaultExport_withReturns {letters : List Char} (absent : '\r' ∉ letters) :
    endsInDefaultExport (withReturns letters) = endsInDefaultExport letters := by
  have spacesKept : ∀ {gap : List Char}, (∀ letter ∈ gap, isSpace letter = true) →
      ∀ letter ∈ withoutReturns gap, isSpace letter = true := fun spaced letter member =>
    spaced letter (List.mem_of_mem_filter member)
  have spacesAdded : ∀ {gap : List Char}, (∀ letter ∈ gap, isSpace letter = true) →
      ∀ letter ∈ withReturns gap, isSpace letter = true :=
    forall_mem_withReturns (by decide)
  rw [Bool.eq_iff_iff, endsInDefaultExport_iff, endsInDefaultExport_iff]
  constructor
  · rintro ⟨before, _, shape, gapBefore, gapBehind, name, between, mark, behind, rfl,
      ⟨someBefore, spacedBefore⟩, ⟨someBehind, spacedBehind⟩, ⟨someName, named⟩, spacedBetween,
      marked, spaced⟩
    have nameEq : withoutReturns name = name :=
      withoutReturns_eq_self (not_mem_of_isName (by decide) named)
    have markEq : withoutReturns mark = mark := by
      rcases marked with rfl | rfl
      · rfl
      · rfl
    have noFeedInName : '\n' ∉ name := not_mem_of_isName (by decide) named
    have noFeed : (name ++ between ++ mark ++ behind).head? ≠ some '\n' := by
      cases name with
      | nil => exact absurd rfl someName
      | cons letter rest =>
          intro feed
          have isFeed : letter = '\n' := Option.some.inj feed
          exact noFeedInName (isFeed ▸ List.mem_cons_self)
    have aroundBefore : withReturns letters = before ++ "export".toList ++ gapBefore ++
        ("default".toList ++ gapBehind ++ name ++ between ++ mark ++ behind) := by
      rw [shape]
      simp only [List.append_assoc]
    have aroundBehind : withReturns letters =
        before ++ "export".toList ++ gapBefore ++ "default".toList ++ gapBehind ++
          (name ++ between ++ mark ++ behind) := by
      rw [shape]
      simp only [List.append_assoc]
    -- neither gap is made of carriage returns alone, for a line feed would come behind it
    have someBefore : withoutReturns gapBefore ≠ [] :=
      withoutReturns_ne_nil absent aroundBefore someBefore (by simp)
    have someBehind : withoutReturns gapBehind ≠ [] :=
      withoutReturns_ne_nil absent aroundBehind someBehind noFeed
    refine ⟨withoutReturns before, _, ?_, withoutReturns gapBefore, withoutReturns gapBehind, name,
      withoutReturns between, mark, withoutReturns behind, rfl,
      ⟨someBefore, spacesKept spacedBefore⟩, ⟨someBehind, spacesKept spacedBehind⟩,
      ⟨someName, named⟩, spacesKept spacedBetween, marked, spacesKept spaced⟩
    rw [← withoutReturns_withReturns absent, shape]
    simp only [withoutReturns_append, nameEq, markEq]
    rfl
  · rintro ⟨before, _, rfl, gapBefore, gapBehind, name, between, mark, behind, rfl,
      ⟨someBefore, spacedBefore⟩, ⟨someBehind, spacedBehind⟩, ⟨someName, named⟩, spacedBetween,
      marked, spaced⟩
    have nameEq : withReturns name = name :=
      withReturns_eq_self (not_mem_of_isName (by decide) named)
    have markEq : withReturns mark = mark := by
      rcases marked with rfl | rfl
      · rfl
      · rfl
    refine ⟨withReturns before, _, withReturns_append before _, withReturns gapBefore,
      withReturns gapBehind, name, withReturns between, mark, withReturns behind, ?_,
      ⟨mt withReturns_eq_nil_iff.mp someBefore, spacesAdded spacedBefore⟩,
      ⟨mt withReturns_eq_nil_iff.mp someBehind, spacesAdded spacedBehind⟩, ⟨someName, named⟩,
      spacesAdded spacedBetween, marked, spacesAdded spaced⟩
    simp only [withReturns_append, nameEq, markEq]
    rfl

/-- The line feed at the end belongs to the last part that is not empty. -/
theorem exists_of_append_feed_eq {letters front back : List Char}
    (shape : letters ++ ['\n'] = front ++ back) (nonempty : back ≠ []) :
    ∃ initial, back = initial ++ ['\n'] ∧ letters = front ++ initial := by
  obtain ⟨initial, last, rfl⟩ := (List.eq_nil_or_concat back).resolve_left nonempty
  rw [List.concat_eq_append, ← List.append_assoc] at shape
  obtain ⟨lettersEq, lastEq⟩ := List.append_inj' shape rfl
  exact ⟨initial, by rw [List.concat_eq_append, lastEq], lettersEq⟩

theorem endsInDefaultExport_append_feed (letters : List Char) :
    endsInDefaultExport (letters ++ ['\n']) = endsInDefaultExport letters := by
  rw [Bool.eq_iff_iff, endsInDefaultExport_iff, endsInDefaultExport_iff]
  constructor
  · rintro ⟨before, _, shape, gapBefore, gapBehind, name, between, mark, behind, rfl,
      spacedBefore, spacedBehind, ⟨someName, named⟩, spacedBetween, marked, spaced⟩
    have shorten : ∀ {gap initial : List Char}, gap = initial ++ ['\n'] →
        (∀ letter ∈ gap, isSpace letter = true) → ∀ letter ∈ initial, isSpace letter = true := by
      intro gap initial gapEq spaced letter member
      exact spaced letter (gapEq ▸ List.mem_append_left _ member)
    rw [← List.append_assoc] at shape
    -- the line feed ends the last of the parts that is not empty, and only white space can end so
    by_cases noBehind : behind = []
    case neg =>
      obtain ⟨initial, behindEq, lettersEq⟩ := exists_of_append_feed_eq shape noBehind
      refine ⟨before, _, ?_, gapBefore, gapBehind, name, between, mark, initial, rfl,
        spacedBefore, spacedBehind, ⟨someName, named⟩, spacedBetween, marked,
        shorten behindEq spaced⟩
      rw [lettersEq, List.append_assoc]
    rw [noBehind, List.append_nil, ← List.append_assoc] at shape
    rcases marked with rfl | rfl
    · obtain ⟨initial, markEq, _⟩ := exists_of_append_feed_eq shape (List.cons_ne_nil _ _)
      have lastEq := congrArg List.getLast? markEq
      rw [List.getLast?_concat] at lastEq
      exact absurd lastEq (by decide)
    rw [List.append_nil, ← List.append_assoc] at shape
    by_cases noBetween : between = []
    case neg =>
      obtain ⟨initial, betweenEq, lettersEq⟩ := exists_of_append_feed_eq shape noBetween
      refine ⟨before, _, ?_, gapBefore, gapBehind, name, initial, [], [], rfl,
        spacedBefore, spacedBehind, ⟨someName, named⟩, shorten betweenEq spacedBetween,
        Or.inr rfl, nofun⟩
      rw [lettersEq, List.append_assoc, List.append_nil, List.append_nil]
    rw [noBetween, List.append_nil, ← List.append_assoc] at shape
    obtain ⟨initial, nameEq, _⟩ := exists_of_append_feed_eq shape someName
    have noFeed : '\n' ∉ name := not_mem_of_isName (by decide) named
    exact absurd (nameEq ▸ List.mem_append_right _ (List.mem_singleton_self _)) noFeed
  · rintro ⟨before, _, rfl, gapBefore, gapBehind, name, between, mark, behind, rfl,
      spacedBefore, spacedBehind, isNamed, spacedBetween, marked, spaced⟩
    refine ⟨before, _, List.append_assoc .., gapBefore, gapBehind, name, between, mark,
      behind ++ ['\n'], List.append_assoc .., spacedBefore, spacedBehind, isNamed, spacedBetween,
      marked, ?_⟩
    intro letter member
    rcases List.mem_append.mp member with earlier | last
    · exact spaced letter earlier
    · rw [List.mem_singleton.mp last]
      decide

end ScriptLint.Outline
