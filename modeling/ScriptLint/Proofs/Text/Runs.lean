import ScriptLint.Text.Pattern
import ScriptLint.Proofs.Text.Bytes

/-!
# Runs of patterns

The relation `Pattern.Runs` says what a pattern describes without choosing between alternatives: it
has one rule for each form of a pattern. Every end that the matcher lists is reached by a run, so
what holds of all runs holds of all matches. Here this is used for the places and spans of a match,
which are those of the text, and for the characters that a run consists of.
-/

namespace ScriptLint.Text

/-! ## Places and spans of a text -/

/-- The characters passed from one place of a text to another. -/
structure Place.Leads (start : Place) (run : List Char) (stop : Place) : Prop where
  rest_eq : start.rest = run ++ stop.rest
  position_eq : stop.position = start.position + byteLength run
  before_eq : stop.before = run.getLast?.or start.before

/-- A place between two parts of a text. -/
def Place.IsIn (letters : List Char) (place : Place) : Prop :=
  ∃ passed, (Place.first letters).Leads passed place

/-- A span that covers its characters in a text. -/
def Span.IsIn (letters : List Char) (span : Span) : Prop :=
  ∃ before after, letters = before ++ span.letters ++ after ∧
    span.start = byteLength before ∧ span.stop = span.start + byteLength span.letters

theorem takeBytes_append (run rest : List Char) :
    takeBytes (byteLength run) (run ++ rest) = run := by
  induction run with
  | nil => cases rest <;> simp [takeBytes]
  | cons letter others inductionHypothesis =>
      have sizePositive := letter.utf8Size_pos
      rw [List.cons_append, takeBytes, byteLength_cons, if_neg (by omega), Nat.add_sub_cancel_left,
        inductionHypothesis]

namespace Place.Leads

theorem refl (place : Place) : place.Leads [] place := ⟨rfl, rfl, rfl⟩

theorem trans {start middle stop : Place} {first second : List Char}
    (leads : start.Leads first middle) (further : middle.Leads second stop) :
    start.Leads (first ++ second) stop where
  rest_eq := by rw [leads.rest_eq, further.rest_eq, List.append_assoc]
  position_eq := by rw [further.position_eq, leads.position_eq, byteLength_append, Nat.add_assoc]
  before_eq := by
    rw [further.before_eq, leads.before_eq, List.getLast?_append, Option.or_assoc]

theorem after {place : Place} {letter : Char} {rest : List Char}
    (follows : place.rest = letter :: rest) : place.Leads [letter] (place.after letter rest) where
  rest_eq := follows
  position_eq := rfl
  before_eq := rfl

theorem spanTo_eq {start stop : Place} {run : List Char} (leads : start.Leads run stop) :
    start.spanTo stop = ⟨start.position, start.position + byteLength run, run⟩ := by
  rw [spanTo, leads.position_eq, leads.rest_eq, Nat.add_sub_cancel_left, takeBytes_append]

/-- Positions tell the places behind one place apart. -/
theorem eq_of_position_eq {start stop other : Place} {run further : List Char}
    (leads : start.Leads run stop) (leadsOther : start.Leads further other)
    (same : stop.position = other.position) : stop = other := by
  have sameLength : byteLength run = byteLength further := by
    have first := leads.position_eq
    have second := leadsOther.position_eq
    omega
  have sameRun : run = further := by
    rw [← takeBytes_append run stop.rest, ← takeBytes_append further other.rest,
      ← leads.rest_eq, ← leadsOther.rest_eq, sameLength]
  have sameRest : stop.rest = other.rest := by
    have restEq : run ++ stop.rest = run ++ other.rest := by
      rw [← leads.rest_eq, sameRun, ← leadsOther.rest_eq]
    exact List.append_cancel_left restEq
  have sameBefore : stop.before = other.before := by
    rw [leads.before_eq, leadsOther.before_eq, sameRun]
  cases stop
  cases other
  simp only at same sameRest sameBefore
  rw [same, sameRest, sameBefore]

end Place.Leads

namespace Place.IsIn

theorem first (letters : List Char) : (Place.first letters).IsIn letters := ⟨[], .refl _⟩

theorem leads {letters run : List Char} {start stop : Place} (inText : start.IsIn letters)
    (leads : start.Leads run stop) : stop.IsIn letters := by
  obtain ⟨passed, fromStart⟩ := inText
  exact ⟨passed ++ run, fromStart.trans leads⟩

theorem spanTo {letters run : List Char} {start stop : Place} (inText : start.IsIn letters)
    (leads : start.Leads run stop) : (start.spanTo stop).IsIn letters := by
  obtain ⟨passed, fromStart⟩ := inText
  rw [leads.spanTo_eq]
  refine ⟨passed, stop.rest, ?_, fromStart.position_eq.trans (Nat.zero_add _), rfl⟩
  rw [List.append_assoc, ← leads.rest_eq]
  exact fromStart.rest_eq

end Place.IsIn

namespace Span.IsIn

variable {letters : List Char} {span : Span}

theorem isBoundary_stop (inText : span.IsIn letters) : IsBoundary letters span.stop := by
  obtain ⟨before, after, lettersEq, startEq, stopEq⟩ := inText
  exact ⟨before ++ span.letters, after, lettersEq, by rw [byteLength_append, stopEq, startEq]⟩

/-- The columns of the two ends of a span are as far apart as it has characters. -/
theorem charColumn_stop (inText : span.IsIn letters) :
    charColumn letters span.stop = charColumn letters span.start + span.letters.length := by
  obtain ⟨before, after, lettersEq, startEq, stopEq⟩ := inText
  have startColumn := charColumn_append before (span.letters ++ after)
  have stopColumn := charColumn_append (before ++ span.letters) after
  rw [← List.append_assoc, ← lettersEq, ← startEq] at startColumn
  rw [← lettersEq, byteLength_append, ← startEq, ← stopEq] at stopColumn
  rw [startColumn, stopColumn, List.length_append]

end Span.IsIn

namespace Pattern

/-- A run of a pattern from one partial match to another. -/
inductive Runs : Pattern → Reached → Reached → Prop where
  | empty (reached : Reached) : Runs empty reached reached
  | one {accepts : Char → Bool} {reached : Reached} {letter : Char} {rest : List Char}
      (follows : reached.place.rest = letter :: rest) (accepted : accepts letter = true) :
      Runs (one accepts) reached { reached with place := reached.place.after letter rest }
  | sequence {first second : Pattern} {reached middle next : Reached} :
      Runs first reached middle → Runs second middle next → Runs (sequence first second) reached next
  | preferred {preferred other : Pattern} {reached next : Reached} :
      Runs preferred reached next → Runs (choice preferred other) reached next
  | other {preferred other : Pattern} {reached next : Reached} :
      Runs other reached next → Runs (choice preferred other) reached next
  | manyNone (body : Pattern) (reached : Reached) : Runs (many body) reached reached
  | manyMore {body : Pattern} {reached middle next : Reached} :
      Runs body reached middle → Runs (many body) middle next → Runs (many body) reached next
  | fewNone (body : Pattern) (reached : Reached) : Runs (few body) reached reached
  | fewMore {body : Pattern} {reached middle next : Reached} :
      Runs body reached middle → Runs (few body) middle next → Runs (few body) reached next
  | group {number : Nat} {body : Pattern} {reached next : Reached} :
      Runs body reached next →
      Runs (group number body) reached
        { next with groups := (number, reached.place.spanTo next.place) :: next.groups }
  | atStart {reached : Reached} : reached.place.position = 0 → Runs atStart reached reached
  | atEnd {reached : Reached} : reached.place.rest = [] → Runs atEnd reached reached
  | atWordEdge {reached : Reached} :
      reached.place.isWordEdge = true → Runs atWordEdge reached reached

/-! ## The matcher lists ends of runs -/

theorem mem_of_mem_keepNew {origin : Nat} {reached : Reached} {others : List Reached} {seen : Nat}
    (member : reached ∈ (Reached.keepNew origin others seen).1) : reached ∈ others := by
  induction others generalizing seen with
  | nil => exact member
  | cons first rest inductionHypothesis =>
      unfold Reached.keepNew at member
      simp only at member
      split at member
      · exact List.mem_cons_of_mem _ (inductionHypothesis member)
      · rcases List.mem_cons.mp member with same | later
        · exact same ▸ List.mem_cons_self
        · exact List.mem_cons_of_mem _ (inductionHypothesis later)

theorem exists_of_mem_advance {step : Reached → List Reached} {origin : Nat} {next : Reached}
    {others : List Reached} {seen : Nat} (member : next ∈ Reached.advance step origin others seen) :
    ∃ reached ∈ others, next ∈ step reached := by
  induction others generalizing seen with
  | nil => exact absurd member List.not_mem_nil
  | cons first rest inductionHypothesis =>
      unfold Reached.advance at member
      rcases List.mem_append.mp member with here | later
      · exact ⟨first, List.mem_cons_self, mem_of_mem_keepNew here⟩
      · obtain ⟨reached, reachedMember, stepMember⟩ := inductionHypothesis later
        exact ⟨reached, List.mem_cons_of_mem _ reachedMember, stepMember⟩

section Repetition

variable {step : Reached → List Reached} {reaches : Reached → Reached → Prop}

/-- An end of a repetition is related to its start by every relation that holds of no repetition and
is passed on by one more. -/
theorem reaches_of_mem_repeatMany (done : ∀ reached, reaches reached reached)
    (more : ∀ reached middle next, middle ∈ step reached → reaches middle next →
      reaches reached next)
    {count : Nat} {reached next : Reached} {others : List Reached}
    (member : next ∈ Reached.repeatMany step count reached others) :
    reaches reached next ∨ next ∈ others := by
  induction count generalizing reached others with
  | zero =>
      rcases List.mem_cons.mp member with same | later
      · exact Or.inl (same ▸ done reached)
      · exact Or.inr later
  | succ count inductionHypothesis =>
      have folded : ∀ starts : List Reached,
          (∀ start ∈ starts, start ∈ step reached) →
          next ∈ starts.foldr (Reached.repeatMany step count) (reached :: others) →
          reaches reached next ∨ next ∈ others := by
        intro starts areSteps
        induction starts with
        | nil =>
            intro member
            rcases List.mem_cons.mp member with same | later
            · exact Or.inl (same ▸ done reached)
            · exact Or.inr later
        | cons start rest restHypothesis =>
            intro member
            rcases inductionHypothesis member with here | later
            · exact Or.inl (more reached start next (areSteps start List.mem_cons_self) here)
            · exact restHypothesis (fun start member =>
                areSteps start (List.mem_cons_of_mem _ member)) later
      exact folded _ (fun start member => List.mem_of_mem_filter member) member

theorem reaches_of_mem_repeatFew (done : ∀ reached, reaches reached reached)
    (more : ∀ reached middle next, middle ∈ step reached → reaches middle next →
      reaches reached next)
    {count : Nat} {reached next : Reached} {others : List Reached}
    (member : next ∈ Reached.repeatFew step count reached others) :
    reaches reached next ∨ next ∈ others := by
  induction count generalizing reached others with
  | zero =>
      rcases List.mem_cons.mp member with same | later
      · exact Or.inl (same ▸ done reached)
      · exact Or.inr later
  | succ count inductionHypothesis =>
      have folded : ∀ starts : List Reached,
          (∀ start ∈ starts, start ∈ step reached) →
          next ∈ starts.foldr (Reached.repeatFew step count) others →
          reaches reached next ∨ next ∈ others := by
        intro starts areSteps
        induction starts with
        | nil => exact Or.inr
        | cons start rest restHypothesis =>
            intro member
            rcases inductionHypothesis member with here | later
            · exact Or.inl (more reached start next (areSteps start List.mem_cons_self) here)
            · exact restHypothesis (fun start member =>
                areSteps start (List.mem_cons_of_mem _ member)) later
      rcases List.mem_cons.mp member with same | later
      · exact Or.inl (same ▸ done reached)
      · exact folded _ (fun start member => List.mem_of_mem_filter member) later

variable {body : Pattern} {count : Nat} {reached next : Reached}

theorem runs_of_mem_repeatMany
    (runsOfStep : ∀ {reached next}, next ∈ step reached → Runs body reached next)
    (member : next ∈ Reached.repeatMany step count reached []) : Runs (many body) reached next := by
  have runsOrNothing : Runs (many body) reached next ∨ next ∈ [] :=
    reaches_of_mem_repeatMany (.manyNone body)
      (fun _ _ _ middleMember runs => .manyMore (runsOfStep middleMember) runs) member
  exact runsOrNothing.resolve_right List.not_mem_nil

theorem runs_of_mem_repeatFew
    (runsOfStep : ∀ {reached next}, next ∈ step reached → Runs body reached next)
    (member : next ∈ Reached.repeatFew step count reached []) : Runs (few body) reached next := by
  have runsOrNothing : Runs (few body) reached next ∨ next ∈ [] :=
    reaches_of_mem_repeatFew (.fewNone body)
      (fun _ _ _ middleMember runs => .fewMore (runsOfStep middleMember) runs) member
  exact runsOrNothing.resolve_right List.not_mem_nil

end Repetition

/-- Every end that the matcher lists is the end of a run. -/
theorem runs_of_mem_ends {limit : Nat} {pattern : Pattern} {reached next : Reached}
    (member : next ∈ ends limit pattern reached) : Runs pattern reached next := by
  induction pattern generalizing reached next with
  | empty =>
      rw [ends, List.mem_singleton] at member
      exact member ▸ .empty reached
  | one accepts =>
      rw [ends] at member
      split at member
      · exact absurd member List.not_mem_nil
      · next letter rest follows =>
          split at member
          · next accepted =>
              rw [List.mem_singleton] at member
              exact member ▸ .one follows accepted
          · exact absurd member List.not_mem_nil
  | sequence first second firstHypothesis secondHypothesis =>
      rw [ends] at member
      obtain ⟨middle, middleMember, nextMember⟩ := exists_of_mem_advance member
      exact .sequence (firstHypothesis middleMember) (secondHypothesis nextMember)
  | choice preferred other preferredHypothesis otherHypothesis =>
      rw [ends] at member
      rcases List.mem_append.mp member with chosen | left
      · exact .preferred (preferredHypothesis chosen)
      · exact .other (otherHypothesis left)
  | many body bodyHypothesis =>
      rw [ends] at member
      exact runs_of_mem_repeatMany bodyHypothesis member
  | few body bodyHypothesis =>
      rw [ends] at member
      exact runs_of_mem_repeatFew bodyHypothesis member
  | group number body bodyHypothesis =>
      rw [ends, List.mem_map] at member
      obtain ⟨inner, innerMember, same⟩ := member
      exact same ▸ .group (bodyHypothesis innerMember)
  | atStart =>
      rw [ends] at member
      split at member
      · next start =>
          rw [List.mem_singleton] at member
          subst member
          exact .atStart start
      · exact absurd member List.not_mem_nil
  | atEnd =>
      rw [ends] at member
      split at member
      · next done =>
          rw [List.mem_singleton] at member
          subst member
          exact .atEnd (List.isEmpty_iff.mp done)
      · exact absurd member List.not_mem_nil
  | atWordEdge =>
      rw [ends] at member
      split at member
      · next edge =>
          rw [List.mem_singleton] at member
          subst member
          exact .atWordEdge edge
      · exact absurd member List.not_mem_nil

/-! ## What a run passes -/

/-- Every character that the pattern accepts anywhere satisfies the test. -/
def Only (test : Char → Prop) : Pattern → Prop
  | one accepts => ∀ letter, accepts letter = true → test letter
  | sequence first second | choice first second => first.Only test ∧ second.Only test
  | many body | few body | group _ body => body.Only test
  | empty | atStart | atEnd | atWordEdge => True

/-- The pattern consists of conditions on the place, which pass no character. -/
def IsCondition : Pattern → Prop
  | empty | atStart | atEnd | atWordEdge => True
  | sequence first second => first.IsCondition ∧ second.IsCondition
  | _ => False

/-- Every run of the pattern begins with a character that satisfies the test. -/
def OpensWith (test : Char → Prop) : Pattern → Prop
  | one accepts => ∀ letter, accepts letter = true → test letter
  | sequence first second => first.OpensWith test ∨ (first.IsCondition ∧ second.OpensWith test)
  | choice first second => first.OpensWith test ∧ second.OpensWith test
  | group _ body => body.OpensWith test
  | _ => False

namespace Runs

variable {pattern : Pattern} {reached next : Reached} {test : Char → Prop}

/-- A run passes characters of the text, all of them of a kind that the pattern accepts. -/
theorem exists_leads (runs : Runs pattern reached next) :
    ∃ run, reached.place.Leads run next.place ∧
      ∀ test, pattern.Only test → ∀ letter ∈ run, test letter := by
  induction runs with
  | empty reached => exact ⟨[], .refl _, nofun⟩
  | @one accepts reached letter rest follows accepted =>
      refine ⟨[letter], .after follows, fun test only found member => ?_⟩
      rw [List.mem_singleton] at member
      exact member ▸ only letter accepted
  | sequence _ _ firstHypothesis secondHypothesis =>
      obtain ⟨run, leads, kinds⟩ := firstHypothesis
      obtain ⟨further, leadsFurther, furtherKinds⟩ := secondHypothesis
      refine ⟨run ++ further, leads.trans leadsFurther, fun test only letter member => ?_⟩
      rcases List.mem_append.mp member with earlier | later
      · exact kinds test only.1 letter earlier
      · exact furtherKinds test only.2 letter later
  | preferred _ hypothesis =>
      obtain ⟨run, leads, kinds⟩ := hypothesis
      exact ⟨run, leads, fun test only => kinds test only.1⟩
  | other _ hypothesis =>
      obtain ⟨run, leads, kinds⟩ := hypothesis
      exact ⟨run, leads, fun test only => kinds test only.2⟩
  | manyNone body reached => exact ⟨[], .refl _, nofun⟩
  | manyMore _ _ bodyHypothesis restHypothesis =>
      obtain ⟨run, leads, kinds⟩ := bodyHypothesis
      obtain ⟨further, leadsFurther, furtherKinds⟩ := restHypothesis
      refine ⟨run ++ further, leads.trans leadsFurther, fun test only letter member => ?_⟩
      rcases List.mem_append.mp member with earlier | later
      · exact kinds test only letter earlier
      · exact furtherKinds test only letter later
  | fewNone body reached => exact ⟨[], .refl _, nofun⟩
  | fewMore _ _ bodyHypothesis restHypothesis =>
      obtain ⟨run, leads, kinds⟩ := bodyHypothesis
      obtain ⟨further, leadsFurther, furtherKinds⟩ := restHypothesis
      refine ⟨run ++ further, leads.trans leadsFurther, fun test only letter member => ?_⟩
      rcases List.mem_append.mp member with earlier | later
      · exact kinds test only letter earlier
      · exact furtherKinds test only letter later
  | group _ hypothesis => exact hypothesis
  | atStart | atEnd | atWordEdge => exact ⟨[], .refl _, nofun⟩

/-- A run that does not move on has stayed where it was. -/
theorem place_eq_or_lt (runs : Runs pattern reached next) :
    next.place = reached.place ∨ (reached.place.position < next.place.position ∧
      next.place.rest.length < reached.place.rest.length) := by
  obtain ⟨run, leads, _⟩ := runs.exists_leads
  have restEq := leads.rest_eq
  have positionEq := leads.position_eq
  cases run with
  | nil => exact Or.inl ((Place.Leads.refl _).eq_of_position_eq leads positionEq.symm).symm
  | cons letter others =>
      right
      have sizePositive := letter.utf8Size_pos
      rw [byteLength_cons] at positionEq
      rw [restEq, List.length_append, List.length_cons]
      omega

theorem eq_of_isCondition (runs : Runs pattern reached next) (condition : pattern.IsCondition) :
    next = reached := by
  induction runs with
  | empty | atStart | atEnd | atWordEdge => rfl
  | sequence _ _ firstHypothesis secondHypothesis =>
      rw [secondHypothesis condition.2, firstHypothesis condition.1]
  | _ => exact condition.elim

/-- A run of a pattern that opens with a class of characters passes at least one of them. -/
theorem exists_leads_cons (runs : Runs pattern reached next) (opens : pattern.OpensWith test) :
    ∃ letter run, reached.place.Leads (letter :: run) next.place ∧ test letter := by
  induction runs with
  | one follows accepted => exact ⟨_, [], .after follows, opens _ accepted⟩
  | sequence firstRuns secondRuns firstHypothesis secondHypothesis =>
      rcases opens with opensFirst | ⟨condition, opensSecond⟩
      · obtain ⟨letter, run, leads, passes⟩ := firstHypothesis opensFirst
        obtain ⟨further, leadsFurther, _⟩ := secondRuns.exists_leads
        exact ⟨letter, run ++ further, leads.trans leadsFurther, passes⟩
      · rw [firstRuns.eq_of_isCondition condition] at secondHypothesis
        exact secondHypothesis opensSecond
  | preferred _ hypothesis => exact hypothesis opens.1
  | other _ hypothesis => exact hypothesis opens.2
  | group _ hypothesis => exact hypothesis opens
  | _ => exact opens.elim

end Runs

/-! ## Groups -/

/-- The patterns whose runs are recorded under a number. -/
def bodies (number : Nat) : Pattern → List Pattern
  | group found body => (if found = number then [body] else []) ++ body.bodies number
  | sequence first second | choice first second => first.bodies number ++ second.bodies number
  | many body | few body => body.bodies number
  | _ => []

/-- Every run of the pattern records a span under the number. -/
def Records (number : Nat) : Pattern → Prop
  | group found body => found = number ∨ body.Records number
  | sequence first second => first.Records number ∨ second.Records number
  | choice first second => first.Records number ∧ second.Records number
  | _ => False

namespace Runs

variable {pattern : Pattern} {reached next : Reached} {number : Nat} {span : Span}

/-- A run keeps the groups recorded before it. -/
theorem mem_groups (runs : Runs pattern reached next) (member : (number, span) ∈ reached.groups) :
    (number, span) ∈ next.groups := by
  induction runs with
  | sequence _ _ firstHypothesis secondHypothesis => exact secondHypothesis (firstHypothesis member)
  | preferred _ hypothesis | other _ hypothesis => exact hypothesis member
  | manyMore _ _ bodyHypothesis restHypothesis | fewMore _ _ bodyHypothesis restHypothesis =>
      exact restHypothesis (bodyHypothesis member)
  | group _ hypothesis => exact List.mem_cons_of_mem _ (hypothesis member)
  | _ => exact member

theorem exists_mem_groups (runs : Runs pattern reached next) (records : pattern.Records number) :
    ∃ span, (number, span) ∈ next.groups := by
  induction runs with
  | sequence firstRuns secondRuns firstHypothesis secondHypothesis =>
      rcases records with first | second
      · obtain ⟨span, member⟩ := firstHypothesis first
        exact ⟨span, secondRuns.mem_groups member⟩
      · exact secondHypothesis second
  | preferred _ hypothesis => exact hypothesis records.1
  | other _ hypothesis => exact hypothesis records.2
  | group _ hypothesis =>
      rcases records with rfl | inner
      · exact ⟨_, List.mem_cons_self⟩
      · obtain ⟨span, member⟩ := hypothesis inner
        exact ⟨span, List.mem_cons_of_mem _ member⟩
  | _ => exact records.elim

/-- A recorded span is the span of a run of one of the patterns recorded under its number. -/
theorem of_mem_groups {letters : List Char} (runs : Runs pattern reached next)
    (inText : reached.place.IsIn letters) (member : (number, span) ∈ next.groups) :
    (number, span) ∈ reached.groups ∨
      ∃ body ∈ pattern.bodies number, ∃ start stop : Reached,
        start.place.IsIn letters ∧ Runs body start stop ∧
          span = start.place.spanTo stop.place := by
  induction runs with
  | sequence firstRuns _ firstHypothesis secondHypothesis =>
      obtain ⟨run, leads, _⟩ := firstRuns.exists_leads
      rcases secondHypothesis (inText.leads leads) member with earlier | ⟨body, isBody, recorded⟩
      · rcases firstHypothesis inText earlier with before | ⟨body, isBody, recorded⟩
        · exact Or.inl before
        · exact Or.inr ⟨body, List.mem_append_left _ isBody, recorded⟩
      · exact Or.inr ⟨body, List.mem_append_right _ isBody, recorded⟩
  | preferred _ hypothesis =>
      rcases hypothesis inText member with before | ⟨body, isBody, recorded⟩
      · exact Or.inl before
      · exact Or.inr ⟨body, List.mem_append_left _ isBody, recorded⟩
  | other _ hypothesis =>
      rcases hypothesis inText member with before | ⟨body, isBody, recorded⟩
      · exact Or.inl before
      · exact Or.inr ⟨body, List.mem_append_right _ isBody, recorded⟩
  | manyMore bodyRuns _ bodyHypothesis restHypothesis
  | fewMore bodyRuns _ bodyHypothesis restHypothesis =>
      obtain ⟨run, leads, _⟩ := bodyRuns.exists_leads
      rcases restHypothesis (inText.leads leads) member with earlier | recorded
      · exact bodyHypothesis inText earlier
      · exact Or.inr recorded
  | @group found body reached next bodyRuns hypothesis =>
      rcases List.mem_cons.mp member with same | inner
      · obtain ⟨sameNumber, sameSpan⟩ := Prod.mk.inj same
        refine Or.inr ⟨body, ?_, reached, next, inText, bodyRuns, sameSpan⟩
        rw [bodies, if_pos sameNumber.symm]
        exact List.mem_append_left _ (List.mem_singleton_self body)
      · rcases hypothesis inText inner with before | ⟨body, isBody, recorded⟩
        · exact Or.inl before
        · exact Or.inr ⟨body, List.mem_append_right _ isBody, recorded⟩
  | _ => exact Or.inl member

end Runs

end Pattern

end ScriptLint.Text
