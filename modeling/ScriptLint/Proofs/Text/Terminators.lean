import ScriptLint.Proofs.Text.Split
import Mathlib.Data.List.Basic

/-!
# Carriage returns

A text without carriage returns can be written with one in front of each line feed. The original is
what is left when the carriage returns are taken out again, and each carriage return is followed by
a line feed.
-/

namespace ScriptLint.Text

/-- The text with a carriage return in front of each line feed. -/
def withReturns (letters : List Char) : List Char :=
  letters.flatMap fun letter => if letter = '\n' then ['\r', '\n'] else [letter]

theorem withReturns_append (first second : List Char) :
    withReturns (first ++ second) = withReturns first ++ withReturns second :=
  List.flatMap_append

theorem withReturns_cons_feed (rest : List Char) :
    withReturns ('\n' :: rest) = '\r' :: '\n' :: withReturns rest := rfl

theorem withReturns_cons_of_ne {letter : Char} (other : letter ≠ '\n') (rest : List Char) :
    withReturns (letter :: rest) = letter :: withReturns rest := by
  rw [withReturns, List.flatMap_cons, if_neg other]
  rfl

theorem withReturns_eq_self {letters : List Char} (absent : '\n' ∉ letters) :
    withReturns letters = letters := by
  induction letters with
  | nil => rfl
  | cons letter rest inductionHypothesis =>
      rw [List.mem_cons, not_or] at absent
      rw [withReturns_cons_of_ne (Ne.symm absent.1), inductionHypothesis absent.2]

theorem withReturns_eq_nil_iff {letters : List Char} : withReturns letters = [] ↔ letters = [] := by
  cases letters with
  | nil => exact Iff.rfl
  | cons letter rest =>
      by_cases feed : letter = '\n'
      · rw [feed, withReturns_cons_feed]
        exact iff_of_false (List.cons_ne_nil _ _) (List.cons_ne_nil _ _)
      · rw [withReturns_cons_of_ne feed]
        exact iff_of_false (List.cons_ne_nil _ _) (List.cons_ne_nil _ _)

/-- A class that holds both terminators holds the text with carriage returns if it holds the text. -/
theorem forall_mem_withReturns {letters : List Char} {test : Char → Prop} (acceptsReturn : test '\r')
    (accepted : ∀ letter ∈ letters, test letter) : ∀ letter ∈ withReturns letters, test letter := by
  intro letter member
  obtain ⟨found, foundMember, member⟩ := List.mem_flatMap.mp member
  have acceptedFound := accepted found foundMember
  split at member
  · next feed =>
      rw [feed] at acceptedFound
      rcases List.mem_cons.mp member with rfl | last
      · exact acceptsReturn
      · rw [List.mem_singleton.mp last]
        exact acceptedFound
  · rw [List.mem_singleton.mp member]
    exact acceptedFound

/-- The text without its carriage returns. -/
def withoutReturns (letters : List Char) : List Char := letters.filter (· != '\r')

theorem withoutReturns_append (first second : List Char) :
    withoutReturns (first ++ second) = withoutReturns first ++ withoutReturns second :=
  List.filter_append ..

theorem withoutReturns_eq_self {letters : List Char} (absent : '\r' ∉ letters) :
    withoutReturns letters = letters := by
  rw [withoutReturns, List.filter_eq_self]
  intro letter member
  exact bne_iff_ne.mpr fun same => absent (same ▸ member)

theorem withoutReturns_withReturns {letters : List Char} (absent : '\r' ∉ letters) :
    withoutReturns (withReturns letters) = letters := by
  induction letters with
  | nil => rfl
  | cons letter rest inductionHypothesis =>
      rw [List.mem_cons, not_or] at absent
      by_cases feed : letter = '\n'
      · rw [feed, withReturns_cons_feed]
        exact congrArg ('\n' :: ·) (inductionHypothesis absent.2)
      · have noReturn : (letter != '\r') = true := bne_iff_ne.mpr (Ne.symm absent.1)
        rw [withReturns_cons_of_ne feed, withoutReturns, List.filter_cons, if_pos noReturn]
        exact congrArg (letter :: ·) (inductionHypothesis absent.2)

/-- Behind each of the carriage returns there is a line feed. -/
theorem head?_of_withReturns_eq {letters front back : List Char} (absent : '\r' ∉ letters)
    (shape : withReturns letters = front ++ '\r' :: back) : back.head? = some '\n' := by
  induction letters generalizing front with
  | nil =>
      have noReturn := congrArg List.length shape
      rw [List.length_append, List.length_cons] at noReturn
      cases noReturn
  | cons letter rest inductionHypothesis =>
      rw [List.mem_cons, not_or] at absent
      by_cases feed : letter = '\n'
      · rw [feed, withReturns_cons_feed] at shape
        match front with
        | [] =>
            obtain ⟨_, backEq⟩ := List.cons.inj shape
            rw [← backEq]
            rfl
        | [_] =>
            obtain ⟨_, further⟩ := List.cons.inj shape
            exact absurd (List.cons.inj further).1 (by decide)
        | _ :: _ :: others =>
            obtain ⟨_, further⟩ := List.cons.inj shape
            exact inductionHypothesis absent.2 (List.cons.inj further).2
      · rw [withReturns_cons_of_ne feed] at shape
        cases front with
        | nil => exact absurd (List.cons.inj shape).1.symm absent.1
        | cons first others => exact inductionHypothesis absent.2 (List.cons.inj shape).2

/-- What stands in front of anything but a line feed is more than carriage returns. -/
theorem withoutReturns_ne_nil {letters front middle back : List Char} (absent : '\r' ∉ letters)
    (shape : withReturns letters = front ++ middle ++ back) (nonempty : middle ≠ [])
    (noFeed : back.head? ≠ some '\n') : withoutReturns middle ≠ [] := by
  intro onlyReturns
  rw [withoutReturns, List.filter_eq_nil_iff] at onlyReturns
  obtain ⟨initial, last, middleEq⟩ := (List.eq_nil_or_concat middle).resolve_left nonempty
  have lastEq : last = '\r' := by
    have isReturn := onlyReturns last (by rw [middleEq]; simp)
    rwa [bne_iff_ne, not_not] at isReturn
  have lastShape : withReturns letters = (front ++ initial) ++ '\r' :: back := by
    rw [shape, middleEq, lastEq]
    simp
  exact noFeed (head?_of_withReturns_eq absent lastShape)

end ScriptLint.Text
