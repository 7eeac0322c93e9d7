import ScriptLint.Glob.Pattern

/-!
# Matching paths

`matchTokens` says which paths the tokens of a pattern match: every way to end a run is tried.
Trying them one after the other takes too long for a pattern with many runs, so `Pattern.accepts`
goes through the tokens from the last to the first and marks the rests of the path that are matched.
The main statement is `Pattern.accepts_eq`: the two agree.
-/

namespace ScriptLint.Glob

def Range.holds (range : Range) (letter : Char) : Bool :=
  range.low ≤ letter && letter ≤ range.high

namespace Token

def accepts (token : Token) (letter : Char) : Bool :=
  match token with
  | .letter value => value == letter
  | anyLetter => true
  | within ranges => ranges.any (·.holds letter)
  | except ranges => !ranges.any (·.holds letter)
  | anyRun | anyComponents => false

/-- The characters behind which a token for a run may end. -/
def stop? : Token → Option (Char → Bool)
  | anyRun => some fun _ => true
  | anyComponents => some fun letter => letter == '/'
  | _ => none

end Token

/-- What may be left of a path behind a run that is not empty: what stands behind a character of a
class, or nothing. -/
def restsBehind (test : Char → Bool) : List Char → List (List Char)
  | [] => [[]]
  | letter :: rest =>
      if test letter then rest :: restsBehind test rest else restsBehind test rest

def matchTokens : List Token → List Char → Bool
  | [], path => path.isEmpty
  | token :: tokens, path =>
      match token.stop? with
      | some test =>
          matchTokens tokens path || (restsBehind test path).any (matchTokens tokens)
      | none =>
          match path with
          | [] => false
          | letter :: rest => token.accepts letter && matchTokens tokens rest

/-! ## Marking the rests of a path -/

/-- The rests of a path, the whole path first and the empty one last. -/
def rests : List Char → List (List Char)
  | [] => [[]]
  | letter :: rest => (letter :: rest) :: rests rest

/-- Marks the rests of a path that have a marked rest behind a character of a class, or at the
end. -/
def markBehind (test : Char → Bool) : List Char → List Bool → List Bool
  | letter :: rest, _ :: marks =>
      let later := markBehind test rest marks
      (test letter && marks.headD false || later.headD false) :: later
  | _, marks => marks

/-- Marks the rests of a path that begin with a character of a class and a marked rest behind it. -/
def markNext (test : Char → Bool) : List Char → List Bool → List Bool
  | letter :: rest, _ :: marks =>
      (test letter && marks.headD false) :: markNext test rest marks
  | _, _ => [false]

/-- Marks the rests of a path that the tokens match. -/
def marks : List Token → List Char → List Bool
  | [], path => (rests path).map List.isEmpty
  | token :: tokens, path =>
      let behind := marks tokens path
      match token.stop? with
      | some test => List.zipWith (· || ·) behind (markBehind test path behind)
      | none => markNext token.accepts path behind

def Pattern.accepts (pattern : Pattern) (path : List Char) : Bool :=
  (marks pattern.tokens path).headD false

/-! ## The marks are right -/

theorem headD_map_rests (mark : List Char → Bool) (path : List Char) :
    ((rests path).map mark).headD false = mark path := by
  cases path <;> rfl

/-- Marking behind a run agrees with trying every end of the run. -/
theorem markBehind_rests (test : Char → Bool) (mark : List Char → Bool) (path : List Char) :
    markBehind test path ((rests path).map mark) =
      (rests path).map fun rest => (restsBehind test rest).any mark := by
  induction path with
  | nil => simp [markBehind, rests, restsBehind]
  | cons letter rest hypothesis =>
      simp only [rests, List.map_cons, markBehind, hypothesis, headD_map_rests, restsBehind]
      cases test letter <;> simp

/-- Marking the next rests agrees with reading one character. -/
theorem markNext_rests (test : Char → Bool) (mark : List Char → Bool) (path : List Char) :
    markNext test path ((rests path).map mark) =
      (rests path).map fun rest =>
        match rest with
        | [] => false
        | letter :: behind => test letter && mark behind := by
  induction path with
  | nil => rfl
  | cons letter rest hypothesis =>
      simp only [rests, List.map_cons, markNext, hypothesis, headD_map_rests]

/-- The marks of a path are what `matchTokens` says about its rests. -/
theorem marks_eq (tokens : List Token) (path : List Char) :
    marks tokens path = (rests path).map (matchTokens tokens) := by
  induction tokens with
  | nil => rfl
  | cons token tokens hypothesis =>
      simp only [marks, hypothesis]
      cases stop : token.stop? with
      | some test =>
          simp only [markBehind_rests, List.zipWith_map, List.zipWith_self]
          exact List.map_congr_left fun rest _ => by simp only [matchTokens, stop]
      | none =>
          simp only [markNext_rests]
          exact List.map_congr_left fun rest _ => by
            cases rest <;> simp only [matchTokens, stop]

/-- A pattern accepts the paths that its tokens match. -/
theorem Pattern.accepts_eq (pattern : Pattern) (path : List Char) :
    pattern.accepts path = matchTokens pattern.tokens path := by
  rw [Pattern.accepts, marks_eq, headD_map_rests]

end ScriptLint.Glob
