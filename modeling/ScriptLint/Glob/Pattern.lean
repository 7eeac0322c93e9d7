/-!
# Glob patterns

A glob pattern matches a whole path. `?` stands for any one character and `*` for any run, slashes
included; `**` is a component of its own and stands for any number of whole components, or at the
end for the rest of the path; brackets hold the characters that may, or behind `!` may not, stand at
a place. Other characters stand for themselves.
-/

namespace ScriptLint.Glob

/-- A member of a bracket: the characters from one to another. -/
structure Range where
  low : Char
  high : Char
  deriving DecidableEq, Repr

inductive Token where
  | letter (value : Char)
  | anyLetter
  | anyRun
  | anyComponents
  | within (ranges : List Range)
  | except (ranges : List Range)
  deriving DecidableEq, Repr

inductive Fault where
  | manyStars
  | starsInComponent
  | openBracket
  deriving DecidableEq, Repr

def Fault.message : Fault → String
  | manyStars => "wildcards are either regular `*` or recursive `**`"
  | starsInComponent => "recursive wildcards must form a single path component"
  | openBracket => "invalid range pattern"

/-- A fault with the number of the character at which it was noticed. -/
structure Refusal where
  fault : Fault
  position : Nat
  deriving DecidableEq, Repr

def Refusal.message (refusal : Refusal) : String :=
  let position := refusal.position
  s!"Pattern syntax error near position {position}: {refusal.fault.message}"

structure Pattern where
  tokens : List Token
  /-- The pattern has a `**`. -/
  isRecursive : Bool
  deriving DecidableEq, Repr

/-- The members of a bracket. Three characters with a hyphen in the middle are a range. -/
def rangesOf : List Char → List Range
  | low :: '-' :: high :: rest => ⟨low, high⟩ :: rangesOf rest
  | letter :: rest => ⟨letter, letter⟩ :: rangesOf rest
  | [] => []

/-- The characters of a bracket and what follows it. The first character belongs to the bracket even
if it is a closing one. -/
def bracket? : List Char → Option (List Char × List Char)
  | [] => none
  | first :: rest =>
      let inside := rest.takeWhile (· != ']')
      match rest.drop inside.length with
      | _ :: behind => some (first :: inside, behind)
      | [] => none

/-- Reads a bracket behind its opening character: its token, its length and what follows it. -/
def readBracket? (letters : List Char) : Option (Token × Nat × List Char) :=
  match letters with
  | '!' :: rest =>
      (bracket? rest).map fun (inside, behind) =>
        (.except (rangesOf inside), inside.length + 2, behind)
  | _ =>
      (bracket? letters).map fun (inside, behind) =>
        (.within (rangesOf inside), inside.length + 1, behind)

/-- Whether a place may begin a `**`: the start of the pattern or behind a slash. -/
def mayBeginComponent (before : Option Char) : Bool := before.all (· == '/')

/-- Puts a `**` behind the tokens, which come last first, unless it would repeat one that is not the
first token. -/
def pushComponents (tokens : List Token) : List Token :=
  match tokens with
  | .anyComponents :: _ :: _ => tokens
  | _ => .anyComponents :: tokens

/-- Reads the rest of a pattern. `position` counts the characters passed, `before` is the last of
them, and the tokens read so far come last first. Each step passes a character, so as many steps as
there are characters suffice. -/
def readTokens : Nat → Nat → Option Char → List Token → List Char → Except Refusal (List Token)
  | 0, _, _, tokens, _ => .ok tokens.reverse
  | _, _, _, tokens, [] => .ok tokens.reverse
  | steps + 1, position, before, tokens, letter :: rest =>
      if letter = '?' then
        readTokens steps (position + 1) (some letter) (.anyLetter :: tokens) rest
      else if letter = '*' then
        let stars := (rest.takeWhile (· == '*')).length + 1
        let behind := rest.drop (stars - 1)
        if stars = 1 then
          readTokens steps (position + 1) (some letter) (.anyRun :: tokens) rest
        else if stars ≠ 2 then .error ⟨.manyStars, position + 2⟩
        else if !mayBeginComponent before then .error ⟨.starsInComponent, position - 1⟩
        else
          match behind with
          | [] => .ok (pushComponents tokens).reverse
          | '/' :: behind =>
              readTokens steps (position + 3) (some '/') (pushComponents tokens) behind
          | _ => .error ⟨.starsInComponent, position + 2⟩
      else if letter = '[' then
        match readBracket? rest with
        | some (token, size, behind) =>
            readTokens steps (position + 1 + size) (some ']') (token :: tokens) behind
        | none => .error ⟨.openBracket, position⟩
      else readTokens steps (position + 1) (some letter) (.letter letter :: tokens) rest

def Pattern.ofText (letters : List Char) : Except Refusal Pattern :=
  (readTokens letters.length 0 none [] letters).map fun tokens =>
    { tokens, isRecursive := tokens.contains .anyComponents }

/-- The characters of a pattern that stands for one text only. -/
def Pattern.literal? (pattern : Pattern) : Option (List Char) :=
  pattern.tokens.mapM fun token =>
    match token with
    | .letter value => some value
    | _ => none

/-- A text in which the characters with a meaning in patterns stand for themselves. -/
def escape (letters : List Char) : List Char :=
  letters.flatMap fun letter =>
    if letter == '?' || letter == '*' || letter == '[' || letter == ']' then ['[', letter, ']']
    else [letter]

end ScriptLint.Glob
