import ScriptLint.Text.Basic

/-!
# Text patterns

A pattern describes runs of characters by alternatives, repetitions and conditions on the place.
Its meaning is the list of the places where a run that begins at a given place may end, the
preferred end first: a choice prefers its first alternative, `many` prefers more repetitions and
`few` prefers fewer. A search reports the first of these ends at the leftmost place that has one.
What follows a place does not depend on the way to it, so of several ways the preferred one is kept.

Places carry the byte position and the character before them, so that a pattern applied to the rest
of a text still sees the edge between two words.
-/

namespace ScriptLint.Text

inductive Pattern where
  /-- The empty run. -/
  | empty
  | one (accepts : Char → Bool)
  /-- A run of the first pattern and then a run of the second. -/
  | sequence (first second : Pattern)
  /-- A run of either pattern, the first preferred. -/
  | choice (preferred other : Pattern)
  /-- Any number of runs, more preferred. -/
  | many (body : Pattern)
  /-- Any number of runs, fewer preferred. -/
  | few (body : Pattern)
  /-- A run that is recorded under a number. -/
  | group (number : Nat) (body : Pattern)
  /-- The empty run at the start of the text. -/
  | atStart
  /-- The empty run at the end of the text. -/
  | atEnd
  /-- The empty run between a word character and something else. -/
  | atWordEdge

/-- A place in a text: the character before it, its byte position and what follows. -/
structure Place where
  before : Option Char
  position : Nat
  rest : List Char

/-- A run of characters with the byte positions of its two ends. -/
structure Span where
  start : Nat
  stop : Nat
  letters : List Char

def Span.size (span : Span) : Nat := span.stop - span.start

namespace Place

def first (letters : List Char) : Place := ⟨none, 0, letters⟩

/-- The place after the next character, which is given with the characters that follow it. -/
def after (place : Place) (letter : Char) (rest : List Char) : Place :=
  ⟨some letter, place.position + letter.utf8Size, rest⟩

/-- Whether exactly one of the two characters around the place is a word character. -/
def isWordEdge (place : Place) : Bool :=
  place.before.any isWord != place.rest.head?.any isWord

def spanTo (start stop : Place) : Span :=
  ⟨start.position, stop.position, takeBytes (stop.position - start.position) start.rest⟩

end Place

/-- A partial match: the place reached and the numbered groups passed, the latest first. -/
structure Reached where
  place : Place
  groups : List (Nat × Span)

namespace Reached

/-- Whether a partial match has come further than another one. -/
def isBeyond (next reached : Reached) : Bool := reached.place.position < next.place.position

/-- The partial matches at new places, the first at each place, and the places seen then. A place is
seen if its distance from the origin is the place of a binary one in the number `seen`. -/
def keepNew (origin : Nat) : List Reached → Nat → List Reached × Nat
  | [], seen => ([], seen)
  | reached :: others, seen =>
      let distance := reached.place.position - origin
      if seen.testBit distance then keepNew origin others seen
      else
        let (kept, seen) := keepNew origin others (seen ||| 1 <<< distance)
        (reached :: kept, seen)

/-- The ends of a step that is taken from each of the partial matches, the first at each place. -/
def advance (step : Reached → List Reached) (origin : Nat) : List Reached → Nat → List Reached
  | [], _ => []
  | reached :: others, seen =>
      let (kept, seen) := keepNew origin (step reached) seen
      kept ++ advance step origin others seen

/-- The ends of at most the given number of repetitions of a step, longer runs first, in front of
other ends. Each repetition has to move on, so as many as there are characters suffice. -/
def repeatMany (step : Reached → List Reached) : Nat → Reached → List Reached → List Reached
  | 0, reached, others => reached :: others
  | count + 1, reached, others =>
      ((step reached).filter (·.isBeyond reached)).foldr (repeatMany step count) (reached :: others)

/-- The ends of at most the given number of repetitions of a step, shorter runs first, in front of
other ends. -/
def repeatFew (step : Reached → List Reached) : Nat → Reached → List Reached → List Reached
  | 0, reached, others => reached :: others
  | count + 1, reached, others =>
      reached :: ((step reached).filter (·.isBeyond reached)).foldr (repeatFew step count) others

end Reached

namespace Pattern

/-- The ends of the runs of a pattern that begin where a partial match has come to, the preferred
end first. The limit is the length of the whole text and bounds every repetition. -/
def ends (limit : Nat) : Pattern → Reached → List Reached
  | empty, reached => [reached]
  | one accepts, reached =>
      match reached.place.rest with
      | [] => []
      | letter :: rest =>
          if accepts letter then [{ reached with place := reached.place.after letter rest }] else []
  | sequence first second, reached =>
      Reached.advance (ends limit second) reached.place.position (ends limit first reached) 0
  | choice preferred other, reached => ends limit preferred reached ++ ends limit other reached
  | many body, reached => Reached.repeatMany (ends limit body) limit reached []
  | few body, reached => Reached.repeatFew (ends limit body) limit reached []
  | group number body, reached =>
      (ends limit body reached).map fun next =>
        { next with groups := (number, reached.place.spanTo next.place) :: next.groups }
  | atStart, reached => if reached.place.position = 0 then [reached] else []
  | atEnd, reached => if reached.place.rest.isEmpty then [reached] else []
  | atWordEdge, reached => if reached.place.isWordEdge then [reached] else []

/-- Runs of the patterns one after the other. -/
def inOrder (patterns : List Pattern) : Pattern := patterns.foldl sequence empty

/-- A run of one of the patterns, earlier ones preferred. -/
def firstOf : List Pattern → Pattern
  | [] => one fun _ => false
  | [pattern] => pattern
  | pattern :: patterns => choice pattern (firstOf patterns)

/-- Exactly these characters. -/
def literal (text : String) : Pattern :=
  inOrder (text.toList.map fun letter => one fun found => found == letter)

/-- One of the words, earlier ones preferred. -/
def wordOf (words : List String) : Pattern := firstOf (words.map literal)

def optional (pattern : Pattern) : Pattern := choice pattern empty

/-- At least one run, more preferred. -/
def repeated (pattern : Pattern) : Pattern := sequence pattern (many pattern)

/-- At least one run, fewer preferred. -/
def repeatedFew (pattern : Pattern) : Pattern := sequence pattern (few pattern)

def noneOf (letters : String) : Pattern := one fun found => !letters.toList.contains found

def oneOf (letters : String) : Pattern := one fun found => letters.toList.contains found

def spaces : Pattern := many (one isSpace)

/-- White space, at least one character. -/
def gap : Pattern := repeated (one isSpace)

/-- An identifier: word characters and dollar signs, at least one. -/
def identifier : Pattern := repeated (one isName)

end Pattern

/-- A match: the whole run and its numbered groups. -/
structure Match where
  whole : Span
  groups : List (Nat × Span)

/-- The run recorded under a number, if the match passed that group. -/
def Match.group? (found : Match) (number : Nat) : Option Span :=
  (found.groups.find? fun entry => entry.1 == number).map (·.2)

namespace Pattern

def matchAt? (pattern : Pattern) (limit : Nat) (place : Place) : Option Match :=
  (ends limit pattern ⟨place, []⟩).head?.map fun reached =>
    ⟨place.spanTo reached.place, reached.groups⟩

/-- The leftmost match at a place or later; `before` and `position` describe the place before the
given characters. -/
def searchFrom (pattern : Pattern) (limit : Nat) (before : Option Char) (position : Nat) :
    List Char → Option Match
  | [] => matchAt? pattern limit ⟨before, position, []⟩
  | letter :: rest =>
      match matchAt? pattern limit ⟨before, position, letter :: rest⟩ with
      | some found => some found
      | none =>
          searchFrom pattern limit (some letter) (position + letter.utf8Size) rest

def search? (pattern : Pattern) (letters : List Char) : Option Match :=
  searchFrom pattern letters.length none 0 letters

def occursIn (pattern : Pattern) (letters : List Char) : Bool := (search? pattern letters).isSome

/-- The matches from a place on, none of which begins before the byte position `free`. After a
match the next one may begin where it ended, and one byte later if it was empty. -/
def searchAllFrom (pattern : Pattern) (limit free : Nat) (before : Option Char) (position : Nat) :
    List Char → List Match
  | [] =>
      if free ≤ position then (matchAt? pattern limit ⟨before, position, []⟩).toList else []
  | letter :: rest =>
      let next := position + letter.utf8Size
      if free ≤ position then
        match matchAt? pattern limit ⟨before, position, letter :: rest⟩ with
        | some found =>
            found :: searchAllFrom pattern limit
              (if position < found.whole.stop then found.whole.stop else position + 1)
              (some letter) next rest
        | none => searchAllFrom pattern limit free (some letter) next rest
      else searchAllFrom pattern limit free (some letter) next rest

/-- The matches of a text from left to right, each beginning at or after the end of the one
before. -/
def searchAll (pattern : Pattern) (letters : List Char) : List Match :=
  searchAllFrom pattern letters.length 0 none 0 letters

end Pattern

end ScriptLint.Text
