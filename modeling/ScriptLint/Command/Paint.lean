/-!
# Coloured text

Painted text stands between a sequence that switches its attributes on and one that switches all
attributes off. Where the text itself switches them off, they are switched on again. Whether text is
painted at all depends on two flags and three variables of the environment.
-/

namespace ScriptLint.Command

inductive Ink where
  | red
  | green
  | yellow
  | cyan
  deriving DecidableEq, Repr

def Ink.code : Ink → String
  | red => "31"
  | green => "32"
  | yellow => "33"
  | cyan => "36"

structure Paint where
  isBold : Bool := false
  isDimmed : Bool := false
  ink : Option Ink := none
  deriving DecidableEq, Repr

namespace Paint

/-- The codes of the attributes: the weight first, then the colour. -/
def codes (paint : Paint) : List String :=
  (if paint.isBold then ["1"] else []) ++ (if paint.isDimmed then ["2"] else []) ++
    (paint.ink.map Ink.code).toList

/-- The sequence that switches the attributes on. -/
def start (paint : Paint) : String := "\x1b[" ++ ";".intercalate paint.codes ++ "m"

/-- The sequence that switches all attributes off. -/
def stop : String := "\x1b[0m"

def apply (paint : Paint) (isPainted : Bool) (text : String) : String :=
  if isPainted then paint.start ++ text.replace stop (stop ++ paint.start) ++ stop else text

def dimmed : Paint := { isDimmed := true }

def colored (ink : Ink) : Paint := { ink := some ink }

def bold (ink : Ink) : Paint := { isBold := true, ink := some ink }

end Paint

abbrev Environment := List (String × String)

/-- Whether text is painted on an output that is no terminal. The flags decide first, the one for
colours before the other; then `NO_COLOR` forbids colours, `CLICOLOR_FORCE` asks for them, and
`CLICOLOR` may forbid them. An empty `CLICOLOR_FORCE` asks for them only if `CLICOLOR` does not
forbid them. -/
def isPainted (color noColor : Bool) (environment : Environment) : Bool :=
  let force := environment.lookup "CLICOLOR_FORCE"
  if color then true
  else if noColor || (environment.lookup "NO_COLOR").isSome then false
  else if force.any fun value => value ≠ "" ∧ value ≠ "0" then true
  else if environment.lookup "CLICOLOR" = some "0" then false
  else force.any (· ≠ "0")

end ScriptLint.Command
