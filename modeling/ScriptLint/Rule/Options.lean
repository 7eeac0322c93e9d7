/-!
# Rule options

What a rule is told when it runs. Each rule expects one shape of options and refuses the others.
-/

namespace ScriptLint

structure IndentOptions where
  size : Nat := 4
  useSpaces : Bool := true
  deriving DecidableEq, Repr

inductive SemicolonStyle where
  | required
  | forbidden
  deriving DecidableEq, Repr

inductive QuoteStyle where
  | single
  | double
  deriving DecidableEq, Repr

namespace QuoteStyle

def quote : QuoteStyle → Char
  | single => '\''
  | double => '"'

def name : QuoteStyle → String
  | single => "single"
  | double => "double"

def opposite : QuoteStyle → QuoteStyle
  | single => double
  | double => single

end QuoteStyle

inductive RuleOptions where
  /-- The rule is on and has nothing to choose. -/
  | enabled
  | threshold (limit : Nat)
  | indent (options : IndentOptions)
  | semicolons (style : SemicolonStyle)
  | quotes (style : QuoteStyle)
  deriving DecidableEq, Repr

inductive RuleError where
  | invalidOptions (rule expected : String)
  | failed (rule message : String)
  deriving DecidableEq, Repr

def RuleError.message : RuleError → String
  | invalidOptions rule expected => s!"rule '{rule}' expected {expected}"
  | failed rule message => s!"rule '{rule}' failed: {message}"

/-- Why a rule gave no result: it refused, or it broke off, perhaps with a message. -/
inductive Failure where
  | refused (error : RuleError)
  | crashed (message : Option String)
  deriving DecidableEq, Repr

namespace RuleOptions

def threshold? (rule : String) : RuleOptions → Except Failure Nat
  | threshold limit => .ok limit
  | _ => .error (.refused (.invalidOptions rule "a numeric threshold"))

def indent? (rule : String) : RuleOptions → Except Failure IndentOptions
  | indent options => .ok options
  | _ => .error (.refused (.invalidOptions rule "an indent record"))

def semicolons? (rule : String) : RuleOptions → Except Failure SemicolonStyle
  | semicolons style => .ok style
  | _ => .error (.refused (.invalidOptions rule "a semicolon style"))

def quotes? (rule : String) : RuleOptions → Except Failure QuoteStyle
  | quotes style => .ok style
  | _ => .error (.refused (.invalidOptions rule "a quote style"))

end RuleOptions

end ScriptLint
