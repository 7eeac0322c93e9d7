/-!
# Arguments

The arguments name a command, with options in front of it and behind it. An option has a long name
and perhaps a letter. Its value stands behind an equals sign, directly behind the letter, or in the
next word; letters without values may share a word. Two hyphens end the options. The shared options
may be given once in front of the command and once behind it, and the latter counts.
-/

namespace ScriptLint.Command

inductive OutputFormat where
  | human
  | json
  | github
  deriving DecidableEq, Repr

def OutputFormat.ofName? (name : List Char) : Option OutputFormat :=
  match String.ofList name with
  | "human" => some human
  | "json" => some json
  | "github" => some github
  | _ => none

inductive Flag where
  | config
  | color
  | noColor
  | quiet
  | format
  | denyWarnings
  | help
  | version
  deriving DecidableEq, Repr

namespace Flag

def name : Flag → String
  | config => "config"
  | color => "color"
  | noColor => "no-color"
  | quiet => "quiet"
  | format => "format"
  | denyWarnings => "deny-warnings"
  | help => "help"
  | version => "version"

def letter? : Flag → Option Char
  | config => some 'c'
  | quiet => some 'q'
  | format => some 'f'
  | help => some 'h'
  | version => some 'V'
  | _ => none

def hasValue : Flag → Bool
  | config | format => true
  | _ => false

/-- The options that may be given in front of the command and behind it. -/
def shared : List Flag := [config, color, noColor, quiet, help]

end Flag

/-- Why there is nothing to carry out. -/
inductive Interruption where
  | help
  | misuse
  deriving DecidableEq, Repr

/-- What is given in front of the command, or behind it. -/
structure Given where
  flags : List Flag := []
  configPath : Option (List Char) := none
  format : Option OutputFormat := none
  operands : List (List Char) := []
  deriving DecidableEq, Repr

namespace Given

def has (given : Given) (flag : Flag) : Bool := given.flags.contains flag

/-- Adds an option without a value. No option is given twice. -/
def addFlag (given : Given) (flag : Flag) : Except Interruption Given :=
  if flag = .help ∨ flag = .version then .error .help
  else if given.has flag then .error .misuse
  else .ok { given with flags := flag :: given.flags }

/-- Adds an option with a value, which must not be empty. -/
def addValue (given : Given) (flag : Flag) (value : List Char) : Except Interruption Given := do
  let given ← given.addFlag flag
  if value.isEmpty then .error .misuse
  else if flag = .config then .ok { given with configPath := some value }
  else
    match OutputFormat.ofName? value with
    | some format => .ok { given with format := some format }
    | none => .error .misuse

def addOperand (given : Given) (word : List Char) : Except Interruption Given :=
  if word.isEmpty then .error .misuse else .ok { given with operands := given.operands ++ [word] }

/-- Whether options are given that exclude each other. -/
def isContradictory (given : Given) : Bool := given.has .color && given.has .noColor

end Given

/-- Whether a word is an option, a group of letters or the end of the options. -/
def isOptionWord : List Char → Bool
  | '-' :: _ :: _ => true
  | _ => false

/-- Adds the options that letters stand for. An option that still lacks its value is returned. -/
def addLetters (known : List Flag) : Given → List Char → Except Interruption (Given × Option Flag)
  | given, [] => .ok (given, none)
  | given, letter :: rest =>
      match known.find? fun flag => flag.letter? == some letter with
      | none => .error .misuse
      | some flag =>
          if !flag.hasValue then do addLetters known (← given.addFlag flag) rest
          else
            match rest with
            | [] => .ok (given, some flag)
            | '=' :: value => do .ok (← given.addValue flag value, none)
            | _ => do .ok (← given.addValue flag rest, none)

/-- Adds the option of a word behind its two hyphens. An option that still lacks its value is
returned. -/
def addLong (known : List Flag) (given : Given) (word : List Char) :
    Except Interruption (Given × Option Flag) :=
  let name := word.takeWhile (· != '=')
  match known.find? fun flag => flag.name == String.ofList name, word.drop name.length with
  | none, _ => .error .misuse
  | some flag, [] =>
      if flag.hasValue then .ok (given, some flag) else do .ok (← given.addFlag flag, none)
  | some flag, _ :: value =>
      if flag.hasValue then do .ok (← given.addValue flag value, none) else .error .misuse

def addOptions (known : List Flag) (given : Given) (word : List Char) :
    Except Interruption (Given × Option Flag) :=
  match word with
  | '-' :: '-' :: long => addLong known given long
  | _ => addLetters known given word.tail

/-- What becomes of the words that are no options: the first one ends the reading, they are refused,
or they are operands. -/
inductive OperandRule where
  | stop
  | refuse
  | collect
  deriving DecidableEq, Repr

/-- Reads words. The words left over are returned. -/
def readWords (known : List Flag) (rule : OperandRule) :
    Given → List (List Char) → Except Interruption (Given × List (List Char))
  | given, [] => .ok (given, [])
  | given, word :: rest =>
      if word = ['-', '-'] then
        if rule = .collect then do .ok (← rest.foldlM Given.addOperand given, [])
        else if rest.isEmpty then .ok (given, [])
        else .error .misuse
      else if isOptionWord word then do
        let (given, pending) ← addOptions known given word
        match pending with
        | none => readWords known rule given rest
        | some flag =>
            match rest with
            | [] => .error .misuse
            | value :: others =>
                if isOptionWord value then .error .misuse
                else readWords known rule (← given.addValue flag value) others
      else
        match rule with
        | .stop => .ok (given, word :: rest)
        | .refuse => .error .misuse
        | .collect => do readWords known rule (← given.addOperand word) rest

inductive Action where
  | lint (paths : List (List Char)) (denyWarnings : Bool)
  | rules
  deriving DecidableEq, Repr

structure Invocation where
  action : Action
  format : OutputFormat := .human
  configPath : Option (List Char) := none
  color : Bool := false
  noColor : Bool := false
  quiet : Bool := false
  deriving DecidableEq, Repr

/-- What is asked for when options are given in front of the command and behind it. -/
def Invocation.ofGiven (action : Action) (before behind : Given) : Invocation where
  action
  format := behind.format.getD .human
  configPath := behind.configPath.or before.configPath
  color := before.has .color || behind.has .color
  noColor := before.has .noColor || behind.has .noColor
  quiet := before.has .quiet || behind.has .quiet

def defaultPaths : List (List Char) := [['.']]

def readCommand (name : String) (before : Given) (words : List (List Char)) :
    Except Interruption Invocation := do
  match name with
  | "lint" => do
      let (behind, _) ← readWords (.format :: .denyWarnings :: Flag.shared) .collect {} words
      if before.isContradictory || behind.isContradictory then .error .misuse
      else
        let paths := if behind.operands.isEmpty then defaultPaths else behind.operands
        .ok (.ofGiven (.lint paths (behind.has .denyWarnings)) before behind)
  | "rules" => do
      let (behind, _) ← readWords (.format :: Flag.shared) .refuse {} words
      if before.isContradictory || behind.isContradictory then .error .misuse
      else .ok (.ofGiven .rules before behind)
  | "help" => .error .help
  | _ => .error .misuse

def readArguments (words : List (List Char)) : Except Interruption Invocation := do
  let (before, rest) ← readWords (.version :: Flag.shared) .stop {} words
  match rest with
  | [] => .error .misuse
  | name :: words => readCommand (String.ofList name) before words

end ScriptLint.Command
