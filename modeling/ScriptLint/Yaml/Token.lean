import ScriptLint.Yaml.Tag

/-!
# YAML tokens

The tokens of a text are its indicators and scalars, and besides them the start and the end of each
block collection, which are written by indentation alone.
-/

namespace ScriptLint.Yaml

inductive Token where
  | documentStart
  | documentEnd
  | version (major minor : Nat)
  | handle (handle : List Char) (beginning : List Octet)
  | blockSequence
  | blockMapping
  | blockEnd
  | blockEntry
  | flowSequence
  | flowSequenceEnd
  | flowMapping
  | flowMappingEnd
  | flowEntry
  | key
  | value
  | alias (name : List Char)
  | anchor (name : List Char)
  | tag (tag : TagShorthand)
  | scalar (isPlain : Bool) (letters : List Char)
  deriving DecidableEq, Repr, Inhabited

/-- Whether a token stands in front of the start of a document. -/
def Token.isDirective : Token → Bool
  | version _ _ | handle _ _ => true
  | _ => false

end ScriptLint.Yaml
