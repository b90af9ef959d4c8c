import RunAudit.Yaml.Mark

/-!
# Tokens

A text is read as tokens: indicators, scalars with their properties, and the bounds of block collections, which
indentation alone shows.
-/

namespace RunAudit.Yaml

/-- How a scalar is written. -/
inductive ScalarStyle where
  | plain
  | single
  | double
  | literal
  | folded
  deriving DecidableEq, Repr

/-- What a token is. -/
inductive Lexeme where
  | version (major minor : Nat)
  | tagHandle (handle : String) (replacement : String)
  | documentStart
  | documentEnd
  | streamEnd
  | blockSequenceStart
  | blockMappingStart
  | blockEnd
  | flowSequenceStart
  | flowSequenceEnd
  | flowMappingStart
  | flowMappingEnd
  | blockEntry
  | flowEntry
  | key
  | value
  | alias (name : String)
  | anchor (name : String)
  | tag (handle : String) (suffix : String)
  | scalar (text : String) (style : ScalarStyle)
  deriving DecidableEq, Repr

/-- A token and the places where it begins and ends. -/
structure Token where
  lexeme : Lexeme
  start : Mark
  stop : Mark
  deriving DecidableEq, Repr

end RunAudit.Yaml
