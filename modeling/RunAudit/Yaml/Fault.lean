import RunAudit.Text.Quoted
import RunAudit.Yaml.Mark

/-!
# Why a text is no expectations document

A text is either not well-formed, or well-formed with a part that does not fit: then the fault has a cause,
the way to the part from the root, and the place where the part stands.
-/

namespace RunAudit.Yaml

/-- A step from a collection to what it holds. -/
inductive Step where
  | field (name : String)
  | item (index : Nat)
  /-- The value of a key that has no name. -/
  | nameless
  deriving DecidableEq, Repr

/-- The wording of a way from the root: fields after points, items in brackets. -/
def wayText (way : List Step) : String :=
  way.foldl (fun text step =>
    let point := if text.isEmpty then "" else "."
    match step with
    | .field name => text ++ point ++ name
    | .item index => text ++ s!"[{index}]"
    | .nameless => text ++ point ++ "?") ""

/-- What may stand where something else was found. -/
inductive Expected where
  | record (name : String)
  | sequence
  | string
  | count
  | fieldName
  | truthValue
  | integer
  | fraction
  | null
  deriving DecidableEq, Repr

/-- The wording of what may stand. -/
def Expected.text : Expected → String
  | .record name => "struct " ++ name
  | .sequence => "a sequence"
  | .string => "a string"
  | .count => "usize"
  | .fieldName => "field identifier"
  | .truthValue => "a boolean"
  | .integer => "an integer"
  | .fraction => "a float"
  | .null => "null"

/-- The cause of a misfit. -/
inductive Cause where
  | unknownField (name : String) (known : List String)
  | repeatedField (name : String)
  | wrongType (found : String) (expected : Expected)
  | wrongValue (text : String) (expected : Expected)
  deriving DecidableEq, Repr

/-- The wording of a cause. -/
def Cause.message : Cause → String
  | .unknownField name known =>
    "unknown field `" ++ name ++ "`, expected one of " ++
      String.intercalate ", " (known.map fun k => "`" ++ k ++ "`")
  | .repeatedField name => "duplicate field `" ++ name ++ "`"
  | .wrongType found expected => "invalid type: " ++ found ++ ", expected " ++ expected.text
  | .wrongValue text expected =>
    "invalid value: string " ++ Text.Quoted.quote text ++ ", expected " ++ expected.text

/-- A part that does not fit. -/
structure Misfit where
  cause : Cause
  way : List Step
  place : Mark
  deriving DecidableEq, Repr

/-- The wording of a misfit. -/
def Misfit.message (m : Misfit) : String :=
  (if m.way.isEmpty then "" else wayText m.way ++ ": ") ++ m.cause.message ++ m.place.suffix

/-- Why a text is no expectations document. -/
inductive Fault where
  | illFormed
  | misfit (m : Misfit)
  deriving DecidableEq, Repr

/-- The wording of a fault. -/
def Fault.message : Fault → String
  | .illFormed => "not well-formed"
  | .misfit m => m.message

end RunAudit.Yaml
