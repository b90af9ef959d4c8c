import RunAudit.Log
import RunAudit.Json.Fault
import RunAudit.Xml.Document
import RunAudit.Yaml.Fault

/-!
# Errors

Why a run ends or a check does not pass, by cause. Two causes are findings about the results under audit, a
missing file and a mismatch; all others are errors of the audit itself. `Audit α` is a run that writes log
entries and gives a value or an error.
-/

namespace RunAudit

/-- Why a file cannot be read or written. -/
inductive FileFault where
  | notFound
  | notADirectory
  | isADirectory
  | nameTooLong
  /-- The name holds a null character. -/
  | nullInName
  /-- The content is no UTF-8. -/
  | notText
  | described (text : String)
  deriving DecidableEq, Repr

/-- The wording of a fault with a file. -/
def FileFault.message : FileFault → String
  | .notFound => "No such file or directory (os error 2)"
  | .notADirectory => "Not a directory (os error 20)"
  | .isADirectory => "Is a directory (os error 21)"
  | .nameTooLong => "File name too long (os error 36)"
  | .nullInName => "file name contained an unexpected NUL byte"
  | .notText => "stream did not contain valid UTF-8"
  | .described text => text

/-- Why a value does not decode. -/
inductive DecodeFault where
  | missingField (name : String)
  | wrongType (found expected : String)
  | tooShort (length : Nat) (expected : String)
  | tooLong (length : Nat)
  deriving DecidableEq, Repr

/-- The wording of a fault in decoding. -/
def DecodeFault.message : DecodeFault → String
  | .missingField name => "missing field `" ++ name ++ "`"
  | .wrongType found expected => "invalid type: " ++ found ++ ", expected " ++ expected
  | .tooShort n expected => s!"invalid length {n}, expected {expected}"
  | .tooLong n => s!"invalid length {n}, expected fewer elements in array"

/-- Why a JSON document is refused. -/
inductive JsonFault where
  | reading (fault : Json.Fault)
  | decoding (fault : DecodeFault)
  deriving DecidableEq, Repr

/-- The wording of a refusal. -/
def JsonFault.message : JsonFault → String
  | .reading f => f.message
  | .decoding f => f.message

/-- What a well-written document gets wrong. -/
inductive Malformation where
  | structural (fault : Xml.StructureFault)
  | unnamedCase (attributes : List (String × String))
  /-- An event that is no object, with its text. -/
  | eventNotObject (index : Nat) (text : String)
  | eventWithoutType (index : Nat)
  | eventWithoutResult (index : Nat)
  | described (text : String)
  deriving DecidableEq, Repr

/-- The wording of a malformation. -/
def Malformation.message : Malformation → String
  | .structural f => f.message
  | .unnamedCase attributes => "test case without a `name` attribute: " ++ Text.Quoted.map attributes
  | .eventNotObject i text => s!"event #{i} is not an object: {text}"
  | .eventWithoutType i => s!"event #{i} has no string `eventType`"
  | .eventWithoutResult i => s!"event #{i} of type `didObtainTestingResult` has no `testingResult`"
  | .described text => text

/-- What a request asks for in vain. -/
inductive BadArgument where
  | unknownCheck (name : String) (available : List String)
  | unsupportedFormat (name : String)
  | noInput
  | described (text : String)
  deriving DecidableEq, Repr

/-- The wording of a bad argument. -/
def BadArgument.message : BadArgument → String
  | .unknownCheck name available =>
    "unknown check `" ++ name ++ "`, available checks are " ++ String.intercalate ", " available
  | .unsupportedFormat name => "unsupported output format `" ++ name ++ "`"
  | .noInput => "no input, provide `--file` or pipe a document on stdin"
  | .described text => text

/-- An error. -/
inductive Error where
  | missingFile (path : String)
  | mismatch (subject expected actual : String)
  | xml (fault : Xml.Fault)
  | json (fault : JsonFault)
  | yaml (fault : Yaml.Fault)
  | malformed (what : Malformation)
  | unreadable (fault : FileFault)
  | illegalArguments (what : BadArgument)
  | invalidCompletionsPath (path : String)
  deriving DecidableEq, Repr

namespace Error

/-- The wording of an error. -/
def message : Error → String
  | missingFile path => "Expected to have file at: " ++ path
  | mismatch subject expected actual =>
    subject ++ " did not match, expected `" ++ expected ++ "` but found `" ++ actual ++ "`"
  | xml f => "Error parsing XML document " ++ f.message
  | json f => "Error parsing JSON document " ++ f.message
  | yaml f => "Error parsing YAML document " ++ f.message
  | malformed m => "Malformed document `" ++ m.message ++ "`"
  | unreadable f => "I/O error when reading " ++ f.message
  | illegalArguments a => a.message
  | invalidCompletionsPath path => "The path `" ++ path ++ "` is not a directory to write completions into"

/-- Whether an error is a finding about the results rather than a fault in reading them. -/
def isFailure : Error → Bool
  | missingFile _ | mismatch _ _ _ => true
  | _ => false

end Error

/-- A run that writes log entries and ends in a value or an error. -/
abbrev Audit := ExceptT Error Logged

namespace Audit

variable {α β : Type}

/-- The value or error of a run. -/
def result (x : Audit α) : Except Error α := x.run.value

/-- The entries written by a run. -/
def entries (x : Audit α) : List Entry := x.run.entries

/-- A run that writes nothing. -/
def ofExcept (x : Except Error α) : Audit α := ExceptT.mk (pure x)

/-- A run with the given entries and end. -/
def of (entries : List Entry) (x : Except Error α) : Audit α := ExceptT.mk ⟨x, entries⟩

/-- Writes an entry. -/
def tell (level : Level) (speaker : Speaker) (message : String) : Audit Unit :=
  ExceptT.lift (Logged.tell level speaker message)

@[simp] theorem result_pure (a : α) : (pure a : Audit α).result = .ok a := rfl

@[simp] theorem result_ofExcept (x : Except Error α) : (ofExcept x).result = x := rfl

@[simp] theorem result_of (entries : List Entry) (x : Except Error α) : (of entries x).result = x := rfl

@[simp] theorem result_tell (level : Level) (speaker : Speaker) (message : String) :
    (tell level speaker message).result = .ok () := rfl

/-- The end of a run in two steps is that of the second step, unless the first ends in an error. -/
@[simp]
theorem result_bind (x : Audit α) (f : α → Audit β) :
    (x >>= f).result = x.result.bind fun a => (f a).result := by
  obtain ⟨value, entries⟩ := x
  cases value <;> rfl

@[simp] theorem result_map (f : α → β) (x : Audit α) : (f <$> x).result = x.result.map f := by
  obtain ⟨value, entries⟩ := x
  cases value <;> rfl

end Audit

end RunAudit
