import RunAudit.Text.Utf8

/-!
# Why a text is not a document

The causes of a syntax fault with their wording, and its place: the line from one, and the octets read
in that line.
-/

namespace RunAudit.Json

/-- What a text ends inside of. -/
inductive Construct where
  | value
  | list
  | object
  | string
  deriving DecidableEq, Repr

/-- The cause of a syntax fault. -/
inductive Cause where
  | endOfText (inside : Construct)
  | expectedValue
  | expectedIdent
  | expectedColon
  | expectedCommaOrBracket
  | expectedCommaOrBrace
  | trailingComma
  | trailingCharacters
  | keyNotString
  | invalidNumber
  | numberOutOfRange
  | invalidEscape
  | unfinishedEscape
  | loneSurrogate
  | controlCharacter
  | tooDeep
  /-- A value of another kind stands where a list is expected. -/
  | notList (found : String)
  deriving DecidableEq, Repr

namespace Cause

/-- The wording of a cause. -/
def message : Cause → String
  | .endOfText .value => "EOF while parsing a value"
  | .endOfText .list => "EOF while parsing a list"
  | .endOfText .object => "EOF while parsing an object"
  | .endOfText .string => "EOF while parsing a string"
  | .expectedValue => "expected value"
  | .expectedIdent => "expected ident"
  | .expectedColon => "expected `:`"
  | .expectedCommaOrBracket => "expected `,` or `]`"
  | .expectedCommaOrBrace => "expected `,` or `\x7d`"
  | .trailingComma => "trailing comma"
  | .trailingCharacters => "trailing characters"
  | .keyNotString => "key must be a string"
  | .invalidNumber => "invalid number"
  | .numberOutOfRange => "number out of range"
  | .invalidEscape => "invalid escape"
  | .unfinishedEscape => "unexpected end of hex escape"
  | .loneSurrogate => "lone leading surrogate in hex escape"
  | .controlCharacter => "control character (\\u0000-\\u001F) found while parsing a string"
  | .tooDeep => "recursion limit exceeded"
  | .notList found => s!"invalid type: {found}, expected a sequence"

end Cause

/-- A place in a text: the line, and the octets before it in that line. -/
structure Position where
  line : Nat
  column : Nat
  deriving DecidableEq, Repr

namespace Position

/-- Moves on over a text by a number of octets. -/
def advance (p : Position) : (octets : Nat) → List Char → Position
  | _, [] => p
  | octets, c :: rest =>
    if octets = 0 then p
    else if c = '\n' then advance ⟨p.line + 1, 0⟩ (octets - 1) rest
    else if octets < c.utf8Size then ⟨p.line, p.column + octets⟩
    else advance ⟨p.line, p.column + c.utf8Size⟩ (octets - c.utf8Size) rest

/-- The place after a number of octets of a text. -/
def ofOffset (text : List Char) (octets : Nat) : Position := advance ⟨1, 0⟩ octets text

end Position

/-- A syntax fault at its place. -/
structure Fault where
  cause : Cause
  position : Position
  deriving DecidableEq, Repr

/-- The wording of a fault. -/
def Fault.message (f : Fault) : String :=
  s!"{f.cause.message} at line {f.position.line} column {f.position.column}"

/-- A fault seen while reading: its cause, what is left to read, and how many octets of that were looked
at when it was seen. -/
structure Trouble where
  cause : Cause
  rest : List Char
  ahead : Nat

namespace Trouble

/-- A fault at the next character, which counts as read. -/
def next (cause : Cause) (rest : List Char) : Trouble := ⟨cause, rest, 1⟩

/-- A fault before the next character. -/
def before (cause : Cause) (rest : List Char) : Trouble := ⟨cause, rest, 0⟩

/-- The fault at its place in the text. -/
def fault (text : List Char) (t : Trouble) : Fault :=
  let size := Text.Utf8.size text
  ⟨t.cause, Position.ofOffset text (min size (size - Text.Utf8.size t.rest + t.ahead))⟩

end Trouble

end RunAudit.Json
