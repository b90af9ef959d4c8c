import RunAudit.Text.Quoted

/-!
# Why a text is no markup

The causes of faults in markup, attributes and character references, with their wording. Places are
counted in octets: within a tag for attributes, within a value for references.
-/

namespace RunAudit.Xml

/-- What a text ends inside of, or what starts wrongly. -/
inductive Construct where
  | bang
  | comment
  | cdata
  | doctype
  | instruction
  | element
  deriving DecidableEq, Repr

/-- The name of a construct. -/
def Construct.name : Construct → String
  | .bang => "Bang"
  | .comment => "Comment"
  | .cdata => "CData"
  | .doctype => "DOCTYPE"
  | .instruction => "XmlDecl"
  | .element => "Element"

/-- A fault in an attribute of a tag. -/
inductive AttributeFault where
  | expectedEquals (position : Nat)
  | expectedValue (position : Nat)
  | unquotedValue (position : Nat)
  | missingQuote (position : Nat) (quote : Char)
  | repeatedKey (position previous : Nat)
  deriving DecidableEq, Repr

/-- The wording of a fault in an attribute. -/
def AttributeFault.message : AttributeFault → String
  | .expectedEquals p => s!"position {p}: attribute key must be directly followed by `=` or space"
  | .expectedValue p => s!"position {p}: `=` must be followed by an attribute value"
  | .unquotedValue p => s!"position {p}: attribute value must be enclosed in `\"` or `'`"
  | .missingQuote p q =>
    s!"position {p}: missing closing quote `" ++ String.singleton q ++ "` in attribute value"
  | .repeatedKey p q => s!"position {p}: duplicated attribute, previous declaration at position {q}"

/-- A fault in a character reference. -/
inductive ReferenceFault where
  | unterminated (start stop : Nat)
  | unknownName (start stop : Nat) (name : String)
  | nullCharacter (start stop : Nat)
  | tooManyHexDigits
  | tooManyDigits
  | badHexDigit (digit : Char)
  | badDigit (digit : Char)
  | noCharacter (code : Nat)
  deriving DecidableEq, Repr

/-- The wording of a fault in a character reference. -/
def ReferenceFault.message : ReferenceFault → String
  | .unterminated a b => s!"Error while escaping character at range {a}..{b}: Cannot find ';' after '&'"
  | .unknownName a b name =>
    s!"Error while escaping character at range {a}..{b}: Unrecognized escape symbol: " ++ Text.Quoted.quote name
  | .nullCharacter a b =>
    s!"Error while escaping character at range {a}..{b}: Null character entity not allowed"
  | .tooManyHexDigits => "Cannot convert hexadecimal to utf8"
  | .tooManyDigits => "Cannot convert decimal to utf8"
  | .badHexDigit c => "'" ++ String.singleton c ++ "' is not a valid hexadecimal character"
  | .badDigit c => "'" ++ String.singleton c ++ "' is not a valid decimal character"
  | .noCharacter code => s!"'{code}' is not a valid codepoint"

/-- A fault in a document. -/
inductive Fault where
  | unclosed (construct : Construct)
  /-- A markup declaration that starts with another octet than those known, as a Latin-1 character. -/
  | unknownDeclaration (symbol : Char)
  | emptyDoctype
  | mismatchedClose (expected found : String)
  | attribute (fault : AttributeFault)
  | reference (fault : ReferenceFault)
  deriving DecidableEq, Repr

/-- The wording of a fault. -/
def Fault.message : Fault → String
  | .unclosed c => "Unexpected EOF during reading " ++ c.name
  | .unknownDeclaration c =>
    "Only Comment (`--`), CDATA (`[CDATA[`) and DOCTYPE (`DOCTYPE`) nodes can start with a '!', but symbol `" ++
      String.singleton c ++ "` found"
  | .emptyDoctype => "DOCTYPE declaration must not be empty"
  | .mismatchedClose expected found => "Expecting </" ++ expected ++ "> found </" ++ found ++ ">"
  | .attribute f => "error while parsing attribute: " ++ f.message
  | .reference f => f.message

end RunAudit.Xml
