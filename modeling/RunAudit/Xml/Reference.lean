import RunAudit.Xml.Fault
import RunAudit.Text.Digit
import RunAudit.Text.Utf8

/-!
# Character references

Values of attributes write some characters as references: five names, and code points in decimal or
hexadecimal. `escape` writes every character that means something to markup by its name; `unescape` reads
references back.
-/

namespace RunAudit.Xml

open RunAudit.Text

/-- The character of a named reference. -/
def named? : List Char → Option Char
  | ['l', 't'] => some '<'
  | ['g', 't'] => some '>'
  | ['a', 'm', 'p'] => some '&'
  | ['a', 'p', 'o', 's'] => some '\''
  | ['q', 'u', 'o', 't'] => some '"'
  | _ => none

/-- The first octet of a character as a character of its own. -/
def leadCharacter (c : Char) : Char := Char.ofNat (Utf8.leadOctet c)

/-- The code point of a numeric reference, from after its `#`. -/
def codePoint (body : List Char) : Except ReferenceFault Nat :=
  match body with
  | 'x' :: digits =>
    if 6 < Utf8.size digits then .error .tooManyHexDigits
    else (Digit.number 16 digits).mapError fun c => .badHexDigit (leadCharacter c)
  | digits =>
    if 7 < Utf8.size digits then .error .tooManyDigits
    else (Digit.number 10 digits).mapError fun c => .badDigit (leadCharacter c)

/-- The character of a reference whose `&` and `;` stand at the given places. -/
def resolve (start stop : Nat) (body : List Char) : Except ReferenceFault Char :=
  match body with
  | '#' :: digits =>
    match codePoint digits with
    | .error f => .error f
    | .ok code =>
      if code = 0 then .error (.nullCharacter start stop)
      else if h : code.isValidChar then .ok (Char.ofNatAux code h)
      else .error (.noCharacter code)
  | name =>
    match named? name with
    | some c => .ok c
    | none => .error (.unknownName (start + 1) stop (String.ofList name))

/-- Whether a character ends the body of a reference. -/
def endsReference (c : Char) : Bool := c = '&' || c = ';'

/-- Reads references from a place in a value of `total` octets, after the text read (backwards). -/
def unescapeFrom (total : Nat) (read : List Char) (place : Nat) (s : List Char) :
    Except ReferenceFault (List Char) :=
  match s with
  | [] => .ok read.reverse
  | c :: rest =>
    if c ≠ '&' then unescapeFrom total (c :: read) (place + c.utf8Size) rest
    else
      let body := rest.takeWhile fun c => !endsReference c
      match _h : rest.dropWhile fun c => !endsReference c with
      | ';' :: after =>
        let stop := place + 1 + Utf8.size body
        match resolve place stop body with
        | .ok c => unescapeFrom total (c :: read) (stop + 1) after
        | .error f => .error f
      | _ => .error (.unterminated place total)
termination_by s.length
decreasing_by
  · simp
  · have := (List.dropWhile_sublist (l := rest) fun c => !endsReference c).length_le
    rw [_h] at this
    simp at this ⊢
    omega

/-- The text that a value stands for. -/
def unescape (value : List Char) : Except ReferenceFault (List Char) :=
  unescapeFrom (Utf8.size value) [] 0 value

/-- How a character is written in a value or in text. -/
def escapeChar : Char → List Char
  | '<' => ['&', 'l', 't', ';']
  | '>' => ['&', 'g', 't', ';']
  | '&' => ['&', 'a', 'm', 'p', ';']
  | '\'' => ['&', 'a', 'p', 'o', 's', ';']
  | '"' => ['&', 'q', 'u', 'o', 't', ';']
  | c => [c]

/-- A text with references for the characters that mean something to markup. -/
def escape (text : List Char) : List Char := text.flatMap escapeChar

end RunAudit.Xml
