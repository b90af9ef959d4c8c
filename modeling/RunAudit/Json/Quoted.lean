import RunAudit.Json.Fault
import RunAudit.Json.Read
import RunAudit.Text.Digit

/-!
# Strings

Reading and writing the characters between double quotes. Written strings escape the quote, the
backslash and the control characters below the space; `bodyText` writes what `body` reads.
-/

namespace RunAudit.Json

/-- Four hexadecimal digits. Four octets are looked at together. -/
def hexDigits (s : List Char) : Except Trouble (Read Nat s) :=
  match s with
  | a :: b :: c :: d :: rest =>
    match Text.Digit.number 16 [a, b, c, d] with
    | .ok n => .ok ⟨n, rest, by simp; omega⟩
    | .error _ => .error ⟨.invalidEscape, a :: b :: c :: d :: rest, 4⟩
  | s => .error (if 4 ≤ Text.Utf8.size s then ⟨.invalidEscape, s, 4⟩ else .before (.endOfText .string) [])

/-- The second half of a pair of escapes whose first half is a leading surrogate. -/
def trailingSurrogate (lead : Nat) (s : List Char) : Except Trouble (Read Char s) :=
  match s with
  | [] => .error (.before (.endOfText .string) [])
  | ['\\'] => .error (.before (.endOfText .string) [])
  | '\\' :: 'u' :: r =>
    match hexDigits r with
    | .error t => .error t
    | .ok low =>
      if 0xDC00 ≤ low.value ∧ low.value ≤ 0xDFFF then
        let c := Char.ofNat (0x10000 + (lead - 0xD800) * 0x400 + (low.value - 0xDC00))
        .ok ⟨c, low.rest, Nat.le_trans low.shorter (by simp; omega)⟩
      else .error (.before .loneSurrogate low.rest)
  | '\\' :: r => .error (.next .unfinishedEscape r)
  | s => .error (.next .unfinishedEscape s)

/-- A numeric escape after its `u`. -/
def numericEscape (s : List Char) : Except Trouble (Read Char s) :=
  match hexDigits s with
  | .error t => .error t
  | .ok n =>
    if 0xDC00 ≤ n.value ∧ n.value ≤ 0xDFFF then .error (.before .loneSurrogate n.rest)
    else if 0xD800 ≤ n.value ∧ n.value ≤ 0xDBFF then
      (trailingSurrogate n.value n.rest).map (·.within n.shorter)
    else .ok (n.map Char.ofNat)

/-- An escape after its backslash. -/
def escape (s : List Char) : Except Trouble (Read Char s) :=
  match s with
  | [] => .error (.before (.endOfText .string) [])
  | '"' :: _ => .ok (.afterOne '"')
  | '\\' :: _ => .ok (.afterOne '\\')
  | '/' :: _ => .ok (.afterOne '/')
  | 'b' :: _ => .ok (.afterOne '\x08')
  | 'f' :: _ => .ok (.afterOne '\x0c')
  | 'n' :: _ => .ok (.afterOne '\n')
  | 'r' :: _ => .ok (.afterOne '\r')
  | 't' :: _ => .ok (.afterOne '\t')
  | 'u' :: r => (numericEscape r).map .behind
  | s => .error (.next .invalidEscape s)

/-- The characters of a string up to its closing quote, after those read already (backwards). -/
def bodyFrom {input : List Char} (read : List Char) (s : List Char) (h : s.length ≤ input.length) :
    Except Trouble (Read (List Char) input) :=
  match s with
  | [] => .error (.before (.endOfText .string) [])
  | '"' :: rest => .ok ⟨read.reverse, rest, by simp at h; omega⟩
  | '\\' :: rest =>
    match escape rest with
    | .error t => .error t
    | .ok c => bodyFrom (c.value :: read) c.rest (by have := c.shorter; simp at h; omega)
  | c :: rest =>
    if c.toNat < 0x20 then .error (.next .controlCharacter (c :: rest))
    else bodyFrom (c :: read) rest (by simp at h; omega)
termination_by s.length
decreasing_by
  · exact Nat.lt_of_le_of_lt c.shorter (length_tail_lt _ rest)
  · exact length_tail_lt c rest

/-- A string after its opening quote. -/
def body (s : List Char) : Except Trouble (Read String s) :=
  (bodyFrom [] s (length_all_le s)).map fun r => r.map String.ofList

/-- One hexadecimal digit, in lower case. -/
def hexDigit (n : Nat) : Char := Nat.digitChar n

/-- How one character stands in a string. -/
def escapeText (c : Char) : List Char :=
  match c with
  | '"' => ['\\', '"']
  | '\\' => ['\\', '\\']
  | '\x08' => ['\\', 'b']
  | '\x0c' => ['\\', 'f']
  | '\n' => ['\\', 'n']
  | '\r' => ['\\', 'r']
  | '\t' => ['\\', 't']
  | c =>
    if c.toNat < 0x20 then ['\\', 'u', '0', '0', hexDigit (c.toNat / 16), hexDigit (c.toNat % 16)] else [c]

/-- The characters between the quotes. -/
def bodyText (text : List Char) : List Char := text.flatMap escapeText

/-- A string between its quotes. -/
def quote (text : String) : List Char := '"' :: bodyText text.toList ++ ['"']

end RunAudit.Json
