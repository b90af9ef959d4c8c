import RunAudit.Text.Unprintable
import RunAudit.Text.Combining

/-!
# Quoted texts

Texts between double quotes, with escapes for the quote, the backslash and every character that would
not show, and the collections written from them: lists in brackets, sets and maps in braces.
-/

namespace RunAudit.Text.Quoted

/-- A numeric escape: the code point in lower-case hexadecimal, without leading zeros. -/
def numeric (c : Char) : List Char := '\\' :: 'u' :: '{' :: Nat.toDigits 16 c.toNat ++ ['}']

/-- How one character stands between quotes. -/
def escape (c : Char) : List Char :=
  match c with
  | '"' => ['\\', '"']
  | '\\' => ['\\', '\\']
  | '\n' => ['\\', 'n']
  | '\r' => ['\\', 'r']
  | '\t' => ['\\', 't']
  | '\x00' => ['\\', '0']
  | c => if Unprintable.isUnprintable c || Combining.isCombining c then numeric c else [c]

/-- The characters between the quotes. -/
def body (text : List Char) : List Char := text.flatMap escape

/-- A text between double quotes. -/
def quote (text : String) : String := String.ofList ('"' :: body text.toList ++ ['"'])

/-- Items separated by commas. -/
def items (texts : List String) : String := String.intercalate ", " texts

/-- A list of texts. -/
def list (texts : List String) : String := "[" ++ items (texts.map quote) ++ "]"

/-- A set of texts, in the order given. -/
def set (texts : List String) : String := "\x7b" ++ items (texts.map quote) ++ "\x7d"

/-- A map from texts to texts, in the order given. -/
def map (entries : List (String × String)) : String :=
  "\x7b" ++ items (entries.map fun (key, value) => quote key ++ ": " ++ quote value) ++ "\x7d"

end RunAudit.Text.Quoted
