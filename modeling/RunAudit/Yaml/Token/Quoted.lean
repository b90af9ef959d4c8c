import RunAudit.Text.Digit
import RunAudit.Yaml.Token.Fold

/-!
# Quoted scalars

Between single quotes, a quote is written twice and everything else stands for itself. Between double quotes,
a backslash begins an escape or joins two lines. Lines are folded in both.
-/

namespace RunAudit.Yaml.Quoted

/-- The character of an escape with one letter. -/
def simple? : Char → Option Char
  | '0' => some '\x00'
  | 'a' => some '\x07'
  | 'b' => some '\x08'
  | 't' => some '\t'
  | '\t' => some '\t'
  | 'n' => some '\n'
  | 'v' => some '\x0b'
  | 'f' => some '\x0c'
  | 'r' => some '\r'
  | 'e' => some '\x1b'
  | ' ' => some ' '
  | '"' => some '"'
  | '/' => some '/'
  | '\\' => some '\\'
  | 'N' => some '\x85'
  | '_' => some '\xa0'
  | 'L' => some '\u2028'
  | 'P' => some '\u2029'
  | _ => none

/-- How many digits follow the letter of a numeric escape. -/
def digits? : Char → Option Nat
  | 'x' => some 2
  | 'u' => some 4
  | 'U' => some 8
  | _ => none

/-- The character of a numeric escape with the given count of digits at the front of a text. -/
def numeric? (count : Nat) (s : List Char) : Option Char :=
  let digits := s.take count
  if digits.length < count then none
  else
    match Text.Digit.natural? 16 digits with
    | some n => if h : n.isValidChar then some (Char.ofNatAux n h) else none
    | none => none

/-- The character of an escape after its backslash, and how many characters write it. -/
def escape? (s : List Char) : Option (Char × Nat) :=
  match s with
  | [] => none
  | c :: rest =>
    match simple? c, digits? c with
    | some d, _ => some (d, 1)
    | none, some count => (numeric? count rest).map fun d => (d, count + 1)
    | none, none => none

/-- Reads a quoted scalar after its first quote, from after the text (backwards) and the gap that are read: the
text, and what is left after the last quote. -/
def read (quote : Char) (text : List Char) (gap : Gap) (s : List Char) (m : Mark) : Option (List Char × Rest) :=
  match s with
  | [] => none
  | '\r' :: '\n' :: rest => read quote text (gap.addBreak '\n') rest (m.newLine 2)
  | c :: rest =>
    if isBreak c then read quote text (gap.addBreak c) rest (m.newLine 1)
    else if isBlank c then read quote text (gap.addBlank c) rest m.next
    else if m.column = 0 && startsWithDocumentMark (c :: rest) then none
    else if c = '\'' && quote = '\'' then
      match rest with
      | '\'' :: rest => read quote ('\'' :: gap.close text) .none rest (m.past 2)
      | _ => some ((gap.close text).reverse, ⟨rest, m.next⟩)
    else if c = quote then some ((gap.close text).reverse, ⟨rest, m.next⟩)
    else if c = '\\' && quote = '"' then
      match rest with
      | '\r' :: '\n' :: rest => read quote (gap.close text) (.breaks none []) rest (m.newLine 3)
      | d :: after =>
        if isBreak d then read quote (gap.close text) (.breaks none []) after (m.newLine 2)
        else
          match escape? (d :: after) with
          | some (e, count) => read quote (e :: gap.close text) .none (after.drop (count - 1)) (m.past (count + 1))
          | none => none
      | [] => none
    else read quote (c :: gap.close text) .none rest m.next
termination_by s.length
decreasing_by
  all_goals simp
  all_goals omega

end RunAudit.Yaml.Quoted
