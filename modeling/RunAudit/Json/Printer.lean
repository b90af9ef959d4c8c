import RunAudit.Json.Quoted
import RunAudit.Value

/-!
# Writing documents

`compact` writes a value without blanks. `pretty` puts each item and field on a line of its own, two
blanks further in than what holds it; empty lists and objects stay closed.
-/

namespace RunAudit.Json

mutual

/-- A value without blanks. -/
def compact : Value → List Char
  | .null => ['n', 'u', 'l', 'l']
  | .bool true => ['t', 'r', 'u', 'e']
  | .bool false => ['f', 'a', 'l', 's', 'e']
  | .number n => n.text.toList
  | .string s => quote s
  | .list [] => ['[', ']']
  | .list (v :: vs) => '[' :: compact v ++ compactItems vs
  | .object [] => ['{', '}']
  | .object ((key, v) :: rest) => '{' :: quote key ++ ':' :: compact v ++ compactFields rest

/-- The items after the first, and the closing bracket. -/
def compactItems : List Value → List Char
  | [] => [']']
  | v :: vs => ',' :: compact v ++ compactItems vs

/-- The fields after the first, and the closing brace. -/
def compactFields : List (String × Value) → List Char
  | [] => ['}']
  | (key, v) :: rest => ',' :: quote key ++ ':' :: compact v ++ compactFields rest

end

/-- A new line at a depth. -/
def newLine (depth : Nat) : List Char := '\n' :: List.replicate (2 * depth) ' '

mutual

/-- A value with each item and field on its own line. -/
def prettyAt (depth : Nat) : Value → List Char
  | .null => ['n', 'u', 'l', 'l']
  | .bool true => ['t', 'r', 'u', 'e']
  | .bool false => ['f', 'a', 'l', 's', 'e']
  | .number n => n.text.toList
  | .string s => quote s
  | .list [] => ['[', ']']
  | .list (v :: vs) => '[' :: newLine (depth + 1) ++ prettyAt (depth + 1) v ++ prettyItems depth vs
  | .object [] => ['{', '}']
  | .object ((key, v) :: rest) =>
    '{' :: newLine (depth + 1) ++ quote key ++ ':' :: ' ' :: prettyAt (depth + 1) v ++ prettyFields depth rest

/-- The items after the first, and the closing bracket. -/
def prettyItems (depth : Nat) : List Value → List Char
  | [] => newLine depth ++ [']']
  | v :: vs => ',' :: newLine (depth + 1) ++ prettyAt (depth + 1) v ++ prettyItems depth vs

/-- The fields after the first, and the closing brace. -/
def prettyFields (depth : Nat) : List (String × Value) → List Char
  | [] => newLine depth ++ ['}']
  | (key, v) :: rest =>
    ',' :: newLine (depth + 1) ++ quote key ++ ':' :: ' ' :: prettyAt (depth + 1) v ++ prettyFields depth rest

end

/-- A value with each item and field on its own line. -/
def pretty (v : Value) : List Char := prettyAt 0 v

end RunAudit.Json
