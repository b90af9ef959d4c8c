import RunAudit.Decimal.Shortest

/-!
# Structured values

The values that documents hold: null, truth values, numbers, texts, lists and objects. The fields of an
object are in order, each key once; `Fields.put` keeps the place of a key that is there already.
-/

namespace RunAudit

/-- A number: a natural one, the negative of a natural one, or a binary fraction with its sign. -/
inductive Number where
  | natural (n : Nat)
  | negative (n : Nat)
  | fraction (minus : Bool) (magnitude : Decimal.Magnitude)
  deriving DecidableEq, Repr

namespace Number

/-- The text of a number. Fractions have the fewest digits that read back, and a point or an exponent. -/
def text : Number → String
  | .natural n => toString n
  | .negative n => "-" ++ toString n
  | .fraction minus magnitude =>
    let sign := if minus then "-" else ""
    match magnitude with
    | .finite m e => sign ++ (Decimal.Magnitude.shortest m e).general
    | .infinite => "null"

end Number

/-- A structured value. -/
inductive Value where
  | null
  | bool (b : Bool)
  | number (n : Number)
  | string (s : String)
  | list (items : List Value)
  | object (fields : List (String × Value))
  deriving Repr

/-- Entries by key, in order. -/
abbrev Fields (α : Type) := List (String × α)

namespace Fields

variable {α : Type}

/-- The entry of a key. -/
def get? (fields : Fields α) (key : String) : Option α :=
  (fields.find? fun entry => entry.1 == key).map Prod.snd

/-- Whether a key has an entry. -/
def has (fields : Fields α) (key : String) : Bool := fields.any fun entry => entry.1 == key

/-- Sets the entry of a key, at its place if it has one and at the end otherwise. -/
def put (fields : Fields α) (key : String) (value : α) : Fields α :=
  match fields with
  | [] => [(key, value)]
  | (k, v) :: rest => if k == key then (key, value) :: rest else (k, v) :: put rest key value

/-- The keys in order. -/
def keys (fields : Fields α) : List String := fields.map Prod.fst

end Fields

namespace Value

/-- A natural number. -/
def ofNat (n : Nat) : Value := .number (.natural n)

/-- A list of texts. -/
def ofStrings (texts : List String) : Value := .list (texts.map .string)

end Value

end RunAudit
