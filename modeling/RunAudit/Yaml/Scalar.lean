import RunAudit.Decimal.Shortest
import RunAudit.Text.Digit
import RunAudit.Text.Quoted

/-!
# What plain scalars stand for

A scalar without quotes may stand for nothing, for a truth value or for a number; every other one is a text.
Integers are decimal without leading zeros, or have a base marked by `0x`, `0o` or `0b`; they take up to 128
bits. Digits after a leading zero are a text.
-/

namespace RunAudit.Yaml.Scalar

open RunAudit.Decimal (Magnitude power)
open RunAudit.Text.Digit (natural?)

/-- What a plain scalar stands for. -/
inductive Meaning where
  | null
  | bool (b : Bool)
  | integer (n : Int)
  | fraction (minus : Bool) (magnitude : Magnitude)
  | notANumber
  | text
  deriving DecidableEq, Repr

/-- The words that stand for nothing. -/
def nullWords : List String := ["null", "Null", "NULL", "~"]

/-- The words that stand for a truth value. -/
def boolOf? (s : String) : Option Bool :=
  if ["true", "True", "TRUE"].contains s then some true
  else if ["false", "False", "FALSE"].contains s then some false
  else none

/-- The text after an optional sign of the given kind. -/
def dropSign (signs : List Char) : List Char → List Char
  | [] => []
  | c :: rest => if signs.contains c then rest else c :: rest

/-- Whether a text is digits after a leading zero, which write no number. -/
def isZeroPadded (s : List Char) : Bool :=
  match dropSign ['-', '+'] s with
  | '0' :: c :: rest => (c :: rest).all Char.isDigit
  | _ => false

/-- The number of an unsigned integer in the base it is marked with. -/
def marked? (s : List Char) : Option Nat :=
  match s with
  | '0' :: 'x' :: digits => natural? 16 digits
  | '0' :: 'o' :: digits => natural? 8 digits
  | '0' :: 'b' :: digits => natural? 2 digits
  | _ => none

/-- The number of an integer without a minus. -/
def unsigned? (s : List Char) : Option Nat :=
  let digits := dropSign ['+'] s
  match marked? digits with
  | some n => some n
  | none => if isZeroPadded s then none else natural? 10 digits

/-- The amount of an integer with a minus. -/
def negated? (s : List Char) : Option Nat :=
  match s with
  | '-' :: digits =>
    match marked? digits with
    | some n => some n
    | none => if isZeroPadded s then none else natural? 10 digits
  | _ => none

/-- How many numbers 128 bits can write. -/
def wideSize : Nat := UInt64.size * UInt64.size

/-- An integer of at most 128 bits. -/
def integer? (s : List Char) : Option Int :=
  match unsigned? s with
  | some n => if n < wideSize then some n else none
  | none =>
    match negated? s with
    | some n => if n ≤ wideSize / 2 then some (-n) else none
    | none => none

/-- The exponent after its mark, or zero where nothing is left. -/
def exponent? (s : List Char) : Option Int :=
  match s with
  | [] => some 0
  | 'e' :: rest | 'E' :: rest =>
    match rest with
    | '-' :: digits => (natural? 10 digits).map fun n => -(n : Int)
    | digits => (natural? 10 (dropSign ['+'] digits)).map fun n => (n : Int)
  | _ => none

/-- The magnitude nearest to a number of `count` digits, the first of them not zero, scaled by a power of ten. Far
from one it is infinite or zero, and the power is not worked out. -/
def scaled (digits count : Nat) (exponent : Int) : Magnitude :=
  if digits = 0 then .zero
  else if 310 < exponent + count then .infinite
  else if exponent + count < -330 then .zero
  else if 0 ≤ exponent then .ofNat (digits * power 10 exponent)
  else .ofRatio digits (power 10 (-exponent))

/-- The digits after a point, if there is one, and what follows. -/
def splitPoint (s : List Char) : List Char × List Char :=
  match s with
  | '.' :: rest => (rest.takeWhile Char.isDigit, rest.dropWhile Char.isDigit)
  | rest => ([], rest)

/-- A decimal with digits on at least one side of its point. -/
def magnitude? (s : List Char) : Option Magnitude :=
  let whole := s.takeWhile Char.isDigit
  let (fraction, rest) := splitPoint (s.dropWhile Char.isDigit)
  let digits := whole ++ fraction
  match natural? 10 digits, exponent? rest with
  | some n, some e => some (scaled n (digits.dropWhile (· = '0')).length (e - fraction.length))
  | _, _ => none

/-- A fraction that is finite, or one of the names of the infinite ones. -/
def fraction? (s : List Char) : Option Meaning :=
  let positive := dropSign ['+'] s
  let text := String.ofList s
  if [".inf", ".Inf", ".INF"].contains (String.ofList positive) then some (.fraction false .infinite)
  else if ["-.inf", "-.Inf", "-.INF"].contains text then some (.fraction true .infinite)
  else if [".nan", ".NaN", ".NAN"].contains text then some .notANumber
  else
    match (match s with
      | '-' :: rest => (magnitude? rest).map (true, ·)
      | _ => (magnitude? positive).map (false, ·)) with
    | some (minus, .finite m e) => some (.fraction minus (.finite m e))
    | _ => none

/-- What a plain scalar stands for. -/
def meaning (scalar : String) : Meaning :=
  let s := scalar.toList
  if scalar = "" ∨ nullWords.contains scalar then .null
  else
    match boolOf? scalar with
    | some b => .bool b
    | none =>
      match integer? s with
      | some n => .integer n
      | none => if isZeroPadded s then .text else (fraction? s).getD .text

/-- How many bits an integer needs beyond 64. -/
def widthText (n : Int) : String :=
  if (UInt64.size : Int) ≤ n then " as u128"
  else if n < -((UInt64.size / 2 : Nat) : Int) then " as i128"
  else ""

/-- A fraction in all its digits. -/
def fractionText (minus : Bool) : Magnitude → String
  | .finite m e => (if minus then "-" else "") ++ (Magnitude.shortest m e).positional
  | .infinite => if minus then "-inf" else "inf"

/-- What kind of value a scalar stands for. -/
def kind (scalar : String) : Meaning → String
  | .null => "unit value"
  | .bool b => s!"boolean `{b}`"
  | .integer n => s!"integer `{n}`" ++ widthText n
  | .fraction minus m => "floating point `" ++ fractionText minus m ++ "`"
  | .notANumber => "floating point `NaN`"
  | .text => "string " ++ Text.Quoted.quote scalar

end RunAudit.Yaml.Scalar
