import RunAudit.Json.Fault
import RunAudit.Json.Read
import RunAudit.Value

/-!
# Numerals

Integers that fit 64 bits keep their value. Everything else is a binary fraction: the leading digits that
fit 64 bits, scaled by powers of ten in double precision, at most `10 ^ 308` at a time.
-/

namespace RunAudit.Json

open RunAudit.Decimal

/-- The largest significand. -/
def maxSignificand : Nat := UInt64.size - 1

/-- The value of a decimal digit. -/
def digitValue (c : Char) : Nat := c.toNat - '0'.toNat

/-- Appends digits to a significand while it fits, and tells what is left of them. -/
def takeDigits (significand : Nat) : List Char → Nat × List Char
  | [] => (significand, [])
  | c :: rest =>
    let next := significand * 10 + digitValue c
    if maxSignificand < next then (significand, c :: rest) else takeDigits next rest

/-- Divides by powers of ten until the exponent is used up or nothing is left. -/
def scaleDown (m : Magnitude) : (exponent fuel : Nat) → Magnitude
  | _, 0 => m
  | exponent, fuel + 1 =>
    if exponent ≤ 308 then m.div (.ofPowerOfTen exponent)
    else if m.isZero then m
    else scaleDown (m.div (.ofPowerOfTen 308)) (exponent - 308) fuel

/-- A significand times a power of ten, unless that is out of range. -/
def scale? (significand : Nat) (exponent : Int) : Option Magnitude :=
  let m := Magnitude.ofNat significand
  if 0 ≤ exponent then
    if m.isZero then some m
    else if 308 < exponent then none
    else match m.mul (.ofPowerOfTen exponent.toNat) with
      | .infinite => none
      | product => some product
  else some (scaleDown m exponent.natAbs (exponent.natAbs / 308 + 1))

/-- The number of a significand and an exponent, read up to `rest`. -/
def fraction (minus : Bool) (significand : Nat) (exponent : Int) (rest : List Char) :
    Except Trouble (Read Number rest) :=
  match scale? significand exponent with
  | some m => .ok (.whole (.fraction minus m))
  | none => .error (.before .numberOutOfRange rest)

/-- The largest exponent that is written out. -/
def maxExponentText : Nat := UInt32.size / 2 - 1

/-- Appends digits to an exponent. The digit that makes it too large is left with those after it. -/
def takeExponent (exponent : Nat) : List Char → Nat × List Char
  | [] => (exponent, [])
  | c :: rest =>
    let next := exponent * 10 + digitValue c
    if maxExponentText < next then (exponent, c :: rest) else takeExponent next rest

/-- Whether an exponent is negative, and the text after its sign. -/
def exponentSign : List Char → Bool × List Char
  | '+' :: r => (false, r)
  | '-' :: r => (true, r)
  | s => (false, s)

/-- A sign leaves no more than there was. -/
theorem length_exponentSign_le (s : List Char) : (exponentSign s).2.length ≤ s.length := by
  unfold exponentSign
  split <;> simp

/-- The exponent after its mark. Too large an exponent gives zero or is out of range. -/
def exponentPart (minus : Bool) (significand : Nat) (exponent : Int) (s : List Char) :
    Except Trouble (Read Number s) :=
  let down := (exponentSign s).1
  let digits := (exponentSign s).2
  if !(digits.head?.any Char.isDigit) then
    .error (if digits.isEmpty then .before (.endOfText .value) [] else .next .invalidNumber digits)
  else
    let rest := digits.dropWhile Char.isDigit
    have shorter : rest.length ≤ s.length :=
      Nat.le_trans (length_dropWhile_le _ _) (length_exponentSign_le s)
    let (e, left) := takeExponent 0 (digits.takeWhile Char.isDigit)
    if left.isEmpty then
      (fraction minus significand (if down then exponent - e else exponent + e) rest).map (·.within shorter)
    else if significand ≠ 0 ∧ !down then .error (.before .numberOutOfRange (left.drop 1 ++ rest))
    else .ok ⟨.fraction minus .zero, rest, shorter⟩

/-- The number of a significand whose digits are read: an exponent may follow. -/
def scaled (minus : Bool) (significand : Nat) (exponent : Int) (s : List Char) :
    Except Trouble (Read Number s) :=
  match s with
  | 'e' :: r => (exponentPart minus significand exponent r).map .behind
  | 'E' :: r => (exponentPart minus significand exponent r).map .behind
  | s => fraction minus significand exponent s

/-- The digits after the point. At least one must follow. -/
def fractionPart (minus : Bool) (significand : Nat) (exponent : Int) (s : List Char) :
    Except Trouble (Read Number s) :=
  let digits := s.takeWhile Char.isDigit
  if digits.isEmpty then
    .error (if s.isEmpty then .before (.endOfText .value) [] else .next .invalidNumber s)
  else
    let (significand, left) := takeDigits significand digits
    let exponent := exponent - (digits.length - left.length : Nat)
    (scaled minus significand exponent (s.dropWhile Char.isDigit)).map (·.within (length_dropWhile_le _ _))

/-- The number of an integer without point and exponent. A negative one beyond 64 bits, and zero, is a
fraction. -/
def integer (minus : Bool) (n : Nat) : Number :=
  if !minus then .natural n
  else if n = 0 ∨ UInt64.size / 2 < n then .fraction true (.ofNat n)
  else .negative n

/-- What follows the integer digits: a point, an exponent or the end of the numeral. -/
def afterInteger (minus : Bool) (significand : Nat) (dropped : List Char) (s : List Char) :
    Except Trouble (Read Number s) :=
  match s with
  | '.' :: r => (fractionPart minus significand dropped.length r).map .behind
  | s =>
    if dropped.isEmpty ∧ s.head? ≠ some 'e' ∧ s.head? ≠ some 'E' then
      .ok (.whole (integer minus significand))
    else scaled minus significand dropped.length s

/-- A numeral without its sign. -/
def numeral (minus : Bool) (s : List Char) : Except Trouble (Read Number s) :=
  match s with
  | [] => .error (.before (.endOfText .value) [])
  | '0' :: r =>
    if r.head?.any Char.isDigit then .error (.next .invalidNumber r)
    else (afterInteger minus 0 [] r).map .behind
  | c :: r =>
    if c.isDigit then
      let (significand, dropped) := takeDigits 0 ((c :: r).takeWhile Char.isDigit)
      (afterInteger minus significand dropped ((c :: r).dropWhile Char.isDigit)).map
        (·.within (length_dropWhile_le _ _))
    else .error (.next .invalidNumber (c :: r))

end RunAudit.Json
