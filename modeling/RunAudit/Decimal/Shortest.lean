import RunAudit.Decimal.Binary

/-!
# The fewest digits that read back

`shortest` finds the decimal with the fewest digits among those that round to a magnitude, and of two
such decimals the nearer. It looks at one decimal grid after another, from one digit to seventeen, and
tests the two neighbours of the exact value on each. `positional` and `general` write the digits.
-/

namespace RunAudit.Decimal

/-- A decimal `digits · 10 ^ exponent`. -/
structure Digits where
  digits : Nat
  exponent : Int
  deriving DecidableEq, Repr

namespace Magnitude

/-- Compares `a · 2 ^ e` with `b · 10 ^ k`. -/
def compareScaled (a : Nat) (e : Int) (b : Nat) (k : Int) : Ordering :=
  compare (a * power 2 e * power 10 (-k)) (b * power 10 k * power 2 (-e))

/-- Whether a decimal rounds to the magnitude `m · 2 ^ e`. The bounds lie half way to the neighbours
and belong to the magnitude with the even mantissa. -/
def readsBack (m : Nat) (e : Int) (d : Digits) : Bool :=
  let low := if m = power 2 52 ∧ minExponent < e then 4 * m - 1 else 4 * m - 2
  let high := 4 * m + 2
  let atLow := compareScaled low (e - 2) d.digits d.exponent
  let atHigh := compareScaled high (e - 2) d.digits d.exponent
  if m % 2 = 0 then atLow != .gt && atHigh != .lt else atLow == .lt && atHigh == .gt

/-- The decimal exponent of the leading digit of `m · 2 ^ e`. -/
def leadingExponent (m : Nat) (e : Int) : Int :=
  ((Nat.toDigits 10 (m * power 2 e * power 10 400 / power 2 (-e))).length : Int) - 401

/-- The neighbours of `m · 2 ^ e` on the grid of multiples of `10 ^ k`, the nearer one first and of two
equally near the even one. -/
def neighbours (m : Nat) (e : Int) (k : Int) : List Digits :=
  let num := m * power 2 e * power 10 (-k)
  let den := power 2 (-e) * power 10 k
  let below := num / den
  if roundDiv num den = below then [⟨below, k⟩, ⟨below + 1, k⟩] else [⟨below + 1, k⟩, ⟨below, k⟩]

/-- The first decimal that reads back on the grids of `count` digits and more. A neighbour that has one
digit more is the next power of ten. -/
def search (m : Nat) (e : Int) (leading : Int) (count : Nat) : Nat → Digits
  | 0 => ⟨0, 0⟩
  | fuel + 1 =>
    match (neighbours m e (leading + 1 - count)).find? (readsBack m e) with
    | some d => if d.digits = power 10 count then ⟨1, d.exponent + count⟩ else d
    | none => search m e leading (count + 1) fuel

/-- The decimal with the fewest digits that rounds to a finite magnitude. -/
def shortest (m : Nat) (e : Int) : Digits :=
  if m = 0 then ⟨0, 0⟩ else search m e (leadingExponent m e) 1 17

end Magnitude

namespace Digits

/-- The digits as text. -/
def text (d : Digits) : List Char := Nat.toDigits 10 d.digits

/-- The decimal exponent of the leading digit. -/
def leading (d : Digits) : Int := d.exponent + d.text.length - 1

/-- The digits with a point and no exponent; a whole number ends in `.0`. -/
def positional (d : Digits) : String :=
  let ds := d.text
  let point := d.exponent + ds.length
  String.ofList <|
    if 0 ≤ d.exponent then ds ++ List.replicate d.exponent.toNat '0' ++ ['.', '0']
    else if 0 < point then ds.take point.toNat ++ '.' :: ds.drop point.toNat
    else '0' :: '.' :: List.replicate (-point).toNat '0' ++ ds

/-- One digit before the point and an exponent with its sign. -/
def exponential (d : Digits) : String :=
  let mantissa :=
    match d.text with
    | first :: second :: rest => first :: '.' :: second :: rest
    | ds => ds
  let sign := if d.leading < 0 then "-" else "+"
  String.ofList mantissa ++ "e" ++ sign ++ toString d.leading.natAbs

/-- Positional from `10 ^ -5` up to below `10 ^ 16`, exponential outside. -/
def general (d : Digits) : String :=
  if -5 ≤ d.leading ∧ d.leading < 16 then d.positional else d.exponential

end Digits

end RunAudit.Decimal
