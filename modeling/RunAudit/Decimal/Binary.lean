/-!
# Binary fractions of double precision

Magnitudes with a 53-bit mantissa and exponents from -1074 to 971, computed exactly on natural numbers.
`Magnitude.ofRatio` rounds a quotient to the nearest of them, a tie to the even mantissa; `ofNat`, `mul`
and `div` are that rounding of the exact result.
-/

namespace RunAudit.Decimal

/-- A power. An exponent below zero counts as zero, so that `power b e / power b (-e)` is the power for every
exponent. -/
def power (base : Nat) (exponent : Int) : Nat := Nat.pow base exponent.toNat

/-- A quotient rounded to the nearest natural number, a tie to the even one. -/
def roundDiv (num den : Nat) : Nat :=
  let q := num / den
  let r := num % den
  if 2 * r > den ∨ (2 * r = den ∧ q % 2 = 1) then q + 1 else q

/-- A magnitude of double precision: `mantissa · 2 ^ exponent`, or too large for one. -/
inductive Magnitude where
  | finite (mantissa : Nat) (exponent : Int)
  | infinite
  deriving DecidableEq, Repr

namespace Magnitude

/-- The least exponent. -/
def minExponent : Int := -1074

/-- The largest exponent of a finite magnitude. -/
def maxExponent : Int := 971

/-- Zero. -/
def zero : Magnitude := .finite 0 minExponent

/-- The quotient at the scale of an exponent, rounded. -/
def scaled (num den : Nat) (exponent : Int) : Nat :=
  roundDiv (num * power 2 (-exponent)) (den * power 2 exponent)

/-- The exponent at which a quotient has 53 bits before its point. -/
def exponentOf (num den : Nat) : Int :=
  let guess : Int := (num.log2 : Int) - (den.log2 : Int) - 52
  if num * power 2 (-guess) / (den * power 2 guess) < power 2 52 then guess - 1 else guess

/-- The magnitude nearest to a quotient, a tie to the even mantissa. -/
def ofRatio (num den : Nat) : Magnitude :=
  if num = 0 then zero
  else
    let exponent := max (exponentOf num den) minExponent
    let mantissa := scaled num den exponent
    let (mantissa, exponent) :=
      if mantissa = power 2 53 then (power 2 52, exponent + 1) else (mantissa, exponent)
    if maxExponent < exponent then .infinite else .finite mantissa exponent

/-- The magnitude nearest to a natural number. -/
def ofNat (n : Nat) : Magnitude := ofRatio n 1

/-- The magnitude nearest to a power of ten. -/
def ofPowerOfTen (n : Nat) : Magnitude := ofNat (power 10 n)

/-- The magnitude nearest to `num · 2 ^ exponent / den`. -/
def ofScaled (num den : Nat) (exponent : Int) : Magnitude :=
  ofRatio (num * power 2 exponent) (den * power 2 (-exponent))

/-- The magnitude nearest to a product. -/
def mul : Magnitude → Magnitude → Magnitude
  | .finite m e, .finite m' e' => ofScaled (m * m') 1 (e + e')
  | _, _ => .infinite

/-- The magnitude nearest to a quotient of a magnitude by one that is neither zero nor infinite. -/
def div : Magnitude → Magnitude → Magnitude
  | .finite m e, .finite m' e' => ofScaled m m' (e - e')
  | .infinite, _ => .infinite
  | .finite _ _, .infinite => zero

/-- Whether a magnitude is zero. -/
def isZero : Magnitude → Bool
  | .finite m _ => m = 0
  | .infinite => false

/-- The exact value as a quotient of natural numbers; too large a magnitude has none. -/
def ratio? : Magnitude → Option (Nat × Nat)
  | .finite m e => some (m * power 2 e, power 2 (-e))
  | .infinite => none

end Magnitude

end RunAudit.Decimal
