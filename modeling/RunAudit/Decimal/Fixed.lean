import RunAudit.Decimal.Binary

/-!
# A fixed number of places

A quotient written with a given number of places, rounded to the nearest, a tie to the even last digit.
-/

namespace RunAudit.Decimal

/-- `num / den` with the given number of places after the point. -/
def fixed (places num den : Nat) : String :=
  let n := roundDiv (num * power 10 places) den
  let whole := n / power 10 places
  let fraction := toString (n % power 10 places)
  toString whole ++ "." ++ String.ofList (List.replicate (places - fraction.length) '0') ++ fraction

end RunAudit.Decimal
