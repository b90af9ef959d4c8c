/-!
# Digits

Digits of bases up to sixteen, in either case, and the numbers that they write. Reading stops at the first
character that is no digit of the base.
-/

namespace RunAudit.Text.Digit

/-- The value of a digit of a base up to sixteen. -/
def value? (base : Nat) (c : Char) : Option Nat :=
  let n :=
    if '0' ≤ c ∧ c ≤ '9' then c.toNat - '0'.toNat
    else if 'a' ≤ c ∧ c ≤ 'f' then c.toNat - 'a'.toNat + 10
    else if 'A' ≤ c ∧ c ≤ 'F' then c.toNat - 'A'.toNat + 10
    else 16
  if n < base then some n else none

/-- The number that digits write after those of another number, or the first character that is no digit. -/
def appendTo (base n : Nat) : List Char → Except Char Nat
  | [] => .ok n
  | c :: rest =>
    match value? base c with
    | some d => appendTo base (n * base + d) rest
    | none => .error c

/-- The number that digits write, or the first character that is no digit. -/
def number (base : Nat) (digits : List Char) : Except Char Nat := appendTo base 0 digits

/-- The number that one or more digits write. -/
def natural? (base : Nat) (digits : List Char) : Option Nat :=
  if digits.isEmpty then none else (number base digits).toOption

end RunAudit.Text.Digit
