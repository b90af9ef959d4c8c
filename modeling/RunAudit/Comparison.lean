import RunAudit.Error
import RunAudit.Names

/-!
# Comparing what is expected with what is found

Counts, lists of names and sets of names are compared as they are, and a difference is reported with the text
of both sides.
-/

namespace RunAudit

/-- What is compared. -/
inductive Quantity where
  | count (n : Nat)
  | list (names : List String)
  | set (names : NameSet)
  deriving DecidableEq

/-- The text of what is compared. -/
def Quantity.text : Quantity → String
  | .count n => toString n
  | .list names => Text.Quoted.list names
  | .set names => Text.Quoted.set names.toList

/-- Compares what is expected of a subject with what is found. -/
def expectEqual (subject : String) (expected actual : Quantity) : Except Error Unit :=
  if expected = actual then .ok () else .error (.mismatch subject expected.text actual.text)

/-- A comparison passes just when both sides are equal. -/
theorem expectEqual_eq_ok_iff {subject : String} {expected actual : Quantity} :
    expectEqual subject expected actual = .ok () ↔ expected = actual := by
  unfold expectEqual
  split <;> simp_all

end RunAudit
