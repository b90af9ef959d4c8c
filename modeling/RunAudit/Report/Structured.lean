import RunAudit.Check.Outcome
import RunAudit.Value

/-!
# Reports as values

A report as one object: the checks in order, the numbers, and the exit code. A duration is at most the largest
number of 64 bits.
-/

namespace RunAudit.Report.Structured

open RunAudit.Check

/-- The longest duration, in milliseconds. -/
def maxDuration : Nat := UInt64.size - 1

/-- A check as an object. What there is to say is left out when it passed. -/
def outcomeValue (o : Outcome) : Value :=
  let message :=
    match o.status.message with
    | some text => [("message", Value.string text)]
    | none => []
  .object (("name", .string o.name) :: ("status", .string o.status.label) :: message ++
    [("duration_ms", .ofNat (min o.duration.toNat maxDuration))])

/-- A report as an object. -/
def toValue (outcomes : List Outcome) : Value :=
  let t := Tally.ofOutcomes outcomes
  .object [
    ("checks", .list (outcomes.map outcomeValue)),
    ("passed", .ofNat t.passed),
    ("failed", .ofNat t.failed),
    ("errored", .ofNat t.errored),
    ("skipped", .ofNat t.skipped),
    ("exit_code", .ofNat t.exitCode)]

end RunAudit.Report.Structured
