import RunAudit.Error

/-!
# Outcomes of checks

A check passes, fails with a finding, ends in an error, or is skipped for a reason. `Tally` counts the
outcomes of a run and gives its exit code, in which an error outweighs a failure. Times are words of 128 bits, and
so is their sum.
-/

namespace RunAudit.Check

/-- How a check came out. -/
inductive Status where
  | pass
  | fail (e : Error)
  | error (e : Error)
  | skip (reason : String)
  deriving DecidableEq, Repr

namespace Status

/-- The status of a result: an error that is a finding fails the check. -/
def ofResult : Except Error Unit → Status
  | .ok () => .pass
  | .error e => if e.isFailure then .fail e else .error e

/-- The name of a status. -/
def label : Status → String
  | pass => "pass"
  | fail _ => "fail"
  | error _ => "error"
  | skip _ => "skip"

/-- What there is to say about a check that did not pass. -/
def message : Status → Option String
  | pass => none
  | fail e => some e.message
  | error e => some e.message
  | skip reason => some reason

/-- Whether a status is a pass. -/
def isPass : Status → Bool
  | pass => true
  | _ => false

/-- Whether a status is a failure. -/
def isFail : Status → Bool
  | fail _ => true
  | _ => false

/-- Whether a status is an error. -/
def isError : Status → Bool
  | error _ => true
  | _ => false

/-- Whether a check was skipped. -/
def isSkip : Status → Bool
  | skip _ => true
  | _ => false

end Status

/-- A number of milliseconds. Sums wrap around. -/
abbrev Milliseconds := BitVec 128

/-- How a check came out, and how long it took. -/
structure Outcome where
  name : String
  status : Status
  duration : Milliseconds
  deriving DecidableEq, Repr

/-- The numbers of a run. -/
structure Tally where
  passed : Nat
  failed : Nat
  errored : Nat
  skipped : Nat
  duration : Milliseconds
  deriving DecidableEq, Repr

namespace Tally

/-- The numbers of a list of outcomes. -/
def ofOutcomes (outcomes : List Outcome) : Tally where
  passed := outcomes.countP (·.status.isPass)
  failed := outcomes.countP (·.status.isFail)
  errored := outcomes.countP (·.status.isError)
  skipped := outcomes.countP (·.status.isSkip)
  duration := outcomes.foldl (fun total o => total + o.duration) 0

/-- The exit code of a run. -/
def exitCode (t : Tally) : Nat := if 0 < t.errored then 5 else if 0 < t.failed then 19 else 0

end Tally

end RunAudit.Check
