import RunAudit.Decimal.Fixed
import RunAudit.Report.Console
import RunAudit.Xml.Printer

/-!
# Reports as test cases

A report with one suite that holds one test case for each check. A check that failed or ended in an error has
a child with what there is to say, as an attribute and as text; a skipped one has the reason.
-/

namespace RunAudit.Report.Junit

open RunAudit.Check
open RunAudit.Decimal (Magnitude)

/-- Milliseconds as seconds with three places, by way of double precision. -/
def seconds (duration : Milliseconds) : String :=
  match ((Magnitude.ofNat duration.toNat).div (.ofNat 1000)).ratio? with
  | some (num, den) => Decimal.fixed 3 num den
  | none => "inf"

/-- The attributes of a test case. -/
def caseAttributes (o : Outcome) : Fields String := [
  ("classname", programName),
  ("name", o.name),
  ("time", seconds o.duration),
  ("status", o.status.label)]

/-- The test case of a check. -/
def caseNode (o : Outcome) : Xml.Node :=
  match o.status with
  | .pass => .empty "testcase" (caseAttributes o)
  | .fail e => .parent "testcase" (caseAttributes o) [.text "failure" [("message", e.message)] e.message]
  | .error e => .parent "testcase" (caseAttributes o) [.text "error" [("message", e.message)] e.message]
  | .skip reason => .parent "testcase" (caseAttributes o) [.empty "skipped" [("message", reason)]]

/-- The suite of the checks. -/
def suiteNode (outcomes : List Outcome) : Xml.Node :=
  let t := Tally.ofOutcomes outcomes
  .parent "testsuite" [
    ("name", programName),
    ("tests", toString outcomes.length),
    ("errors", toString t.errored),
    ("failures", toString t.failed),
    ("skipped", toString t.skipped),
    ("time", seconds t.duration)] (outcomes.map caseNode)

/-- The root of a report of the given name. -/
def rootNode (name : String) (outcomes : List Outcome) : Xml.Node :=
  let t := Tally.ofOutcomes outcomes
  .parent "testsuites" [
    ("name", name),
    ("tests", toString outcomes.length),
    ("failures", toString t.failed),
    ("errors", toString t.errored),
    ("time", seconds t.duration)] [suiteNode outcomes]

/-- A report of the given name as test cases. -/
def write (name : String) (outcomes : List Outcome) : List Char := Xml.write (rootNode name outcomes)

end RunAudit.Report.Junit
