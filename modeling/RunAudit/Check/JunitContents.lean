import RunAudit.Check.Context
import RunAudit.Comparison
import RunAudit.Junit.Cases

/-!
# The contents of a report of test cases

The number of cases is compared first, then the sets of the names of those that succeeded and of those that
failed. A case without a name is an error.
-/

namespace RunAudit.Check

open RunAudit.Junit

/-- The names of cases apart by whether they failed. -/
structure CaseNames where
  successful : NameSet
  failed : NameSet
  deriving DecidableEq

namespace CaseNames

/-- No names. -/
def empty : CaseNames := ⟨.empty, .empty⟩

/-- Adds the name of a case. -/
def add (names : CaseNames) (c : Case) (name : String) : CaseNames :=
  if c.isFailed then { names with failed := names.failed.insert name }
  else { names with successful := names.successful.insert name }

/-- Adds the names of cases, up to the first that has none. -/
def addAll (names : CaseNames) : List Case → Except Error CaseNames
  | [] => .ok names
  | c :: rest =>
    match c.name with
    | some name => (names.add c name).addAll rest
    | none => .error (.malformed (.unnamedCase c.attributes))

/-- The names of cases. -/
def ofCases (cases : List Case) : Except Error CaseNames := empty.addAll cases

end CaseNames

/-- Compares cases with what is expected of them. -/
def compareCases (cases : List Case) (expected : JunitExpectations) : Except Error Unit := do
  expectEqual "number of JUnit test cases" (.count expected.caseCount) (.count cases.length)
  let names ← CaseNames.ofCases cases
  expectEqual "successful JUnit test cases" (.set expected.successful) (.set names.successful)
  expectEqual "failed JUnit test cases" (.set expected.failed) (.set names.failed)

/-- Checks the contents of the report of test cases. -/
def junitContents (c : Context) : Audit Unit := do
  let expected := c.expectations.junit
  let path := c.pathOf expected.report
  let text ← Audit.ofExcept (c.disk.read path)
  Audit.tell .trace .junit s!"parsing JUnit report {path}"
  let cases ← readCasesAloud text
  Audit.ofExcept (compareCases cases.records expected)

end RunAudit.Check
