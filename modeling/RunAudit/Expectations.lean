import RunAudit.Names
import RunAudit.Text.Quoted
import RunAudit.Value

/-!
# Expectations

What an audit expects to find in a results directory. The defaults describe the reference run, in which the
failing test is tried twice.
-/

namespace RunAudit

/-- What the report of test cases should hold. -/
structure JunitExpectations where
  report : String
  caseCount : Nat
  successful : NameSet
  failed : NameSet
  deriving DecidableEq

/-- What the event log should hold. Names are expected as often as they are listed. -/
structure PluginExpectations where
  report : String
  testEntries : List String
  passingRuns : List String
  failingRuns : List String
  tearDownEvents : Nat
  unknownEvents : Nat
  deriving DecidableEq

/-- What an audit expects. Reports are relative to the results directory. -/
structure Expectations where
  reports : List String
  junit : JunitExpectations
  pluginOutput : PluginExpectations
  deriving DecidableEq

/-- The tests that pass in the reference run. -/
def passingTests : List String := ["testAlwaysSuccess", "testQuickTest", "testSlowTest", "testWritingToTestWorkingDir"]

/-- The test that fails in the reference run. -/
def failingTest : String := "testAlwaysFails"

/-- The report of the device in the reference run. -/
def deviceReport : String := "iphone_se_ios_103.xml"

namespace JunitExpectations

/-- The test cases of the reference run. -/
def default : JunitExpectations where
  report := deviceReport
  caseCount := 5
  successful := .ofList passingTests
  failed := .ofList [failingTest]

/-- The fields as text. -/
def text (e : JunitExpectations) : String :=
  "JunitExpectations \x7b report: " ++ Text.Quoted.quote e.report ++
    ", case_count: " ++ toString e.caseCount ++
    ", successful: " ++ Text.Quoted.set e.successful.toList ++
    ", failed: " ++ Text.Quoted.set e.failed.toList ++ " \x7d"

/-- The fields as an object. -/
def toValue (e : JunitExpectations) : Value :=
  .object [
    ("report", .string e.report),
    ("case_count", .ofNat e.caseCount),
    ("successful", .ofStrings e.successful.toList),
    ("failed", .ofStrings e.failed.toList)]

end JunitExpectations

namespace PluginExpectations

/-- The events of the reference run. -/
def default : PluginExpectations where
  report := "test_plugin_output.json"
  testEntries := passingTests ++ [failingTest]
  passingRuns := passingTests
  failingRuns := [failingTest, failingTest]
  tearDownEvents := 1
  unknownEvents := 0

/-- The fields as text. -/
def text (e : PluginExpectations) : String :=
  "PluginOutputExpectations \x7b report: " ++ Text.Quoted.quote e.report ++
    ", test_entries: " ++ Text.Quoted.list e.testEntries ++
    ", passing_runs: " ++ Text.Quoted.list e.passingRuns ++
    ", failing_runs: " ++ Text.Quoted.list e.failingRuns ++
    ", tear_down_events: " ++ toString e.tearDownEvents ++
    ", unknown_events: " ++ toString e.unknownEvents ++ " \x7d"

/-- The fields as an object. -/
def toValue (e : PluginExpectations) : Value :=
  .object [
    ("report", .string e.report),
    ("test_entries", .ofStrings e.testEntries),
    ("passing_runs", .ofStrings e.passingRuns),
    ("failing_runs", .ofStrings e.failingRuns),
    ("tear_down_events", .ofNat e.tearDownEvents),
    ("unknown_events", .ofNat e.unknownEvents)]

end PluginExpectations

namespace Expectations

/-- What the reference run leaves behind. -/
def default : Expectations where
  reports := ["iphone_se_ios_103.json", deviceReport, "trace.combined.json", "junit.combined.xml"]
  junit := .default
  pluginOutput := .default

/-- The fields as text. -/
def text (e : Expectations) : String :=
  "Expectations \x7b reports: " ++ Text.Quoted.list e.reports ++ ", junit: " ++ e.junit.text ++
    ", plugin_output: " ++ e.pluginOutput.text ++ " \x7d"

/-- The fields as an object. -/
def toValue (e : Expectations) : Value :=
  .object [
    ("reports", .ofStrings e.reports),
    ("junit", e.junit.toValue),
    ("plugin_output", e.pluginOutput.toValue)]

end Expectations

end RunAudit
