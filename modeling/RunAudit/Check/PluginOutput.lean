import RunAudit.Check.Context
import RunAudit.Comparison
import RunAudit.Event.Buckets

/-!
# The contents of an event log

The names of tests and runs are compared as sorted lists, in which a repeated test is listed again; then the
numbers of tear downs and of unknown events.
-/

namespace RunAudit.Check

open RunAudit.Event

/-- Compares the tests and runs of testing results with those expected. -/
def compareResults (b : Buckets) (expected : PluginExpectations) : Except Error Unit := do
  expectEqual "test entries of testing result events" (.list (sortedNames expected.testEntries))
    (.list b.testEntryNames)
  expectEqual "passing test runs" (.list (sortedNames expected.passingRuns)) (.list (b.runNames true))
  expectEqual "failing test runs" (.list (sortedNames expected.failingRuns)) (.list (b.runNames false))

/-- Compares the number of tear downs with the one expected. -/
def compareTearDowns (b : Buckets) (expected : PluginExpectations) : Except Error Unit :=
  expectEqual "number of tear down events" (.count expected.tearDownEvents) (.count b.tearDowns.length)

/-- Compares the number of unknown events with the one expected. A difference names their types. -/
def compareUnknown (b : Buckets) (expected : PluginExpectations) : Except Error Unit :=
  if b.unknown.length = expected.unknownEvents then .ok ()
  else .error (.mismatch "number of unknown events" (toString expected.unknownEvents)
    (toString b.unknown.length ++ " " ++ Text.Quoted.list b.unknownTypes))

/-- Compares the events of a log with those expected. -/
def compareEvents (b : Buckets) (expected : PluginExpectations) : Except Error Unit := do
  compareResults b expected
  compareTearDowns b expected
  compareUnknown b expected

/-- Checks the contents of the event log. -/
def pluginOutput (c : Context) : Audit Unit := do
  let expected := c.expectations.pluginOutput
  let text ← Audit.ofExcept (c.disk.read (c.pathOf expected.report))
  let buckets ← readBucketsAloud text
  Audit.ofExcept (compareEvents buckets expected)

end RunAudit.Check
