import RunAudit.Event.Buckets

/-!
# The summary of an event log

How many events of each kind a log holds, and the names of the tests in it.
-/

namespace RunAudit.Event

/-- A flat view of the events of a log. -/
structure Summary where
  testingResultEvents : Nat
  tearDownEvents : Nat
  unknownEvents : List String
  testEntries : List String
  passingRuns : List String
  failingRuns : List String
  deriving DecidableEq, Repr

namespace Summary

/-- The summary of the events of a log. -/
def ofBuckets (b : Buckets) : Summary where
  testingResultEvents := b.results.length
  tearDownEvents := b.tearDowns.length
  unknownEvents := b.unknownTypes
  testEntries := b.testEntryNames
  passingRuns := b.runNames true
  failingRuns := b.runNames false

/-- A summary as an object. -/
def toValue (s : Summary) : Value :=
  .object [
    ("testing_result_events", .ofNat s.testingResultEvents),
    ("tear_down_events", .ofNat s.tearDownEvents),
    ("unknown_events", .ofStrings s.unknownEvents),
    ("test_entries", .ofStrings s.testEntries),
    ("passing_runs", .ofStrings s.passingRuns),
    ("failing_runs", .ofStrings s.failingRuns)]

end Summary

end RunAudit.Event
