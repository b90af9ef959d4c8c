import RunAudit.Event.TestingResult
import RunAudit.Json.Printer
import RunAudit.Names

/-!
# Events by type

An event log is a list of events. `Event.ofValue` tells what an event is by the type it names; `Buckets` are
the events of a log apart by what they are, each kind in order. The first event that is none ends the reading.
-/

namespace RunAudit

/-- An event. Those that are not decoded keep their fields. -/
inductive Event where
  | result (r : Event.TestingResult)
  | tearDown (fields : Fields Value)
  | unknown (fields : Fields Value)
  deriving Repr

namespace Event

/-- The type of events that carry a testing result. -/
def resultType : String := "didObtainTestingResult"

/-- The type of events that end a run. -/
def tearDownType : String := "tearDown"

/-- The type that the fields of an event name. -/
def typeOf? (fields : Fields Value) : Option String :=
  match fields.get? "eventType" with
  | some (.string t) => some t
  | _ => none

/-- The testing result among the fields of an event. -/
def resultOf (index : Nat) (fields : Fields Value) : Except Error TestingResult :=
  match fields.get? "testingResult" with
  | none => .error (.malformed (.eventWithoutResult index))
  | some v => (TestingResult.ofValue v).mapError fun f => .json (.decoding f)

/-- The event with the given fields, at an index of its log. -/
def ofFields (index : Nat) (fields : Fields Value) : Except Error Event :=
  match typeOf? fields with
  | none => .error (.malformed (.eventWithoutType index))
  | some t =>
    if t = resultType then (resultOf index fields).map .result
    else if t = tearDownType then .ok (.tearDown fields)
    else .ok (.unknown fields)

/-- The event that a value is, at an index of its log. -/
def ofValue (index : Nat) : Value → Except Error Event
  | .object fields => ofFields index fields
  | v => .error (.malformed (.eventNotObject index (String.ofList (Json.compact v))))

/-- The events of a log apart by what they are. -/
structure Buckets where
  results : List TestingResult
  tearDowns : List (Fields Value)
  unknown : List (Fields Value)
  deriving Repr

namespace Buckets

/-- The buckets of events. -/
def ofEvents (events : List Event) : Buckets where
  results := events.filterMap fun
    | .result r => some r
    | _ => none
  tearDowns := events.filterMap fun
    | .tearDown fields => some fields
    | _ => none
  unknown := events.filterMap fun
    | .unknown fields => some fields
    | _ => none

/-- The methods of all tests of all testing results, sorted. -/
def testEntryNames (b : Buckets) : List String :=
  sortedNames (b.results.flatMap fun r => r.bucket.testEntries.map (·.methodName))

/-- The methods of the runs that succeeded, or of those that did not, sorted. -/
def runNames (b : Buckets) (succeeded : Bool) : List String :=
  sortedNames (b.results.flatMap fun r =>
    (r.unfilteredTestRuns.filter (·.succeeded == succeeded)).map (·.testEntry.methodName))

/-- The types of the unknown events, in order. -/
def unknownTypes (b : Buckets) : List String := b.unknown.filterMap typeOf?

end Buckets

/-- The events that values are, in order. -/
def eventsOf (values : List Value) : Except Error (List Event) :=
  values.zipIdx.mapM fun (v, index) => ofValue index v

/-- The buckets of a list of values. -/
def classify (values : List Value) : Except Error Buckets := (eventsOf values).map .ofEvents

/-- The values of a log. -/
def readLog (text : String) : Except Error (List Value) :=
  (Json.readList text).mapError fun f => .json (.reading f)

/-- The buckets of a log. -/
def readBuckets (text : String) : Except Error Buckets := (readLog text).bind classify

/-- The notes on the types of events, up to the first value that is no event. -/
def typeNotes (notes : List Entry) (index : Nat) : List Value → List Entry
  | .object fields :: rest =>
    match typeOf? fields, ofFields index fields with
    | some t, .ok _ => typeNotes (⟨.trace, .events, s!"event #{index} is `{t}`"⟩ :: notes) (index + 1) rest
    | some t, .error _ => (⟨.trace, .events, s!"event #{index} is `{t}`"⟩ :: notes).reverse
    | none, _ => notes.reverse
  | _ => notes.reverse

/-- The buckets of a log, with notes on its events and their numbers. -/
def readBucketsAloud (text : String) : Audit Buckets := do
  let values ← Audit.ofExcept (readLog text)
  let buckets ← Audit.of (typeNotes [] 0 values) (classify values)
  Audit.tell .debug .events
    (s!"classified events: {buckets.results.length} testing results, {buckets.tearDowns.length} tear downs, " ++
      s!"{buckets.unknown.length} unknown")
  pure buckets

end Event

end RunAudit
