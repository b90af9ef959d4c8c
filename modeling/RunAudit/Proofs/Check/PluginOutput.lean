import RunAudit.Proofs.Check.Differences
import RunAudit.Proofs.Event.Buckets

/-!
# The verdict on an event log

`EventsAsExpected events expected` says of the events of a log that they name each test, each passing run and each
failing run as often as expected, and that there are as many tear downs and unknown events as expected. The check
passes just when the log can be read and its events are as expected (`result_pluginOutput_eq_ok_iff`).
-/

namespace RunAudit.Check

open RunAudit.Event

/-! ## What events name -/

/-- The testing result of an event that carries one. -/
def resultOf? : Event → Option TestingResult
  | .result r => some r
  | _ => none

/-- An event that ends a run. -/
def isTearDown : Event → Bool
  | .tearDown _ => true
  | _ => false

/-- An event that is not decoded and does not end a run. -/
def isUnknown : Event → Bool
  | .unknown _ => true
  | _ => false

/-- The methods of the tests that events list, each as often as it is listed. -/
def listedTests (events : List Event) : List String :=
  (events.filterMap resultOf?).flatMap fun r => r.bucket.testEntries.map (·.methodName)

/-- The methods of the runs that succeeded, or of those that did not, each as often as it was run. -/
def listedRuns (succeeded : Bool) (events : List Event) : List String :=
  (events.filterMap resultOf?).flatMap fun r =>
    (r.unfilteredTestRuns.filter (·.succeeded == succeeded)).map (·.testEntry.methodName)

/-- **What is expected of the events of a log**: each test and run as often as listed, and the numbers of the other
events. -/
structure EventsAsExpected (events : List Event) (expected : PluginExpectations) : Prop where
  tests : (listedTests events).Perm expected.testEntries
  passing : (listedRuns true events).Perm expected.passingRuns
  failing : (listedRuns false events).Perm expected.failingRuns
  tearDowns : events.countP isTearDown = expected.tearDownEvents
  unknown : events.countP isUnknown = expected.unknownEvents

theorem results_ofEvents (events : List Event) : (Buckets.ofEvents events).results = events.filterMap resultOf? := by
  unfold Buckets.ofEvents
  congr 1

theorem length_tearDowns_ofEvents (events : List Event) :
    (Buckets.ofEvents events).tearDowns.length = events.countP isTearDown := by
  rw [Buckets.ofEvents, List.length_filterMap_eq_countP]
  congr 1
  funext e
  cases e <;> rfl

theorem length_unknown_ofEvents (events : List Event) :
    (Buckets.ofEvents events).unknown.length = events.countP isUnknown := by
  rw [Buckets.ofEvents, List.length_filterMap_eq_countP]
  congr 1
  funext e
  cases e <;> rfl

/-! ## Comparing them -/

theorem testMethods_ofEvents (events : List Event) : (Buckets.ofEvents events).testMethods = listedTests events := by
  rw [Buckets.testMethods, Buckets.entries, List.map_flatMap, results_ofEvents, listedTests]

theorem runMethods_ofEvents (events : List Event) (succeeded : Bool) :
    (Buckets.ofEvents events).runMethods succeeded = listedRuns succeeded events := by
  rw [Buckets.runMethods, Buckets.runs, List.filter_flatMap, List.map_flatMap, results_ofEvents, listedRuns]

/-- Events are as expected when every aspect of them is. -/
theorem agrees_ofEvents_iff {events : List Event} {expected : PluginExpectations} :
    (∀ a : Aspect, a.Agrees (.ofEvents events) expected) ↔ EventsAsExpected events expected := by
  constructor
  · intro h
    have htests := h .tests
    have hpassing := h .passing
    have hfailing := h .failing
    have htearDowns := h .tearDowns
    have hunknown := h .unknown
    rw [Aspect.Agrees, testMethods_ofEvents] at htests
    rw [Aspect.Agrees, runMethods_ofEvents] at hpassing
    rw [Aspect.Agrees, runMethods_ofEvents] at hfailing
    rw [Aspect.Agrees, length_tearDowns_ofEvents] at htearDowns
    rw [Aspect.Agrees, length_unknown_ofEvents] at hunknown
    exact ⟨htests, hpassing, hfailing, htearDowns, hunknown⟩
  · intro h a
    cases a with
    | tests => rw [Aspect.Agrees, testMethods_ofEvents]; exact h.tests
    | passing => rw [Aspect.Agrees, runMethods_ofEvents]; exact h.passing
    | failing => rw [Aspect.Agrees, runMethods_ofEvents]; exact h.failing
    | tearDowns => rw [Aspect.Agrees, length_tearDowns_ofEvents]; exact h.tearDowns
    | unknown => rw [Aspect.Agrees, length_unknown_ofEvents]; exact h.unknown

/-- **Events pass the comparison** just when they are as expected. -/
theorem compareEvents_eq_ok_iff {events : List Event} {expected : PluginExpectations} :
    compareEvents (.ofEvents events) expected = .ok () ↔ EventsAsExpected events expected :=
  compareEvents_eq_ok_iff_agrees.trans agrees_ofEvents_iff

/-! ## Logs -/

theorem result_readBucketsAloud (text : String) : (readBucketsAloud text).result = readBuckets text := by
  unfold readBucketsAloud readBuckets
  simp only [Audit.result_bind, Audit.result_ofExcept, Audit.result_of, Audit.result_tell, Audit.result_pure]
  cases readLog text with
  | error e => rfl
  | ok values =>
    simp only [Except.bind]
    cases classify values <;> rfl

/-- **The check of an event log passes** just when the log can be read, each of its values means an event, and the
events are as expected. -/
theorem result_pluginOutput_eq_ok_iff {c : Context} :
    (pluginOutput c).result = .ok () ↔ ∃ text values events,
      c.disk.read (c.pathOf c.expectations.pluginOutput.report) = .ok text ∧ readLog text = .ok values ∧
        List.Forall₂ Means values events ∧ EventsAsExpected events c.expectations.pluginOutput := by
  have hresult : (pluginOutput c).result =
      (c.disk.read (c.pathOf c.expectations.pluginOutput.report)).bind fun text =>
        (readBuckets text).bind fun buckets => compareEvents buckets c.expectations.pluginOutput := by
    simp only [pluginOutput, Audit.result_bind, Audit.result_ofExcept, result_readBucketsAloud]
  rw [hresult]
  constructor
  · intro h
    obtain ⟨text, htext, h⟩ := bind_eq_ok_iff.1 h
    obtain ⟨buckets, hbuckets, h⟩ := bind_eq_ok_iff.1 h
    obtain ⟨values, hvalues, hclassify⟩ := bind_eq_ok_iff.1 hbuckets
    obtain ⟨events, hevents, rfl⟩ := classify_eq_ok_iff.1 hclassify
    exact ⟨text, values, events, htext, hvalues, hevents, compareEvents_eq_ok_iff.1 h⟩
  · rintro ⟨text, values, events, htext, hvalues, hevents, h⟩
    refine bind_eq_ok_iff.2 ⟨text, htext, bind_eq_ok_iff.2 ⟨.ofEvents events, ?_, compareEvents_eq_ok_iff.2 h⟩⟩
    exact bind_eq_ok_iff.2 ⟨values, hvalues, classify_eq_ok_iff.2 ⟨events, hevents, rfl⟩⟩

end RunAudit.Check
