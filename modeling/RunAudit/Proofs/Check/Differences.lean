import Mathlib.Data.List.Perm.Basic
import RunAudit.Check.PluginOutput
import RunAudit.Proofs.Audit
import RunAudit.Proofs.Event.Buckets
import RunAudit.Proofs.Names

/-!
# The first difference of an event log

Five aspects of an event log are compared, one after another (`Aspect.all`). Each is as expected or not, in whatever
order its names stand and whichever event lists them (`Aspect.Agrees`), and the first that is not is the one reported
(`compareEvents_eq`). So a log that tells the same tests and runs in another way gets the same verdict, and one test or
run more or less never does (`compareEvents_first_difference`).
-/

namespace RunAudit

open Event

/-! ## What a log tells -/

namespace Event.Buckets

/-- The tests that the testing results list, one result after another. -/
def entries (b : Buckets) : List TestEntry := b.results.flatMap (·.bucket.testEntries)

/-- The runs that the testing results list, one result after another. -/
def runs (b : Buckets) : List TestRun := b.results.flatMap (·.unfilteredTestRuns)

/-- The methods of the tests, each as often as it is listed. -/
def testMethods (b : Buckets) : List String := b.entries.map (·.methodName)

/-- The methods of the runs that succeeded, or of those that did not, each as often as it was run. -/
def runMethods (b : Buckets) (succeeded : Bool) : List String :=
  (b.runs.filter (·.succeeded == succeeded)).map (·.testEntry.methodName)

theorem testEntryNames_eq (b : Buckets) : b.testEntryNames = sortedNames b.testMethods := by
  rw [testEntryNames, testMethods, entries, List.map_flatMap]

theorem runNames_eq (b : Buckets) (succeeded : Bool) : b.runNames succeeded = sortedNames (b.runMethods succeeded) := by
  rw [runNames, runMethods, runs, List.filter_flatMap, List.map_flatMap]

/-- **The same told in another way**: the same tests and runs, listed in any order by any number of results, and as
many events of the other kinds. -/
structure Rearranges (b b' : Buckets) : Prop where
  entries : b'.entries.Perm b.entries
  runs : b'.runs.Perm b.runs
  tearDowns : b'.tearDowns.length = b.tearDowns.length
  unknown : b'.unknown.length = b.unknown.length

/-- **One more than before**: a test, a run, or an event of another kind. -/
inductive OneMore (b b' : Buckets) : Prop
  | entry (e : TestEntry) : b'.entries.Perm (e :: b.entries) → OneMore b b'
  | run (r : TestRun) : b'.runs.Perm (r :: b.runs) → OneMore b b'
  | tearDown : b'.tearDowns.length = b.tearDowns.length + 1 → OneMore b b'
  | unknown : b'.unknown.length = b.unknown.length + 1 → OneMore b b'

/-- Events in another order tell the same. -/
theorem rearranges_ofEvents {events events' : List Event} (h : events'.Perm events) :
    (ofEvents events).Rearranges (ofEvents events') where
  entries := (h.filterMap _).flatMap_right _
  runs := (h.filterMap _).flatMap_right _
  tearDowns := (h.filterMap _).length_eq
  unknown := (h.filterMap _).length_eq

end Event.Buckets

/-- **Values in another order** are read as well, and tell the same. -/
theorem Event.classify_perm {values values' : List Value} {b : Buckets} (h : classify values = .ok b)
    (hp : values'.Perm values) : ∃ b', classify values' = .ok b' ∧ b.Rearranges b' := by
  obtain ⟨events, hevents, rfl⟩ := classify_eq_ok_iff.1 h
  obtain ⟨events', hevents', hp'⟩ := List.perm_comp_forall₂ hp hevents
  exact ⟨.ofEvents events', classify_eq_ok_iff.2 ⟨events', hevents', rfl⟩, Buckets.rearranges_ofEvents hp'⟩

namespace PluginExpectations

/-- The same expectations with their names in another order. -/
structure Rearranges (expected expected' : PluginExpectations) : Prop where
  testEntries : expected'.testEntries.Perm expected.testEntries
  passingRuns : expected'.passingRuns.Perm expected.passingRuns
  failingRuns : expected'.failingRuns.Perm expected.failingRuns
  tearDownEvents : expected'.tearDownEvents = expected.tearDownEvents
  unknownEvents : expected'.unknownEvents = expected.unknownEvents

/-- One more name than before is expected. -/
inductive OneMore (expected expected' : PluginExpectations) : Prop
  | test (name : String) : expected'.testEntries.Perm (name :: expected.testEntries) → OneMore expected expected'
  | passing (name : String) : expected'.passingRuns.Perm (name :: expected.passingRuns) → OneMore expected expected'
  | failing (name : String) : expected'.failingRuns.Perm (name :: expected.failingRuns) → OneMore expected expected'

end PluginExpectations

/-! ## Aspects -/

namespace Check

/-- What is compared of an event log. -/
inductive Aspect where
  | tests
  | passing
  | failing
  | tearDowns
  | unknown
  deriving DecidableEq, Repr

namespace Aspect

/-- The aspects in the order in which they are compared. -/
def all : List Aspect := [.tests, .passing, .failing, .tearDowns, .unknown]

theorem mem_all (a : Aspect) : a ∈ all := by
  cases a <;> decide

/-- **An aspect is as expected**: each name is listed as often as it is expected, or the numbers are the same. -/
def Agrees (b : Buckets) (expected : PluginExpectations) : Aspect → Prop
  | .tests => b.testMethods.Perm expected.testEntries
  | .passing => (b.runMethods true).Perm expected.passingRuns
  | .failing => (b.runMethods false).Perm expected.failingRuns
  | .tearDowns => b.tearDowns.length = expected.tearDownEvents
  | .unknown => b.unknown.length = expected.unknownEvents

instance (b : Buckets) (expected : PluginExpectations) : DecidablePred (Agrees b expected)
  | .tests => inferInstanceAs (Decidable (b.testMethods.Perm expected.testEntries))
  | .passing => inferInstanceAs (Decidable ((b.runMethods true).Perm expected.passingRuns))
  | .failing => inferInstanceAs (Decidable ((b.runMethods false).Perm expected.failingRuns))
  | .tearDowns => inferInstanceAs (Decidable (b.tearDowns.length = expected.tearDownEvents))
  | .unknown => inferInstanceAs (Decidable (b.unknown.length = expected.unknownEvents))

/-- How an aspect is called in an error. -/
def subject : Aspect → String
  | .tests => "test entries of testing result events"
  | .passing => "passing test runs"
  | .failing => "failing test runs"
  | .tearDowns => "number of tear down events"
  | .unknown => "number of unknown events"

/-- What is expected of an aspect, as text. -/
def expectedText (expected : PluginExpectations) : Aspect → String
  | .tests => Text.Quoted.list (sortedNames expected.testEntries)
  | .passing => Text.Quoted.list (sortedNames expected.passingRuns)
  | .failing => Text.Quoted.list (sortedNames expected.failingRuns)
  | .tearDowns => toString expected.tearDownEvents
  | .unknown => toString expected.unknownEvents

/-- What is found of an aspect, as text. Unknown events are told with their types. -/
def foundText (b : Buckets) : Aspect → String
  | .tests => Text.Quoted.list (sortedNames b.testMethods)
  | .passing => Text.Quoted.list (sortedNames (b.runMethods true))
  | .failing => Text.Quoted.list (sortedNames (b.runMethods false))
  | .tearDowns => toString b.tearDowns.length
  | .unknown => toString b.unknown.length ++ " " ++ Text.Quoted.list b.unknownTypes

/-- The error of an aspect that is not as expected. -/
def difference (b : Buckets) (expected : PluginExpectations) (a : Aspect) : Error :=
  .mismatch a.subject (a.expectedText expected) (a.foundText b)

/-- Compares one aspect. -/
def compare (b : Buckets) (expected : PluginExpectations) (a : Aspect) : Except Error Unit :=
  if a.Agrees b expected then .ok () else .error (a.difference b expected)

/-- The first aspect that is not as expected. -/
def firstDifference (b : Buckets) (expected : PluginExpectations) : Option Aspect :=
  all.find? fun a => !decide (a.Agrees b expected)

variable {b b' : Buckets} {expected expected' : PluginExpectations}

/-- Aspects compared one after another end in the first that differs. -/
theorem forM_compare (aspects : List Aspect) :
    forM aspects (compare b expected) = match aspects.find? fun a => !decide (a.Agrees b expected) with
      | some a => .error (a.difference b expected)
      | none => .ok () := by
  induction aspects with
  | nil => rfl
  | cons a rest ih =>
    rw [List.forM_cons, compare]
    by_cases h : a.Agrees b expected
    · simp only [h, if_true, List.find?_cons, decide_true, Bool.not_true]
      exact ih
    · simp only [h, if_false, List.find?_cons, decide_false, Bool.not_false]
      rfl

end Aspect

variable {b b' : Buckets} {expected expected' : PluginExpectations}

/-- Lists of names are compared by how often each name is in them. -/
theorem expectEqual_sortedNames_eq (subject : String) (expected found : List String) :
    expectEqual subject (.list (sortedNames expected)) (.list (sortedNames found)) =
      if found.Perm expected then .ok ()
      else .error (.mismatch subject (Text.Quoted.list (sortedNames expected))
        (Text.Quoted.list (sortedNames found))) := by
  simp only [expectEqual, Quantity.list.injEq, sortedNames_eq_iff, Quantity.text, List.perm_comm]

/-- The aspects are compared in order. -/
theorem compareEvents_eq_forM (b : Buckets) (expected : PluginExpectations) :
    compareEvents b expected = forM Aspect.all (Aspect.compare b expected) := by
  have htests : expectEqual "test entries of testing result events" (.list (sortedNames expected.testEntries))
      (.list b.testEntryNames) = Aspect.tests.compare b expected := by
    rw [Buckets.testEntryNames_eq, expectEqual_sortedNames_eq]
    rfl
  have hpassing : expectEqual "passing test runs" (.list (sortedNames expected.passingRuns)) (.list (b.runNames true)) =
      Aspect.passing.compare b expected := by
    rw [Buckets.runNames_eq, expectEqual_sortedNames_eq]
    rfl
  have hfailing : expectEqual "failing test runs" (.list (sortedNames expected.failingRuns))
      (.list (b.runNames false)) = Aspect.failing.compare b expected := by
    rw [Buckets.runNames_eq, expectEqual_sortedNames_eq]
    rfl
  have htearDowns : compareTearDowns b expected = Aspect.tearDowns.compare b expected := by
    simp only [compareTearDowns, expectEqual, Quantity.count.injEq, Aspect.compare, Aspect.Agrees, eq_comm]
    rfl
  have hunknown : compareUnknown b expected = Aspect.unknown.compare b expected := rfl
  simp only [compareEvents, compareResults, htests, hpassing, hfailing, htearDowns, hunknown, Aspect.all,
    List.forM_cons, List.forM_nil, bind_assoc, bind_pure_unit]

/-- **The comparison of an event log** reports the first aspect that is not as expected. -/
theorem compareEvents_eq (b : Buckets) (expected : PluginExpectations) :
    compareEvents b expected = match Aspect.firstDifference b expected with
      | some a => .error (a.difference b expected)
      | none => .ok () := by
  rw [compareEvents_eq_forM, Aspect.forM_compare, Aspect.firstDifference]

/-- **An event log passes** just when every aspect is as expected. -/
theorem compareEvents_eq_ok_iff_agrees : compareEvents b expected = .ok () ↔ ∀ a : Aspect, a.Agrees b expected := by
  have hfirst : Aspect.firstDifference b expected = none ↔ ∀ a : Aspect, a.Agrees b expected := by
    simp only [Aspect.firstDifference, List.find?_eq_none, Aspect.mem_all, true_implies, Bool.not_eq_true',
      decide_eq_false_iff_not, not_not]
  rw [compareEvents_eq, ← hfirst]
  cases Aspect.firstDifference b expected <;> simp

/-- What an error is about. -/
def subjectOf? : Error → Option String
  | .mismatch subject _ _ => some subject
  | _ => none

/-- Logs and expectations that agree in the same aspects have the same verdict. -/
theorem mapError_compareEvents_congr (h : ∀ a : Aspect, a.Agrees b' expected' ↔ a.Agrees b expected) :
    (compareEvents b' expected').mapError subjectOf? = (compareEvents b expected).mapError subjectOf? := by
  have hfirst : Aspect.firstDifference b' expected' = Aspect.firstDifference b expected := by
    simp only [Aspect.firstDifference, h]
  rw [compareEvents_eq, compareEvents_eq, hfirst]
  cases Aspect.firstDifference b expected <;> rfl

/-! ## Other logs and expectations -/

/-- **What is as expected stays so** however it is told and in whatever order it is expected. -/
theorem Aspect.agrees_congr (h : b.Rearranges b') (he : expected.Rearranges expected') (a : Aspect) :
    a.Agrees b' expected' ↔ a.Agrees b expected := by
  have hruns : ∀ succeeded, (b'.runMethods succeeded).Perm (b.runMethods succeeded) := fun _ =>
    (h.runs.filter _).map _
  cases a with
  | tests => exact ((h.entries.map _).congr_left _).trans (he.testEntries.congr_right _)
  | passing => exact ((hruns true).congr_left _).trans (he.passingRuns.congr_right _)
  | failing => exact ((hruns false).congr_left _).trans (he.failingRuns.congr_right _)
  | tearDowns => rw [Agrees, Agrees, h.tearDowns, he.tearDownEvents]
  | unknown => rw [Agrees, Agrees, h.unknown, he.unknownEvents]

/-- Names with one more among them are not the same names. -/
theorem not_perm_of_perm_cons {found more expected : List String} {name : String} (h : more.Perm (name :: found))
    (hf : found.Perm expected) : ¬more.Perm expected := by
  intro hm
  have hlength := h.length_eq
  rw [hm.length_eq, List.length_cons, hf.length_eq] at hlength
  omega

/-- **One more test, run or event** is noticed. -/
theorem exists_not_agrees_of_oneMore (h : b.OneMore b') (expected : PluginExpectations) :
    ∃ a : Aspect, a.Agrees b expected → ¬a.Agrees b' expected := by
  cases h with
  | entry e h => exact ⟨.tests, not_perm_of_perm_cons (h.map _)⟩
  | run r h =>
    have hruns : (b'.runMethods r.succeeded).Perm (r.testEntry.methodName :: b.runMethods r.succeeded) := by
      have := (h.filter (·.succeeded == r.succeeded)).map (·.testEntry.methodName)
      simpa [Buckets.runMethods] using this
    cases hs : r.succeeded with
    | true => exact ⟨.passing, not_perm_of_perm_cons (hs ▸ hruns)⟩
    | false => exact ⟨.failing, not_perm_of_perm_cons (hs ▸ hruns)⟩
  | tearDown h =>
    refine ⟨.tearDowns, fun ha hb => ?_⟩
    simp only [Aspect.Agrees] at ha hb
    omega
  | unknown h =>
    refine ⟨.unknown, fun ha hb => ?_⟩
    simp only [Aspect.Agrees] at ha hb
    omega

/-- **One more expected name** is missed. -/
theorem exists_not_agrees_of_oneMore_expected (h : expected.OneMore expected') (b : Buckets) :
    ∃ a : Aspect, a.Agrees b expected → ¬a.Agrees b expected' := by
  cases h with
  | test name h => exact ⟨.tests, fun ha hb => not_perm_of_perm_cons h ha.symm hb.symm⟩
  | passing name h => exact ⟨.passing, fun ha hb => not_perm_of_perm_cons h ha.symm hb.symm⟩
  | failing name h => exact ⟨.failing, fun ha hb => not_perm_of_perm_cons h ha.symm hb.symm⟩

/-- **The verdict on an event log** that is read as buckets: it passes just when each test, passing run and failing run
is listed as often as expected and there are as many tear downs and unknown events; otherwise the first of these that
differs is reported. The verdict is the same for the events in another order, for the same tests and runs listed
otherwise, and for the expected names in another order; with one test, run, event or expected name more or less, a log
that passes does not. -/
theorem compareEvents_first_difference {values : List Value} {b : Buckets} (h : classify values = .ok b)
    (expected : PluginExpectations) :
    (compareEvents b expected = .ok () ↔ ∀ a : Aspect, a.Agrees b expected) ∧
      (∀ before a after, Aspect.all = before ++ a :: after → (∀ a' ∈ before, a'.Agrees b expected) →
        ¬a.Agrees b expected → compareEvents b expected = .error (a.difference b expected)) ∧
      (∀ values', values'.Perm values → ∃ b', classify values' = .ok b' ∧
        (compareEvents b' expected).mapError subjectOf? = (compareEvents b expected).mapError subjectOf?) ∧
      (∀ b' expected', b.Rearranges b' → expected.Rearranges expected' →
        (compareEvents b' expected').mapError subjectOf? = (compareEvents b expected).mapError subjectOf?) ∧
      (∀ b', b.OneMore b' → ¬(compareEvents b expected = .ok () ∧ compareEvents b' expected = .ok ())) ∧
      ∀ expected', expected.OneMore expected' →
        ¬(compareEvents b expected = .ok () ∧ compareEvents b expected' = .ok ()) := by
  have hsame : expected.Rearranges expected := ⟨.refl _, .refl _, .refl _, rfl, rfl⟩
  refine ⟨compareEvents_eq_ok_iff_agrees, ?_, ?_, ?_, ?_, ?_⟩
  · intro before a after hall hbefore ha
    have hfirst : Aspect.firstDifference b expected = some a := by
      rw [Aspect.firstDifference, List.find?_eq_some_iff_append]
      refine ⟨by simpa using ha, before, after, hall, fun a' ha' => by simpa using hbefore a' ha'⟩
    rw [compareEvents_eq, hfirst]
  · intro values' hp
    obtain ⟨b', hb', hr⟩ := classify_perm h hp
    exact ⟨b', hb', mapError_compareEvents_congr (Aspect.agrees_congr hr hsame)⟩
  · intro b' expected' hr he
    exact mapError_compareEvents_congr (Aspect.agrees_congr hr he)
  · rintro b' hmore ⟨hb, hb'⟩
    obtain ⟨a, ha⟩ := exists_not_agrees_of_oneMore hmore expected
    exact ha (compareEvents_eq_ok_iff_agrees.1 hb a) (compareEvents_eq_ok_iff_agrees.1 hb' a)
  · rintro expected' hmore ⟨hb, hb'⟩
    obtain ⟨a, ha⟩ := exists_not_agrees_of_oneMore_expected hmore b
    exact ha (compareEvents_eq_ok_iff_agrees.1 hb a) (compareEvents_eq_ok_iff_agrees.1 hb' a)

/-- A test that failed twice, as expected: its second try may stand in the same testing result or in one of its own, but
not be missing, and a third one is too many. -/
theorem compareEvents_retried :
    let entry (name : String) : TestEntry := ⟨name, none⟩
    let failed : TestRun := ⟨false, entry "b"⟩
    let result (again : List TestRun) : TestingResult :=
      ⟨⟨[entry "b", entry "a"]⟩, [⟨true, entry "a"⟩, failed] ++ again⟩
    let value (again : List TestRun) : Value :=
      .object [("eventType", .string "didObtainTestingResult"), ("testingResult", (result again).toValue)]
    let tearDown : Fields Value := [("eventType", .string "tearDown")]
    let buckets (results : List TestingResult) : Buckets := ⟨results, [tearDown], []⟩
    let expected : PluginExpectations := ⟨"log.json", ["a", "b"], ["a"], ["b", "b"], 1, 0⟩
    compareEvents (buckets [result [failed]]) expected = .ok () ∧
      (∃ b, classify [value [failed], .object tearDown] = .ok b ∧
        (compareEvents b expected).mapError subjectOf? = .ok ()) ∧
      (compareEvents (buckets [result [], ⟨⟨[]⟩, [failed]⟩]) { expected with testEntries := ["b", "a"] }).mapError
        subjectOf? = .ok () ∧
      compareEvents (buckets [result []]) expected =
        .error (Aspect.failing.difference (buckets [result []]) expected) ∧
      compareEvents (buckets [result [failed, failed]]) expected ≠ .ok () ∧
      compareEvents (buckets [result [failed]]) { expected with passingRuns := ["a", "a"] } ≠ .ok () := by
  intro entry failed result value tearDown buckets expected
  have htwice : classify [.object tearDown, value [failed]] = .ok (buckets [result [failed]]) := rfl
  have honce : classify [.object tearDown, value []] = .ok (buckets [result []]) := rfl
  obtain ⟨hexact, _, hperm, hrearranged, hmore, hmoreExpected⟩ := compareEvents_first_difference htwice expected
  have hok : compareEvents (buckets [result [failed]]) expected = .ok () := by
    refine hexact.2 fun a => ?_
    cases a <;> decide
  refine ⟨hok, ?_, ?_, ?_, fun h => ?_, fun h => ?_⟩
  · obtain ⟨b, hb, hverdict⟩ := hperm [value [failed], .object tearDown] (.swap _ _ _)
    exact ⟨b, hb, by rw [hverdict, hok]; rfl⟩
  · have hverdict := hrearranged (buckets [result [], ⟨⟨[]⟩, [failed]⟩]) { expected with testEntries := ["b", "a"] }
      ⟨by decide, by decide, rfl, rfl⟩ ⟨by decide, .refl _, .refl _, rfl, rfl⟩
    exact hverdict.trans (by rw [hok]; rfl)
  · exact (compareEvents_first_difference honce expected).2.1 [.tests, .passing] .failing [.tearDowns, .unknown] rfl
      (by decide) (by decide)
  · exact hmore (buckets [result [failed, failed]]) (.run failed (by decide)) ⟨hok, h⟩
  · exact hmoreExpected { expected with passingRuns := ["a", "a"] } (.passing "a" (.refl _)) ⟨hok, h⟩

end Check

end RunAudit
