import RunAudit.Proofs.Check.JunitContents
import RunAudit.Proofs.Check.PluginOutput
import RunAudit.Proofs.Check.Run
import RunAudit.Proofs.Command.Execution
import RunAudit.Proofs.Event.Summary
import RunAudit.Proofs.Text.Utf8

/-!
# What the exit code of an audit says

`AsExpected disk directory e` says of a results directory that it holds what is expected: every report, a report of
test cases whose cases are as expected, and an event log whose values mean events that are. An audit by all checks ends
with the code 0 just when this is so, whatever the format of its report (`verify_code_eq_zero_iff`).
-/

namespace RunAudit.Command

open RunAudit.Check RunAudit.Event RunAudit.Xml

/-- **A results directory that holds what is expected.** -/
structure AsExpected (disk : Disk) (directory : String) (e : Expectations) : Prop where
  reports : ∀ report ∈ e.reports, disk.holds (Path.join directory report) = true
  junit : ∃ text t, disk.read (Path.join directory e.junit.report) = .ok text ∧
    Document.parse text.toList = .ok (.ofTree t) ∧ CasesAsExpected t e.junit
  pluginOutput : ∃ text values events, disk.read (Path.join directory e.pluginOutput.report) = .ok text ∧
    readLog text = .ok values ∧ List.Forall₂ Means values events ∧ EventsAsExpected events e.pluginOutput

/-- No names stand for every check. -/
theorem select_nil : Check.select [] = .ok Check.all := by
  simp [Check.select, Check.all]

/-- Every check passes just when the directory holds what is expected. -/
theorem all_pass_iff {disk : Disk} {directory : String} {e : Expectations} :
    (∀ check ∈ Check.all, (check.run ⟨disk, directory, e⟩).result = .ok ()) ↔ AsExpected disk directory e := by
  have hreports : (reportsExist ⟨disk, directory, e⟩).result = .ok () ↔
      ∀ report ∈ e.reports, disk.holds (Path.join directory report) = true := by
    rw [reportsExist, result_requireAll_eq_ok_iff, List.forall_mem_map]
    rfl
  simp only [Check.all, List.forall_mem_cons, hreports, result_junitContents_eq_ok_iff,
    result_pluginOutput_eq_ok_iff]
  constructor
  · rintro ⟨hr, hj, hp, _⟩
    exact ⟨hr, hj, hp⟩
  · rintro ⟨hr, hj, hp⟩
    exact ⟨hr, hj, hp, fun _ h => by cases h⟩

/-- The end of an audit by all checks. -/
theorem result_verify_all {env : Environment} {directory : String} {file : Option String} {format : Report.Format}
    {e : Expectations} (he : (expectationsOf env.disk file).result = .ok e) :
    (verify env ⟨directory, file, [], format⟩).result =
      let outcomes := (runAll env.elapsed ⟨env.disk, directory, e⟩ Check.all).value
      .ok ⟨(Tally.ofOutcomes outcomes).exitCode, reportText format env.coloured directory outcomes, none⟩ := by
  simp only [verify_eq, Audit.result_bind, he, select_nil, Audit.result_ofExcept, Audit.result_tell, Audit.result_lift,
    Except.bind, contextOf]
  rfl

/-! ## A run on files -/

/-- Expectations as they are written: two test cases in the report, and the log of the reference run. -/
def sampleText : String := "reports: [x]\njunit: \x7bcase_count: 2, successful: [a], failed: [b]\x7d"

/-- The same as they are read. -/
def sampleExpectations : Expectations where
  reports := ["x"]
  junit := { JunitExpectations.default with caseCount := 2, successful := .ofList ["a"], failed := .ofList ["b"] }
  pluginOutput := .default

/-- The log of a run like the reference run, in which the failing test is tried a number of times. -/
def sampleLog (tries : Nat) : Buckets where
  results := [{
    bucket := ⟨(passingTests ++ [failingTest]).map fun name => ⟨name, none⟩⟩
    unfilteredTestRuns := passingTests.map (fun name => ⟨true, ⟨name, none⟩⟩) ++
      .replicate tries ⟨false, ⟨failingTest, none⟩⟩ }]
  tearDowns := [[("eventType", .string "tearDown")]]
  unknown := []

/-- The disk after such a run, with the expectations and a report on it. -/
def sampleDisk (report : String) (tries : Nat) : Disk where
  lookup path :=
    if path = "e.yaml" then .file sampleText.toUTF8
    else if path = "results/x" then .directory
    else if path = "results/iphone_se_ios_103.xml" then .file report.toUTF8
    else if path = "results/test_plugin_output.json" then
      .file (String.ofList (Json.compact (.list (sampleLog tries).toValues))).toUTF8
    else .absent .notFound

/-- A report of two test cases with something in the second. -/
def sampleReport (inside : String) : String :=
  "<a><testcase name='a'/><testcase name='b'>" ++ inside ++ "</testcase></a>"

/-- The tree of such a report. -/
def sampleTree (inside : List ElementTree) : ElementTree :=
  ⟨"a", [], [⟨"testcase", [("name", "a")], []⟩, ⟨"testcase", [("name", "b")], inside⟩]⟩

theorem read_of_lookup {disk : Disk} {path text : String} (h : disk.lookup path = .file text.toUTF8) :
    disk.read path = .ok text := by
  rw [Disk.read, h]
  show (Disk.textOf text.toUTF8).mapError Error.unreadable = _
  rw [Disk.textOf, Text.Utf8.decode_toUTF8]
  rfl

theorem result_expectationsOf_sample (report : String) (tries : Nat) :
    (expectationsOf (sampleDisk report tries) (some "e.yaml")).result = .ok sampleExpectations := by
  have hread : (sampleDisk report tries).read "e.yaml" = .ok sampleText := read_of_lookup rfl
  have hparse : Expectations.parse sampleText = .ok sampleExpectations := toOption_eq_some_iff.1 (by decide +kernel)
  simp only [expectationsOf, Expectations.readAloud, Audit.result_bind, Audit.result_ofExcept, Audit.result_tell, hread,
    Except.bind, hparse]

theorem typed_sampleLog (tries : Nat) : (sampleLog tries).Typed :=
  ⟨fun _ h => by rw [List.mem_singleton.1 h]; rfl, nofun⟩

theorem readable_sampleLog (tries : Nat) : Json.Readable Json.depthLimit (.list (sampleLog tries).toValues) := by
  have htearDown : Json.Readable 126 (.object [("eventType", .string "tearDown")]) := by
    simp [Json.Readable, Fields.keys]
  exact List.forall_mem_cons.2 ⟨TestingResult.readable_toEvent _ 121, List.forall_mem_singleton.2 htearDown⟩

/-- The log is as expected just when the failing test is tried twice. -/
theorem eventsAsExpected_sampleLog_iff {tries : Nat} :
    EventsAsExpected (sampleLog tries).toEvents sampleExpectations.pluginOutput ↔ tries = 2 := by
  have hfailing : listedRuns false (sampleLog tries).toEvents = .replicate tries failingTest := by
    simp [listedRuns, sampleLog, Buckets.toEvents, resultOf?, passingTests]
  constructor
  · intro h
    have hlength := h.failing.length_eq
    rw [hfailing, List.length_replicate] at hlength
    exact hlength
  · rintro rfl
    exact ⟨.rfl, .rfl, .rfl, rfl, rfl⟩

theorem parse_sampleReport_failing : Document.parse (sampleReport "<failure/>").toList =
    .ok (.ofTree (sampleTree [⟨"failure", [], []⟩])) := toOption_eq_some_iff.1 (by decide +kernel)

theorem parse_sampleReport_passing : Document.parse (sampleReport "").toList = .ok (.ofTree (sampleTree [])) :=
  toOption_eq_some_iff.1 (by decide +kernel)

theorem casesAsExpected_sample_failing :
    CasesAsExpected (sampleTree [⟨"failure", [], []⟩]) sampleExpectations.junit := by
  have hlive : Junit.liveCases (sampleTree [⟨"failure", [], []⟩]) =
      [⟨"testcase", [("name", "a")], []⟩, ⟨"testcase", [("name", "b")], [⟨"failure", [], []⟩]⟩] := by
    simp [Junit.liveCases, sampleTree, ElementTree.preorder, ElementTree.preorderAll, Junit.isCaseTree,
      Junit.isSkippedTree]
  refine ⟨by rw [hlive]; rfl, ?_, fun name => ?_, fun name => ?_⟩
  · simp [hlive, Fields.get?]
  · simp [hlive, Fields.get?, sampleExpectations, NameSet.ofList, @eq_comm _ name]
  · simp [hlive, Fields.get?, sampleExpectations, NameSet.ofList, @eq_comm _ name]

theorem not_casesAsExpected_sample_passing {t : ElementTree}
    (h : Document.parse (sampleReport "").toList = .ok (.ofTree t)) : ¬CasesAsExpected t sampleExpectations.junit := by
  have hcases : Junit.casesOf t = Junit.casesOf (sampleTree []) := by
    rw [← Junit.ofDocument_ofTree, ← Junit.ofDocument_ofTree, Except.ok.inj (h.symm.trans parse_sampleReport_passing)]
  intro hexpected
  have hcompare := compareCases_casesOf.2 hexpected
  rw [hcases] at hcompare
  exact absurd (congrArg Except.toOption hcompare) (by decide +kernel)

theorem read_sampleReport (report : String) (tries : Nat) :
    (sampleDisk report tries).read "results/iphone_se_ios_103.xml" = .ok report := read_of_lookup rfl

theorem asExpected_sample : AsExpected (sampleDisk (sampleReport "<failure/>") 2) "results" sampleExpectations where
  reports report h := by
    rw [List.mem_singleton.1 h]
    rfl
  junit := ⟨_, _, read_sampleReport _ 2, parse_sampleReport_failing, casesAsExpected_sample_failing⟩
  pluginOutput := ⟨_, _, _, read_of_lookup rfl, readLog_compact (readable_sampleLog 2), (typed_sampleLog 2).means,
    eventsAsExpected_sampleLog_iff.2 rfl⟩

/-- A report in which the second test passes is not as expected. -/
theorem not_asExpected_of_passing (tries : Nat) :
    ¬AsExpected (sampleDisk (sampleReport "") tries) "results" sampleExpectations := by
  intro h
  obtain ⟨text, t, hread, hparse, hcases⟩ := h.junit
  obtain rfl := Except.ok.inj ((read_sampleReport _ tries).symm.trans hread)
  exact not_casesAsExpected_sample_passing hparse hcases

/-- A log in which the failing test is not tried twice is not as expected. -/
theorem not_asExpected_of_tries {tries : Nat} (htries : tries ≠ 2) (report : String) :
    ¬AsExpected (sampleDisk report tries) "results" sampleExpectations := by
  intro h
  obtain ⟨text, values, events, hread, hlog, hmeans, hexpected⟩ := h.pluginOutput
  obtain rfl := Except.ok.inj ((read_of_lookup rfl).symm.trans hread)
  obtain rfl := Except.ok.inj ((readLog_compact (readable_sampleLog tries)).symm.trans hlog)
  have hevents := (@eventsAt_eq_ok_iff _ 0 _).2 (typed_sampleLog tries).means
  obtain rfl := Except.ok.inj (hevents.symm.trans (eventsAt_eq_ok_iff.2 hmeans))
  exact htries (eventsAsExpected_sampleLog_iff.1 hexpected)

/-! ## The exit code -/

/-- **An audit by all checks ends with the code 0** just when the results directory holds what is expected. -/
theorem verify_code_eq_zero_iff (env : Environment) (directory : String) (file : Option String)
    (format : Report.Format) {e : Expectations} (he : (expectationsOf env.disk file).result = .ok e) :
    ∃ o, (verify env ⟨directory, file, [], format⟩).result = .ok o ∧
      (o.code = 0 ↔ AsExpected env.disk directory e) := by
  refine ⟨_, result_verify_all he, ?_⟩
  rw [← all_pass_iff]
  exact exitCode_runAll_eq_zero_iff env.elapsed ⟨env.disk, directory, e⟩ Check.all

/-- An audit of a report and a log that are as expected ends with the code 0; it does not if the test case that is
expected to fail passes, nor if the log has one of the two expected tries of the failing test. -/
theorem verify_code_eq_zero_iff_sample :
    let audit (report : String) (tries : Nat) :=
      (verify ⟨sampleDisk report tries, ⟨.empty⟩, false, fun _ => 0, fun _ => ""⟩
        ⟨"results", some "e.yaml", [], .json⟩).result
    (expectationsOf (sampleDisk (sampleReport "<failure/>") 2) (some "e.yaml")).result = .ok sampleExpectations ∧
      AsExpected (sampleDisk (sampleReport "<failure/>") 2) "results" sampleExpectations ∧
      (∃ o, audit (sampleReport "<failure/>") 2 = .ok o ∧ o.code = 0) ∧
      (∃ o, audit (sampleReport "") 2 = .ok o ∧ o.code ≠ 0) ∧
      ∃ o, audit (sampleReport "<failure/>") 1 = .ok o ∧ o.code ≠ 0 := by
  intro audit
  have hends (report : String) (tries : Nat) := verify_code_eq_zero_iff
    ⟨sampleDisk report tries, ⟨.empty⟩, false, fun _ => 0, fun _ => ""⟩ "results" (some "e.yaml") .json
    (result_expectationsOf_sample report tries)
  obtain ⟨o, ho, hcode⟩ := hends (sampleReport "<failure/>") 2
  obtain ⟨o', ho', hcode'⟩ := hends (sampleReport "") 2
  obtain ⟨o'', ho'', hcode''⟩ := hends (sampleReport "<failure/>") 1
  exact ⟨result_expectationsOf_sample _ 2, asExpected_sample, ⟨o, ho, hcode.2 asExpected_sample⟩,
    ⟨o', ho', fun h => not_asExpected_of_passing 2 (hcode'.1 h)⟩,
    ⟨o'', ho'', fun h => not_asExpected_of_tries (by decide) _ (hcode''.1 h)⟩⟩

end RunAudit.Command
