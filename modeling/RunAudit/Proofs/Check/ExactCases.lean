import Mathlib.Data.List.Nodup
import Mathlib.Data.List.Perm.Subperm
import RunAudit.Proofs.Check.JunitContents

/-!
# Exact test cases

Names of test cases are compared as sets, so a set does not tell how often a test was run. The number of cases does:
where it is that of the expected names, the cases have the expected results just once each
(`compareCases_eq_ok_iff_perm`).
-/

namespace RunAudit

open Junit

/-- The name of a case and whether it failed. -/
def Junit.Case.result (c : Case) : Option String × Bool := (c.name, c.isFailed)

namespace JunitExpectations

/-- The expected results: each name of a case without a failure, and each of one with a failure. -/
def results (expected : JunitExpectations) : List (Option String × Bool) :=
  expected.successful.toList.map (fun name => (some name, false)) ++
    expected.failed.toList.map fun name => (some name, true)

variable {expected : JunitExpectations} {name : String}

theorem mem_results_successful : (some name, false) ∈ expected.results ↔ name ∈ expected.successful := by
  simp only [results, List.mem_append, List.mem_map, Prod.mk.injEq, Option.some.injEq, and_true, exists_eq_right,
    Bool.true_eq_false, and_false, exists_false, or_false]
  rfl

theorem mem_results_failed : (some name, true) ∈ expected.results ↔ name ∈ expected.failed := by
  simp only [results, List.mem_append, List.mem_map, Prod.mk.injEq, Option.some.injEq, and_true, exists_eq_right,
    Bool.false_eq_true, and_false, exists_false, false_or]
  rfl

theorem length_results (expected : JunitExpectations) :
    expected.results.length = expected.successful.toList.length + expected.failed.toList.length := by
  simp [results]

/-- No result is expected twice, even if a name is expected with and without a failure. -/
theorem nodup_results (expected : JunitExpectations) : expected.results.Nodup := by
  refine List.nodup_append.2 ⟨?_, ?_, ?_⟩
  · exact (NameSet.nodup_toList _).map fun _ _ h => Option.some.inj (congrArg Prod.fst h)
  · exact (NameSet.nodup_toList _).map fun _ _ h => Option.some.inj (congrArg Prod.fst h)
  · intro a ha b hb
    obtain ⟨_, _, rfl⟩ := List.mem_map.1 ha
    obtain ⟨_, _, rfl⟩ := List.mem_map.1 hb
    simp

end JunitExpectations

namespace Check

variable {expected : JunitExpectations}

theorem mem_results_iff {cases : List Case} {name : String} {failed : Bool} :
    (some name, failed) ∈ cases.map Case.result ↔ ∃ c ∈ cases, c.name = some name ∧ c.isFailed = failed := by
  simp only [List.mem_map, Case.result, Prod.mk.injEq]

/-- **As many cases as results are expected**, among which is each of these, have just these results. -/
theorem results_perm_of_subset {cases : List Case} (hcount : cases.length = expected.results.length)
    (h : ∀ result ∈ expected.results, result ∈ cases.map Case.result) :
    (cases.map Case.result).Perm expected.results := by
  have hsubperm := List.subperm_of_subset expected.nodup_results h
  exact (hsubperm.perm_of_length_le (by simp [hcount])).symm

/-- **Cases pass** just when each has a name and their results are those expected, each once, if the number of cases is
expected to be that of the names. -/
theorem compareCases_eq_ok_iff_perm
    (hcount : expected.caseCount = expected.successful.toList.length + expected.failed.toList.length)
    (cases : List Case) :
    (compareCases cases expected = .ok () ↔
        (∀ c ∈ cases, ∃ name, c.name = some name) ∧ (cases.map Case.result).Perm expected.results) ∧
      (compareCases cases expected = .ok () → (cases.map Case.result).Nodup) := by
  rw [← expected.length_results] at hcount
  have hexact : compareCases cases expected = .ok () ↔
      (∀ c ∈ cases, ∃ name, c.name = some name) ∧ (cases.map Case.result).Perm expected.results := by
    rw [compareCases_eq_ok_iff, hcount]
    constructor
    · rintro ⟨hlength, hnamed, hsuccessful, hfailed⟩
      refine ⟨hnamed, results_perm_of_subset hlength fun result hresult => ?_⟩
      rcases List.mem_append.1 hresult with h | h
      · obtain ⟨name, hname, rfl⟩ := List.mem_map.1 h
        exact mem_results_iff.2 ((hsuccessful name).1 hname)
      · obtain ⟨name, hname, rfl⟩ := List.mem_map.1 h
        exact mem_results_iff.2 ((hfailed name).1 hname)
    · rintro ⟨hnamed, hperm⟩
      refine ⟨by simpa using hperm.length_eq, hnamed, fun name => ?_, fun name => ?_⟩
      · rw [← mem_results_iff, hperm.mem_iff, JunitExpectations.mem_results_successful]
      · rw [← mem_results_iff, hperm.mem_iff, JunitExpectations.mem_results_failed]
  exact ⟨hexact, fun h => (hexact.1 h).2.nodup_iff.2 expected.nodup_results⟩

/-- The reference run, in another order than expected. -/
theorem compareCases_reference :
    let passed (name : String) : Case := ⟨[("name", name)], []⟩
    let failed (name : String) : Case := ⟨[("name", name)], [("failure", .failure ⟨[]⟩)]⟩
    let cases := [failed "testAlwaysFails", passed "testSlowTest", passed "testAlwaysSuccess", passed "testQuickTest",
      passed "testWritingToTestWorkingDir"]
    compareCases cases .default = .ok () ∧ (cases.map Case.result).Nodup := by
  intro passed failed cases
  have hcount : JunitExpectations.default.caseCount =
      JunitExpectations.default.successful.toList.length + JunitExpectations.default.failed.toList.length := by
    decide +kernel
  have hexact := compareCases_eq_ok_iff_perm hcount cases
  have hok : compareCases cases .default = .ok () := by
    refine hexact.1.2 ⟨?_, ?_⟩
    · simp [cases, passed, failed, Case.name, Fields.get?]
    · decide +kernel
  exact ⟨hok, hexact.2 hok⟩

end Check

end RunAudit
