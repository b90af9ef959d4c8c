import RunAudit.Check.JunitContents
import RunAudit.Proofs.Audit
import RunAudit.Proofs.Junit.Reading
import RunAudit.Proofs.Names

/-!
# The verdict on a report of test cases

`compareCases` passes just when there are as many cases as expected, each has a name, and the names of those without
and with a failure are those expected (`compareCases_eq_ok_iff`). For the cases that a report is read as, this is a
statement about its tree (`CasesAsExpected`), and the check passes just when the report has such a tree
(`result_junitContents_eq_ok_iff`).
-/

namespace RunAudit.Check

open RunAudit.Junit RunAudit.Xml

/-! ## Names of cases -/

namespace CaseNames

theorem ext_iff {names names' : CaseNames} :
    names = names' ↔ (∀ x, x ∈ names'.successful ↔ x ∈ names.successful) ∧
      ∀ x, x ∈ names'.failed ↔ x ∈ names.failed := by
  obtain ⟨s, f⟩ := names
  obtain ⟨s', f'⟩ := names'
  rw [CaseNames.mk.injEq, NameSet.ext_iff, NameSet.ext_iff]
  simp only [iff_comm]

theorem mem_successful_add {names : CaseNames} {c : Case} {name x : String} :
    x ∈ (names.add c name).successful ↔ x ∈ names.successful ∨ (name = x ∧ c.isFailed = false) := by
  cases h : c.isFailed with
  | true => simp [add, h]
  | false =>
    simp only [add, h, Bool.false_eq_true, if_false, NameSet.mem_insert, and_true]
    rw [or_comm, @eq_comm _ x name]

theorem mem_failed_add {names : CaseNames} {c : Case} {name x : String} :
    x ∈ (names.add c name).failed ↔ x ∈ names.failed ∨ (name = x ∧ c.isFailed = true) := by
  cases h : c.isFailed with
  | false => simp [add, h]
  | true =>
    simp only [add, h, if_true, NameSet.mem_insert, and_true]
    rw [or_comm, @eq_comm _ x name]

/-- **The names of cases are found** just when each case has one; they are those of the cases without and with a
failure. -/
theorem addAll_eq_ok_iff {cases : List Case} : ∀ {names names' : CaseNames},
    names.addAll cases = .ok names' ↔ (∀ c ∈ cases, ∃ name, c.name = some name) ∧
      (∀ x, x ∈ names'.successful ↔ x ∈ names.successful ∨ ∃ c ∈ cases, c.name = some x ∧ c.isFailed = false) ∧
      ∀ x, x ∈ names'.failed ↔ x ∈ names.failed ∨ ∃ c ∈ cases, c.name = some x ∧ c.isFailed = true := by
  induction cases with
  | nil =>
    intro names names'
    simp [addAll, ext_iff]
  | cons c rest ih =>
    intro names names'
    cases hn : c.name with
    | none => simp [addAll, hn]
    | some name =>
      simp only [addAll, hn, ih, mem_successful_add, mem_failed_add, List.mem_cons, forall_eq_or_imp, or_and_right,
        exists_or, exists_eq_left, Option.some.injEq, exists_eq', true_and, or_assoc]

end CaseNames

/-- **Cases are as expected** just when their number is, each has a name, and the names of those without and with a
failure are. -/
theorem compareCases_eq_ok_iff {cases : List Case} {expected : JunitExpectations} :
    compareCases cases expected = .ok () ↔ cases.length = expected.caseCount ∧
      (∀ c ∈ cases, ∃ name, c.name = some name) ∧
      (∀ name, name ∈ expected.successful ↔ ∃ c ∈ cases, c.name = some name ∧ c.isFailed = false) ∧
      ∀ name, name ∈ expected.failed ↔ ∃ c ∈ cases, c.name = some name ∧ c.isFailed = true := by
  have hcases : ∀ names : CaseNames, CaseNames.ofCases cases = .ok names ↔ (∀ c ∈ cases, ∃ name, c.name = some name) ∧
      (∀ x, x ∈ names.successful ↔ ∃ c ∈ cases, c.name = some x ∧ c.isFailed = false) ∧
      ∀ x, x ∈ names.failed ↔ ∃ c ∈ cases, c.name = some x ∧ c.isFailed = true := by
    intro names
    simp [CaseNames.ofCases, CaseNames.addAll_eq_ok_iff, CaseNames.empty]
  show (Except.bind _ _ = _) ↔ _
  rw [bind_unit_eq_ok_iff, expectEqual_eq_ok_iff]
  show _ ∧ (Except.bind _ _ = _) ↔ _
  rw [bind_eq_ok_iff]
  constructor
  · rintro ⟨hcount, names, hnames, h⟩
    obtain ⟨hs, hf⟩ := bind_unit_eq_ok_iff.1 h
    rw [expectEqual_eq_ok_iff, Quantity.set.injEq] at hs hf
    obtain ⟨hnamed, hsuccessful, hfailed⟩ := (hcases names).1 hnames
    rw [hs, hf]
    exact ⟨(Quantity.count.inj hcount).symm, hnamed, hsuccessful, hfailed⟩
  · rintro ⟨hcount, hnamed, hsuccessful, hfailed⟩
    refine ⟨by rw [hcount], ⟨expected.successful, expected.failed⟩, (hcases _).2 ⟨hnamed, hsuccessful, hfailed⟩, ?_⟩
    exact bind_unit_eq_ok_iff.2 ⟨expectEqual_eq_ok_iff.2 rfl, expectEqual_eq_ok_iff.2 rfl⟩

/-! ## Reports -/

/-- **What is expected of the test cases in a tree** that were not skipped: their number, a name for each, and the
names of those without and with a failure among their children. -/
structure CasesAsExpected (t : ElementTree) (expected : JunitExpectations) : Prop where
  count : (liveCases t).length = expected.caseCount
  named : ∀ c ∈ liveCases t, ∃ name, c.attributes.get? "name" = some name
  successful : ∀ name, name ∈ expected.successful ↔
    ∃ c ∈ liveCases t, c.attributes.get? "name" = some name ∧ ∀ child ∈ c.children, child.tag ≠ "failure"
  failed : ∀ name, name ∈ expected.failed ↔
    ∃ c ∈ liveCases t, c.attributes.get? "name" = some name ∧ ∃ child ∈ c.children, child.tag = "failure"

/-- The cases of a tree are compared as the tree says. -/
theorem compareCases_casesOf {t : ElementTree} {expected : JunitExpectations} :
    compareCases (casesOf t).records expected = .ok () ↔ CasesAsExpected t expected := by
  have hfailed : ∀ c : ElementTree, (recordOf c).isFailed = false ↔ ∀ child ∈ c.children, child.tag ≠ "failure" := by
    intro c
    rw [← Bool.not_eq_true, isFailed_recordOf]
    simp
  have hname : ∀ c : ElementTree, (recordOf c).name = c.attributes.get? "name" := fun _ => rfl
  have hexists : ∀ P : Case → Prop, (∃ r ∈ (liveCases t).map recordOf, P r) ↔ ∃ c ∈ liveCases t, P (recordOf c) := by
    intro P
    simp
  rw [compareCases_eq_ok_iff]
  simp only [casesOf, List.length_map, List.forall_mem_map, hexists, hname, hfailed, isFailed_recordOf]
  constructor
  · rintro ⟨hcount, hnamed, hsuccessful, hfailed⟩
    exact ⟨hcount, hnamed, hsuccessful, hfailed⟩
  · rintro ⟨hcount, hnamed, hsuccessful, hfailed⟩
    exact ⟨hcount, hnamed, hsuccessful, hfailed⟩

theorem result_readCasesAloud (text : String) : (readCasesAloud text).result = readCases text := by
  unfold readCasesAloud
  cases readCases text <;> simp [Except.bind, Except.map]

/-- **The check of a report of test cases passes** just when the report can be read, is a document, and its test cases
are as expected. -/
theorem result_junitContents_eq_ok_iff {c : Context} :
    (junitContents c).result = .ok () ↔ ∃ text t, c.disk.read (c.pathOf c.expectations.junit.report) = .ok text ∧
      Document.parse text.toList = .ok (.ofTree t) ∧ CasesAsExpected t c.expectations.junit := by
  have hresult : (junitContents c).result = (c.disk.read (c.pathOf c.expectations.junit.report)).bind fun text =>
      (readCases text).bind fun cases => compareCases cases.records c.expectations.junit := by
    simp only [junitContents, Audit.result_bind, Audit.result_ofExcept, Audit.result_tell, result_readCasesAloud]
    rfl
  rw [hresult]
  constructor
  · intro h
    obtain ⟨text, htext, h⟩ := bind_eq_ok_iff.1 h
    obtain ⟨cases, hcases, h⟩ := bind_eq_ok_iff.1 h
    unfold readCases at hcases
    cases hd : Document.parse text.toList with
    | error f => simp [hd] at hcases
    | ok d =>
      obtain ⟨t, rfl⟩ := exists_eq_ofTree hd
      rw [hd] at hcases
      cases hcases
      rw [ofDocument_ofTree] at h
      exact ⟨text, t, htext, hd, compareCases_casesOf.1 h⟩
  · rintro ⟨text, t, htext, hd, h⟩
    refine bind_eq_ok_iff.2 ⟨text, htext, bind_eq_ok_iff.2 ⟨casesOf t, ?_, compareCases_casesOf.2 h⟩⟩
    rw [readCases, hd, ← ofDocument_ofTree]

end RunAudit.Check
