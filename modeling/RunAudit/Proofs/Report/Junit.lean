import RunAudit.Proofs.Junit.Reading
import RunAudit.Proofs.Xml.Printer
import RunAudit.Report.Junit

/-!
# Reports that are read back

A report of outcomes as test cases is read back as one record for each check that was not skipped
(`readCases_write`), whatever characters its names and messages are made of: its nodes are proper, so the reader gets
the test cases of the tree, and the test cases of the tree are those of the checks (`casesOf_rootNode`).
-/

namespace RunAudit.Report.Junit

open RunAudit.Check RunAudit.Junit RunAudit.Xml

/-! ## The nodes are proper -/

theorem isName_of_mem : ∀ name ∈ ["testsuites", "testsuite", "testcase", "failure", "error", "skipped", "classname",
    "name", "time", "status", "message", "tests", "failures", "errors"], isName name = true := by decide +kernel

theorem properTag_message {tag : String} (h : isName tag = true) (message : String) :
    ProperTag tag [("message", message)] := by
  refine ⟨h, ?_, by simp⟩
  intro key hk
  rw [List.mem_singleton.1 hk]
  exact isName_of_mem _ (by simp)

theorem proper_caseNode (o : Outcome) : (caseNode o).Proper := by
  have hcase : ProperTag "testcase" (caseAttributes o) :=
    ⟨isName_of_mem _ (by simp), fun key hk => isName_of_mem key (by simp [caseAttributes] at hk ⊢; grind), by
      simp [caseAttributes]⟩
  unfold caseNode
  cases o.status with
  | pass => exact hcase
  | fail e => exact ⟨hcase, properTag_message (isName_of_mem _ (by simp)) _, trivial⟩
  | error e => exact ⟨hcase, properTag_message (isName_of_mem _ (by simp)) _, trivial⟩
  | skip reason => exact ⟨hcase, properTag_message (isName_of_mem _ (by simp)) _, trivial⟩

theorem proper_rootNode (name : String) (outcomes : List Outcome) : (rootNode name outcomes).Proper := by
  have hsuite : (suiteNode outcomes).Proper := by
    refine ⟨⟨isName_of_mem _ (by simp), fun key hk => isName_of_mem key (by simp at hk ⊢; grind), by simp⟩, ?_⟩
    refine properAll_iff.2 fun node hn => ?_
    obtain ⟨o, _, rfl⟩ := List.mem_map.1 hn
    exact proper_caseNode o
  exact ⟨⟨isName_of_mem _ (by simp), fun key hk => isName_of_mem key (by simp at hk ⊢; grind), by simp⟩, hsuite,
    trivial⟩

/-! ## The test cases of a report -/

/-- What a report says of a check that was not skipped: one child with the message when it did not pass. -/
def recordFor (o : Outcome) : Case where
  attributes := [("classname", "run-results-verifier"), ("name", o.name), ("time", seconds o.duration),
    ("status", o.status.label)]
  children :=
    match o.status with
    | .fail e => [("failure", .failure ⟨[("message", e.message)]⟩)]
    | .error e => [("error", .other [("message", e.message)])]
    | _ => []

/-- The tree of a check is a test case, and no other tree in it is one. -/
theorem filter_preorder_caseNode (o : Outcome) :
    (caseNode o).tree.preorder.filter isCaseTree = [(caseNode o).tree] := by
  unfold caseNode
  cases o.status <;> simp [Node.tree, treeAll, ElementTree.preorder, ElementTree.preorderAll, isCaseTree]

theorem filter_preorderAll_cases (outcomes : List Outcome) :
    (ElementTree.preorderAll (treeAll (outcomes.map caseNode))).filter isCaseTree =
      outcomes.map fun o => (caseNode o).tree := by
  induction outcomes with
  | nil => rfl
  | cons o rest ih =>
    rw [List.map_cons, treeAll, ElementTree.preorderAll, List.filter_append, filter_preorder_caseNode, ih]
    rfl

theorem isSkippedTree_caseNode (o : Outcome) : isSkippedTree (caseNode o).tree = o.status.isSkip := by
  unfold caseNode
  cases o.status <;> simp [Node.tree, treeAll, isSkippedTree, Status.isSkip]

theorem recordOf_caseNode {o : Outcome} (h : o.status.isSkip = false) :
    recordOf (caseNode o).tree = recordFor o := by
  unfold caseNode recordFor caseAttributes
  cases hs : o.status <;>
    simp_all [Node.tree, treeAll, recordOf, childOf, Status.isSkip, programName, List.eraseDups_cons]

theorem filter_preorder_rootNode (name : String) (outcomes : List Outcome) :
    (rootNode name outcomes).tree.preorder.filter isCaseTree = outcomes.map fun o => (caseNode o).tree := by
  simpa [rootNode, suiteNode, Node.tree, treeAll, ElementTree.preorder, ElementTree.preorderAll, isCaseTree] using
    filter_preorderAll_cases outcomes

/-- **The test cases of a report** are those of its checks. -/
theorem casesOf_rootNode (name : String) (outcomes : List Outcome) :
    casesOf (rootNode name outcomes).tree =
      ⟨(outcomes.filter (!·.status.isSkip)).map recordFor, outcomes.countP (·.status.isSkip)⟩ := by
  simp only [casesOf, liveCases, filter_preorder_rootNode, List.filter_map, List.countP_map, List.map_map, Function.comp_def,
    isSkippedTree_caseNode]
  congr 1
  refine List.map_congr_left fun o ho => recordOf_caseNode ?_
  simpa using (List.mem_filter.1 ho).2

/-- A check is read back as failed just when it failed. -/
theorem isFailed_recordFor (o : Outcome) : (recordFor o).isFailed = o.status.isFail := by
  unfold recordFor Case.isFailed
  cases o.status <;> simp [Fields.has, Child.failureTag, Status.isFail]

/-- **A report is read back** as what it was written for: the number of checks that were skipped, and for each other
check, in order, one record with its name, time, status and message. The failed records are those of failed checks. -/
theorem readCases_write (name : String) (outcomes : List Outcome) :
    ∃ cases, readCases (String.ofList (write name outcomes)) = .ok cases ∧
      cases.skipped = outcomes.countP (·.status.isSkip) ∧
      cases.records = (outcomes.filter (!·.status.isSkip)).map recordFor ∧
      cases.records.map Case.isFailed = (outcomes.filter (!·.status.isSkip)).map (·.status.isFail) := by
  refine ⟨casesOf (rootNode name outcomes).tree, ?_, ?_, ?_, ?_⟩
  · rw [readCases, String.toList_ofList, write, parse_write (proper_rootNode name outcomes)]
    simp only [ofDocument_ofTree]
  · rw [casesOf_rootNode]
  · rw [casesOf_rootNode]
  · rw [casesOf_rootNode, List.map_map]
    exact List.map_congr_left fun o _ => isFailed_recordFor o

end RunAudit.Report.Junit
