import RunAudit.Junit.Cases
import RunAudit.Proofs.Fields
import RunAudit.Proofs.Xml.Rendering
import RunAudit.Proofs.Xml.Truncation
import RunAudit.Proofs.Xml.Walk

/-!
# The test cases of written trees

`casesOf t` is what the test cases of a tree should be, from the tree alone: a case is recorded with its attributes
and its children, or counted when a child of it marks it as skipped, and the cases inside it are visited as well. The
reader finds these in the document of the tree (`ofDocument_ofTree`), so it finds them in every text that writes the
tree (`readCases_rendering`). A report that is cut off is rejected or has all cases of the whole one
(`readCases_cut`).
-/

namespace RunAudit.Junit

open RunAudit.Xml

/-! ## What the test cases of a tree are -/

/-- A tree that is a test case. -/
def isCaseTree (t : ElementTree) : Bool := t.tag == "testcase"

/-- A tree with a child that marks it as skipped. -/
def isSkippedTree (t : ElementTree) : Bool := t.children.any (·.tag == "skipped")

/-- A tree as the child of a test case. -/
def childOf (t : ElementTree) : Child := if t.tag = "failure" then .failure ⟨t.attributes⟩ else .other t.attributes

/-- The record of a test case: one entry for each tag of a child, in the order of their first children, and each for
the last child with the tag. -/
def recordOf (t : ElementTree) : Case :=
  ⟨t.attributes, (t.children.map (·.tag)).eraseDups.filterMap fun tag =>
    (t.children.reverse.find? (·.tag == tag)).map fun child => (tag, childOf child)⟩

/-- The test cases in a tree that were not skipped, each before those in it. -/
def liveCases (t : ElementTree) : List ElementTree := (t.preorder.filter isCaseTree).filter (!isSkippedTree ·)

/-- **The test cases of a tree**: a record for each that was not skipped, and the number of the others. -/
def casesOf (t : ElementTree) : Cases :=
  ⟨(liveCases t).map recordOf, (t.preorder.filter isCaseTree).countP isSkippedTree⟩

/-! ## The reader finds them -/

/-- The entries of children are put one after another. -/
theorem entriesOf_eq (children : List Element) :
    entriesOf children = .ofPairs (children.map fun e => (e.tag, Child.ofElement e.tag e.attributes)) := by
  rw [entriesOf, Fields.ofPairs, List.foldl_map]

theorem ofPairs_children (t : ElementTree) :
    Fields.ofPairs (t.children.map fun child => (child.tag, childOf child)) = (recordOf t).children := by
  have hget : ∀ tag, Fields.get? (t.children.map fun child => (child.tag, childOf child)).reverse tag =
      (t.children.reverse.find? (·.tag == tag)).map childOf := by
    intro tag
    simp [Fields.get?, ← List.map_reverse, List.find?_map, Function.comp_def]
  rw [Fields.ofPairs_eq, recordOf]
  simp only [hget, List.map_map, Option.map_map, Function.comp_def]

/-- A case is read as failed just when a child of it is a failure. -/
theorem isFailed_recordOf {t : ElementTree} :
    (recordOf t).isFailed = true ↔ ∃ child ∈ t.children, child.tag = "failure" := by
  rw [Case.isFailed, ← Fields.mem_keys_iff, ← ofPairs_children, Fields.keys_ofPairs, List.mem_eraseDups]
  simp [Child.failureTag]

section Holds

variable {d : Document} {base : Nat} {t : ElementTree} {ts : List ElementTree} (h : d.Holds base (t :: ts))
include h

theorem isCase_of_holds : isCase d base = isCaseTree t := by
  simp [isCase, isCaseTree, h.getElem?, caseTag]

theorem hasSkipped_of_holds : hasSkipped d base = isSkippedTree t := by
  have hc := congrArg (List.any · (·.1 == "skipped")) (Document.children_of_holds h)
  simpa [hasSkipped, isSkippedTree, skippedTag, List.any_map, Function.comp_def] using hc

theorem caseAt?_of_holds : caseAt? d base = some (recordOf t) := by
  have hc := congrArg (List.map fun p => (p.1, Child.ofElement p.1 p.2)) (Document.children_of_holds h)
  simp only [List.map_map, Function.comp_def] at hc
  have he : entriesOf (d.children base) = (recordOf t).children := by
    rw [entriesOf_eq, hc, ← ofPairs_children]
    rfl
  simp only [caseAt?, h.getElem?, he]
  rfl

end Holds

/-- **The reader finds the test cases of a tree** in its document. -/
theorem ofDocument_ofTree (t : ElementTree) : Cases.ofDocument (.ofTree t) = casesOf t := by
  have hw := Document.map_walk_ofTree
    (fun i => (isCase (.ofTree t) i, hasSkipped (.ofTree t) i, caseAt? (.ofTree t) i))
    (fun t => (isCaseTree t, isSkippedTree t, some (recordOf t)))
    (fun h => by rw [isCase_of_holds h, hasSkipped_of_holds h, caseAt?_of_holds h])
  -- both are computed from what is seen at the places
  let collect (l : List (Bool × Bool × Option Case)) : Cases :=
    let found := l.filter (·.1)
    ⟨(found.filter (!·.2.1)).filterMap (·.2.2), found.countP (·.2.1)⟩
  have hd : Cases.ofDocument (.ofTree t) = collect ((Document.ofTree t).walk.map fun i =>
      (isCase (.ofTree t) i, hasSkipped (.ofTree t) i, caseAt? (.ofTree t) i)) := by
    simp [Cases.ofDocument, collect, List.filter_map, List.filterMap_map, List.countP_map, Function.comp_def]
  have ht : casesOf t = collect (t.preorder.map fun t => (isCaseTree t, isSkippedTree t, some (recordOf t))) := by
    simp [casesOf, liveCases, collect, List.filter_map, List.filterMap_map, List.countP_map, Function.comp_def,
      List.filterMap_eq_map']
  rw [hd, ht, hw]

/-! ## Texts that write trees -/

/-- **The reader computes the test cases of a tree** from every text that writes it. -/
theorem readCases_rendering {t : ElementTree} {text : String} (h : Rendering [t] text.toList) :
    readCases text = .ok (casesOf t) := by
  rw [readCases, parse_of_rendering h, ← ofDocument_ofTree]

/-- A failed case with a skipped one in it, behind a comment that looks like one. -/
theorem readCases_rendering_nested :
    readCases "<s><!--<testcase/>--><testcase n='&lt;\"'><failure/><testcase><skipped/></testcase ></testcase></s>" =
      .ok ⟨[⟨[("n", "<\"")], [("failure", .failure ⟨[]⟩), ("testcase", .other [])]⟩], 1⟩ := by
  -- the cases from the inside out
  have hskipped : Rendering [⟨"skipped", [], []⟩] _ :=
    .empty .nil (by decide +kernel) .nil List.nodup_nil blank_nil (.nil .nil)
  have hinner : Rendering [⟨"testcase", [], [⟨"skipped", [], []⟩]⟩] _ :=
    .nested .nil (by decide +kernel) .nil List.nodup_nil blank_nil hskipped
      (show Blank [' '] by simp [Blank, isSpace]) (.nil .nil)
  have hchildren : Rendering [⟨"failure", [], []⟩, ⟨"testcase", [], [⟨"skipped", [], []⟩]⟩] _ :=
    .empty .nil (by decide +kernel) .nil List.nodup_nil blank_nil hinner
  have hvalue : Escaped '\'' ['<', '"'] ("&lt;\"".toList) :=
    .named (show named? "lt".toList = some '<' from rfl) (.plain (by decide) (by decide) .nil)
  have hname : AttributesWritten [("n", "<\"")] _ :=
    .cons (by decide +kernel) (List.cons_ne_nil ' ' []) (by simp [Blank, isSpace]) blank_nil blank_nil (.inr rfl)
      (by simpa using hvalue) .nil
  have hfiller : Filler ("<!--".toList ++ ("<testcase/>".toList ++ ("-->".toList ++ []))) :=
    .comment (by decide +kernel) .nil
  have h : Rendering [⟨"s", [], [⟨"testcase", [("n", "<\"")], [⟨"failure", [], []⟩,
      ⟨"testcase", [], [⟨"skipped", [], []⟩]⟩]⟩]⟩] _ :=
    .nested .nil (by decide +kernel) .nil List.nodup_nil blank_nil
      (.nested hfiller (by decide +kernel) hname (by simp) blank_nil hchildren blank_nil (.nil .nil)) blank_nil
      (.nil .nil)
  exact (readCases_rendering (by simpa using h)).trans (by decide +kernel)

/-! ## Reports that are cut off -/

/-- **No cut loses test cases silently**: what is left of a report is rejected, or has all of its test cases. -/
theorem readCases_cut {report cut : String} {cases : Cases} (h : readCases report = .ok cases)
    (hc : cut.toList <+: report.toList) : (∃ e, readCases cut = .error e) ∨ readCases cut = .ok cases := by
  obtain ⟨rest, hr⟩ := hc
  unfold readCases at h ⊢
  cases hd : Document.parse report.toList with
  | error f => simp [hd] at h
  | ok d =>
    cases hd' : Document.parse cut.toList with
    | error f => exact .inl ⟨_, rfl⟩
    | ok d' =>
      rw [hd] at h
      have : d' = d := parse_append_eq hd' (hr ▸ hd)
      exact .inr (this ▸ h)

/-- A report without the end of its closing tag and what follows it. -/
theorem readCases_cut_closing :
    (∃ e, readCases "<s><testcase n='1'/></s" = .error e) ∨
      readCases "<s><testcase n='1'/></s" = .ok ⟨[⟨[("n", "1")], []⟩], 0⟩ :=
  readCases_cut (show readCases "<s><testcase n='1'/></s><!-- -->" = .ok ⟨[⟨[("n", "1")], []⟩], 0⟩ by decide +kernel)
    (by decide)

end RunAudit.Junit
