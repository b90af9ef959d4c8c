import RunAudit.Proofs.Junit.Reading
import RunAudit.Proofs.Xml.Arena

/-!
# Collecting test cases

The test cases of a document are collected on a walk along its elements: each test case is recorded or counted as it is
met (`ofDocument_eq_foldl`). The walk meets the elements in the order in which the document has them, so the test cases
are those that are met when the elements are gone through from the first to the last (`ofDocument_collects`).
-/

namespace RunAudit.Junit

open RunAudit.Xml

/-- The test cases found so far and the element at an index: a test case is recorded, or counted when it was skipped;
any other element is passed over. -/
def Cases.meet (d : Document) (cases : Cases) (index : Nat) : Cases :=
  if isCase d index then
    if hasSkipped d index then { cases with skipped := cases.skipped + 1 }
    else { cases with records := cases.records ++ (caseAt? d index).toList }
  else cases

/-- The test cases at some indices, added to those found before. -/
theorem foldl_meet (d : Document) (indices : List Nat) (cases : Cases) :
    indices.foldl (Cases.meet d) cases =
      ⟨cases.records ++ ((indices.filter (isCase d)).filter fun i => !hasSkipped d i).filterMap (caseAt? d),
        cases.skipped + (indices.filter (isCase d)).countP (hasSkipped d)⟩ := by
  induction indices generalizing cases with
  | nil => simp
  | cons index rest ih =>
    rw [List.foldl_cons, ih, Cases.meet]
    by_cases hc : isCase d index
    · by_cases hs : hasSkipped d index
      · simp [hc, hs, Nat.add_assoc, Nat.add_comm 1]
      · cases ha : caseAt? d index <;> simp [hc, hs, ha]
    · simp [hc]

/-- **The test cases of a document** are those met on the walk along its elements. -/
theorem ofDocument_eq_foldl (d : Document) : Cases.ofDocument d = d.walk.foldl (Cases.meet d) ⟨[], 0⟩ := by
  rw [foldl_meet]
  simp [Cases.ofDocument]

/-- A test case that is met is recorded or counted. -/
theorem size_meet (d : Document) (cases : Cases) (index : Nat) :
    (cases.meet d index).records.length + (cases.meet d index).skipped =
      cases.records.length + cases.skipped + if isCase d index then 1 else 0 := by
  unfold Cases.meet
  by_cases hc : isCase d index
  · by_cases hs : hasSkipped d index
    · simp [hc, hs, Nat.add_assoc]
    · -- there is an element where there is a test case
      obtain ⟨e, he, _⟩ := (Option.any_eq_true _ _).1 hc
      simp [hc, hs, caseAt?, he, Nat.add_right_comm]
  · simp [hc]

/-- **Each test case that is met** is recorded or counted. -/
theorem size_foldl_meet (d : Document) (indices : List Nat) (cases : Cases) :
    (indices.foldl (Cases.meet d) cases).records.length + (indices.foldl (Cases.meet d) cases).skipped =
      cases.records.length + cases.skipped + indices.countP (isCase d) := by
  induction indices generalizing cases with
  | nil => simp
  | cons index rest ih =>
    rw [List.foldl_cons, ih, size_meet, List.countP_cons]
    omega

/-- The test cases at the indices of a document are its elements with their tag. -/
theorem countP_isCase_range (d : Document) :
    (List.range d.elements.size).countP (isCase d) = d.elements.toList.countP (·.tag == caseTag) := by
  have hmap : (List.range d.elements.size).map (isCase d) = d.elements.toList.map (·.tag == caseTag) := by
    apply List.ext_getElem
    · simp
    · intro i hi _
      have hlt : i < d.elements.size := by simpa using hi
      simp [isCase, hlt]
  have hcount := congrArg (List.countP id) hmap
  rw [List.countP_map, List.countP_map] at hcount
  exact hcount

/-- **The test cases of a report are collected in order.** The elements of a document are in order; the walk takes one
index with each step, from the first to the last, and then has none left. So the test cases are those that are met when
the elements are gone through once, and each element with their tag is recorded or counted. -/
theorem ofDocument_collects {text : List Char} {d : Document} (h : Document.parse text = .ok d) :
    d.InOrder ∧ (∀ fuel, d.walkFrom [] fuel [d.root] = List.range (min fuel d.elements.size)) ∧
      Cases.ofDocument d = (List.range d.elements.size).foldl (Cases.meet d) ⟨[], 0⟩ ∧
      (Cases.ofDocument d).records.length + (Cases.ofDocument d).skipped =
        d.elements.toList.countP (·.tag == caseTag) := by
  obtain ⟨t, rfl⟩ := exists_eq_ofTree h
  have hscan : Cases.ofDocument (.ofTree t) =
      (List.range (Document.ofTree t).elements.size).foldl (Cases.meet (.ofTree t)) ⟨[], 0⟩ := by
    rw [ofDocument_eq_foldl, Document.walk, Document.walkFrom_ofTree, Nat.min_self]
  refine ⟨Document.inOrder_ofTree t, Document.walkFrom_ofTree t, hscan, ?_⟩
  rw [hscan, size_foldl_meet, countP_isCase_range]
  simp

/-- A case in a skipped case, and one behind both. -/
theorem ofDocument_collects_nested :
    let d : Document := ⟨#[⟨"suite", [], #[1, 4]⟩, ⟨"testcase", [], #[2, 3]⟩, ⟨"skipped", [], #[]⟩,
      ⟨"testcase", [("name", "a")], #[]⟩, ⟨"testcase", [("name", "b")], #[]⟩], 0⟩
    d.walkFrom [] 3 [0] = [0, 1, 2] ∧ d.walkFrom [] 9 [0] = [0, 1, 2, 3, 4] ∧
      (Cases.ofDocument d).records.length + (Cases.ofDocument d).skipped = 3 := by
  intro d
  have h : Document.parse
      "<suite><testcase><skipped/><testcase name='a'/></testcase><testcase name='b'/></suite>".toList = .ok d := by
    decide +kernel
  obtain ⟨_, hwalk, _, hcount⟩ := ofDocument_collects h
  exact ⟨hwalk 3, hwalk 9, hcount⟩

end RunAudit.Junit
