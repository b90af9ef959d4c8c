import Mathlib.Data.List.Forall2
import RunAudit.Proofs.Junit.Reading

/-!
# Records of test cases

What the record of a test case says of its children (`RecordedAs`): one entry for each tag, where the tag came first,
with the attributes of the last child that has it; and it has failed just when a child of it is a failure, whatever is
inside the children and whatever the attributes are called. The records of a report are those of its test cases that
were not skipped, one after another (`readCases_recorded`).
-/

namespace RunAudit.Junit

open RunAudit.Xml

/-- **What the record of a test case says.** -/
structure RecordedAs (t : ElementTree) (c : Case) : Prop where
  attributes : c.attributes = t.attributes
  /-- The tags of the children, each where it came first. -/
  tags : c.children.keys = (t.children.map (·.tag)).eraseDups
  /-- The attributes of the last child with a tag. -/
  last : ∀ before child after, t.children = before ++ child :: after → (∀ later ∈ after, later.tag ≠ child.tag) →
    (c.children.get? child.tag).map (·.attributes) = some child.attributes
  failures : ∀ tag entry, (tag, entry) ∈ c.children → ((∃ f, entry = .failure f) ↔ tag = "failure")
  failed : c.isFailed = true ↔ ∃ child ∈ t.children, child.tag = "failure"
  failure : c.failure.isSome = true ↔ ∃ child ∈ t.children, child.tag = "failure"

theorem attributes_childOf (t : ElementTree) : (childOf t).attributes = t.attributes := by
  unfold childOf
  split <;> rfl

/-- A child is kept as a failure just when it has the tag of failures. -/
theorem childOf_eq_failure_iff (t : ElementTree) : (∃ f, childOf t = .failure f) ↔ t.tag = "failure" := by
  unfold childOf
  split <;> simp_all

/-- **The record of a test case** says this. -/
theorem recordedAs_recordOf (t : ElementTree) : RecordedAs t (recordOf t) := by
  let pairs := t.children.map fun child => (child.tag, childOf child)
  have hchildren : (recordOf t).children = .ofPairs pairs := (ofPairs_children t).symm
  have hfailures : ∀ tag entry, (tag, entry) ∈ (recordOf t).children →
      ((∃ f, entry = .failure f) ↔ tag = "failure") := by
    intro tag entry hentry
    obtain ⟨child, _, hchild⟩ := List.mem_map.1 (Fields.mem_of_mem_ofPairs (hchildren ▸ hentry))
    cases hchild
    exact childOf_eq_failure_iff child
  refine ⟨rfl, ?_, ?_, hfailures, isFailed_recordOf, ?_⟩
  · rw [hchildren, Fields.keys_ofPairs, List.map_map]
    rfl
  · intro before child after ht hafter
    rw [hchildren]
    simp only [pairs, ht, List.map_append, List.map_cons]
    rw [Fields.get?_ofPairs_last (by simpa using hafter), Option.map_some, attributes_childOf]
  · rw [← isFailed_recordOf, Case.isFailed, ← Fields.isSome_get?, Case.failure]
    cases hentry : (recordOf t).children.get? Child.failureTag with
    | none => rfl
    | some entry =>
      obtain ⟨f, rfl⟩ := (hfailures _ _ (Fields.mem_of_get? hentry)).2 rfl
      rfl

/-- **The records of a report** are those of its test cases that were not skipped, one after another. -/
theorem readCases_recorded {text : String} {d : Document} (h : Document.parse text.toList = .ok d) :
    (∃ t, d = .ofTree t) ∧ ∀ t, d = .ofTree t →
      ∃ cases, readCases text = .ok cases ∧ List.Forall₂ RecordedAs (liveCases t) cases.records := by
  refine ⟨exists_eq_ofTree h, ?_⟩
  rintro t rfl
  refine ⟨casesOf t, by rw [readCases, h, ← ofDocument_ofTree], ?_⟩
  simp only [casesOf, List.forall₂_map_right_iff, List.forall₂_same]
  exact fun c _ => recordedAs_recordOf c

/-- A case with an attribute called `failure` and a failure inside of a child, and one that has failed. -/
theorem readCases_recorded_failures :
    let report :=
      "<s><testcase failure=''><a/><b/><a k='2'><failure/></a></testcase><testcase><failure/></testcase></s>"
    let cases : List Case := [⟨[("failure", "")], [("a", .other [("k", "2")]), ("b", .other [])]⟩,
      ⟨[], [("failure", .failure ⟨[]⟩)]⟩]
    cases.map Case.isFailed = [false, true] ∧
      ∃ t, Document.parse report.toList = .ok (.ofTree t) ∧ List.Forall₂ RecordedAs (liveCases t) cases := by
  intro report cases
  have hread : readCases report = .ok ⟨cases, 0⟩ := by decide +kernel
  have hparse : ∃ d, Document.parse report.toList = .ok d := by
    cases hd : Document.parse report.toList with
    | ok d => exact ⟨d, rfl⟩
    | error f => simp [readCases, hd] at hread
  obtain ⟨d, hd⟩ := hparse
  obtain ⟨⟨t, ht⟩, hrecords⟩ := readCases_recorded hd
  obtain ⟨found, hfound, hrecorded⟩ := hrecords t ht
  rw [hread, Except.ok.injEq] at hfound
  subst hfound
  exact ⟨by decide, t, ht ▸ hd, hrecorded⟩

end RunAudit.Junit
