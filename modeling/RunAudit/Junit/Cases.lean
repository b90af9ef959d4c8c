import RunAudit.Error
import RunAudit.Junit.Case

/-!
# The test cases of a report

A report is any document; its test cases are the elements with the tag `testcase`, at any depth and in
document order. A case with a `skipped` child is counted and left out.
-/

namespace RunAudit.Junit

open RunAudit.Xml

/-- The cases of a report that were not skipped, and how many were. -/
structure Cases where
  records : List Case
  skipped : Nat
  deriving DecidableEq, Repr

/-- The tag of test cases. -/
def caseTag : String := "testcase"

/-- The tag of the child that marks a skipped case. -/
def skippedTag : String := "skipped"

/-- The entries of children: one for each tag, at the place of its first child, with its last child. -/
def entriesOf (children : List Element) : Fields Child :=
  children.foldl (fun entries e => entries.put e.tag (.ofElement e.tag e.attributes)) []

/-- Whether the element at an index is a test case. -/
def isCase (d : Document) (index : Nat) : Bool := (d.elements[index]?).any (·.tag == caseTag)

/-- Whether an element has a child that marks it as skipped. -/
def hasSkipped (d : Document) (index : Nat) : Bool := (d.children index).any (·.tag == skippedTag)

/-- The test case at an index. -/
def caseAt? (d : Document) (index : Nat) : Option Case :=
  match d.elements[index]? with
  | some e => some ⟨e.attributes, entriesOf (d.children index)⟩
  | none => none

/-- The test cases of a document. -/
def Cases.ofDocument (d : Document) : Cases :=
  let found := d.walk.filter (isCase d)
  ⟨(found.filter fun i => !hasSkipped d i).filterMap (caseAt? d), found.countP (hasSkipped d)⟩

/-- The error of a text that is no document. -/
def errorOf : DocumentFault → Error
  | .markup f => .xml f
  | .structural f => .malformed (.structural f)

/-- The test cases of a text. -/
def readCases (text : String) : Except Error Cases :=
  match Document.parse text.toList with
  | .ok d => .ok (.ofDocument d)
  | .error f => .error (errorOf f)

/-- The test cases of a text, with a note of their number. -/
def readCasesAloud (text : String) : Audit Cases := do
  let cases ← Audit.ofExcept (readCases text)
  Audit.tell .debug .junit s!"read {cases.records.length} test cases, {cases.skipped} skipped"
  pure cases

end RunAudit.Junit
