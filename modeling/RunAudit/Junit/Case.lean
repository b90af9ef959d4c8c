import RunAudit.Value

/-!
# Test cases

A test case of a report: its attributes, and one entry for each tag among its children. A case has failed
when one of its children is a failure. `Case.toValue` writes a case as one object, in which a child hides an
attribute of the same name.
-/

namespace RunAudit.Junit

/-- The child of a case that says why it failed. -/
structure Failure where
  attributes : Fields String
  deriving DecidableEq, Repr

namespace Failure

/-- What went wrong. -/
def message (f : Failure) : Option String := f.attributes.get? "message"

/-- What kind of thing went wrong. -/
def kind (f : Failure) : Option String := f.attributes.get? "type"

end Failure

/-- A child of a case. -/
inductive Child where
  | failure (f : Failure)
  | other (attributes : Fields String)
  deriving DecidableEq, Repr

namespace Child

/-- The tag of a child that says why a case failed. -/
def failureTag : String := "failure"

/-- The child with a tag and attributes. -/
def ofElement (tag : String) (attributes : Fields String) : Child :=
  if tag = failureTag then .failure ⟨attributes⟩ else .other attributes

/-- The attributes of a child. -/
def attributes : Child → Fields String
  | .failure f => f.attributes
  | .other attributes => attributes

end Child

/-- A test case that was not skipped. -/
structure Case where
  attributes : Fields String
  children : Fields Child
  deriving DecidableEq, Repr

namespace Case

/-- The name of a case. -/
def name (c : Case) : Option String := c.attributes.get? "name"

/-- The failure among the children. -/
def failure (c : Case) : Option Failure :=
  match c.children.get? Child.failureTag with
  | some (.failure f) => some f
  | _ => none

/-- Whether a child has the tag of failures. -/
def isFailed (c : Case) : Bool := c.children.has Child.failureTag

/-- The attributes that no child hides. -/
def visibleAttributes (c : Case) : Fields String := c.attributes.filter fun entry => !c.children.has entry.1

/-- Attributes as an object of texts. -/
def attributesValue (attributes : Fields String) : Value :=
  .object (attributes.map fun (key, text) => (key, .string text))

/-- A case as one object: the attributes that show, then the attributes of each child under its tag. -/
def toValue (c : Case) : Value :=
  .object
    ((c.visibleAttributes.map fun (key, text) => (key, .string text)) ++
      c.children.map fun (tag, child) => (tag, attributesValue child.attributes))

end Case

end RunAudit.Junit
