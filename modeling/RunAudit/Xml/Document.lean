import RunAudit.Xml.Attribute
import RunAudit.Value

/-!
# Documents

A document is kept as its elements in document order, each with the indices of its children, so that no
nesting is too deep for a loop. `Builder` takes one event after another and keeps the indices of the open
elements, the innermost first; `parse` builds the document of a text. `walk` visits the elements below an
index from a stack of indices that are still to be visited.
-/

namespace RunAudit.Xml

/-- An element: its tag, its attributes in order, and the indices of its children. -/
structure Element where
  tag : String
  attributes : Fields String
  children : Array Nat
  deriving DecidableEq, Repr

/-- Why tags form no document. -/
inductive StructureFault where
  | secondRoot (tag : String)
  | neverClosed (tag : String)
  | noRoot
  | strayClose (name : String)
  deriving DecidableEq, Repr

/-- The wording of a structure fault. -/
def StructureFault.message : StructureFault → String
  | .secondRoot tag => "second root element <" ++ tag ++ "> after the document root"
  | .neverClosed tag => "element <" ++ tag ++ "> is never closed"
  | .noRoot => "document has no root element"
  | .strayClose name => "closing tag </" ++ name ++ "> without an opening tag"

/-- Why a text is no document. -/
inductive DocumentFault where
  | markup (fault : Fault)
  | structural (fault : StructureFault)
  deriving DecidableEq, Repr

/-- The elements of a document in document order, and the index of its root. -/
structure Document where
  elements : Array Element
  root : Nat
  deriving DecidableEq, Repr

/-- A document being built: its elements, the indices of the open ones, the innermost first, and the index
of its root. -/
structure Builder where
  elements : Array Element
  path : List Nat
  root : Option Nat
  deriving DecidableEq, Repr

namespace Builder

/-- Nothing read. -/
def empty : Builder := ⟨#[], [], none⟩

/-- The element of a tag's content. -/
def element (content : List Char) : Except DocumentFault Element :=
  match attributes content with
  | .ok attributes => .ok ⟨String.ofList (nameOf content), attributes, #[]⟩
  | .error f => .error (.markup f)

/-- Adds an element as the last child of the innermost open one, or as the root. -/
def attach (b : Builder) (e : Element) : Except DocumentFault Builder :=
  match b with
  | ⟨elements, parent :: path, root⟩ =>
    let index := elements.size
    let elements := elements.modify parent fun p => { p with children := p.children.push index }
    .ok ⟨elements.push e, parent :: path, root⟩
  | ⟨_, [], some _⟩ => .error (.structural (.secondRoot e.tag))
  | ⟨elements, [], none⟩ => .ok ⟨elements.push e, [], some elements.size⟩

/-- Makes the last element the innermost open one. -/
def enterLast (b : Builder) : Builder := { b with path := (b.elements.size - 1) :: b.path }

/-- Takes an event. -/
def accept (b : Builder) (event : Event) : Except DocumentFault Builder :=
  match event with
  | .start content =>
    match element content with
    | .error f => .error f
    | .ok e => (b.attach e).map enterLast
  | .empty content =>
    match element content with
    | .error f => .error f
    | .ok e => b.attach e
  | .stop name =>
    match b.path with
    | [] => .error (.structural (.strayClose (String.ofList name)))
    | _ :: path => .ok { b with path := path }

/-- Takes events in order up to the first fault. -/
def acceptAll (b : Builder) : List Event → Except DocumentFault Builder
  | [] => .ok b
  | e :: rest =>
    match b.accept e with
    | .error f => .error f
    | .ok b => b.acceptAll rest

/-- The document when no more events follow. -/
def finish (b : Builder) : Except DocumentFault Document :=
  match b.path, b.root with
  | innermost :: _, _ =>
    .error (.structural (.neverClosed ((b.elements[innermost]?.map (·.tag)).getD "")))
  | [], some root => .ok ⟨b.elements, root⟩
  | [], none => .error (.structural .noRoot)

end Builder

namespace Document

/-- The document of a text. -/
def parse (text : List Char) : Except DocumentFault Document :=
  let found := events text
  match Builder.empty.acceptAll found.events with
  | .error f => .error f
  | .ok b =>
    match found.fault with
    | some f => .error (.markup f)
    | none => b.finish

/-- The children of the element at an index, in order. -/
def children (d : Document) (index : Nat) : List Element :=
  match d.elements[index]? with
  | some e => e.children.toList.filterMap (d.elements[·]?)
  | none => []

/-- The indices visited from a stack of indices, each before its children and these in order. Each visit
uses one unit of fuel. -/
def walkFrom (d : Document) (visited : List Nat) : (fuel : Nat) → (pending : List Nat) → List Nat
  | 0, _ => visited.reverse
  | _ + 1, [] => visited.reverse
  | fuel + 1, index :: pending =>
    match d.elements[index]? with
    | some e => walkFrom d (index :: visited) fuel (e.children.toList ++ pending)
    | none => walkFrom d (index :: visited) fuel pending

/-- The indices of a document's elements from its root. -/
def walk (d : Document) : List Nat := d.walkFrom [] d.elements.size [d.root]

end Document

end RunAudit.Xml
