import RunAudit.Xml.Reference
import RunAudit.Value

/-!
# Writing documents

A document is written with every tag on a line of its own, four blanks further in than the tag around it. An
element with text stands on one line.
-/

namespace RunAudit.Xml

/-- An element to write: without content, with text, or with elements. -/
inductive Node where
  | empty (tag : String) (attributes : Fields String)
  | text (tag : String) (attributes : Fields String) (content : String)
  | parent (tag : String) (attributes : Fields String) (children : List Node)
  deriving Repr

/-- A new line at a depth. -/
def newLine (depth : Nat) : List Char := '\n' :: List.replicate (4 * depth) ' '

/-- Attributes after a tag, each with its value in quotes. -/
def writeAttributes : Fields String → List Char
  | [] => []
  | (key, value) :: rest =>
    ' ' :: key.toList ++ '=' :: '"' :: escape value.toList ++ '"' :: writeAttributes rest

/-- The front of a tag, up to where it closes. -/
def openTag (tag : String) (attributes : Fields String) : List Char := '<' :: tag.toList ++ writeAttributes attributes

/-- A closing tag. -/
def closeTag (tag : String) : List Char := '<' :: '/' :: tag.toList ++ ['>']

mutual

/-- An element on lines of its own. -/
def Node.write (depth : Nat) : Node → List Char
  | .empty tag attributes => newLine depth ++ openTag tag attributes ++ ['/', '>']
  | .text tag attributes content =>
    newLine depth ++ openTag tag attributes ++ '>' :: escape content.toList ++ closeTag tag
  | .parent tag attributes children =>
    newLine depth ++ openTag tag attributes ++ '>' :: writeAll (depth + 1) children ++
      newLine depth ++ closeTag tag

/-- Elements one below another. -/
def writeAll (depth : Nat) : List Node → List Char
  | [] => []
  | node :: rest => node.write depth ++ writeAll depth rest

end

/-- The declaration that a document begins with. -/
def heading : String := "<?xml version=\"1.0\" encoding=\"UTF-8\"?>"

/-- A document with the given root. -/
def write (root : Node) : List Char := heading.toList ++ root.write 0 ++ ['\n']

end RunAudit.Xml
