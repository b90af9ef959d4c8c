import RunAudit.Xml.Item

/-!
# Elements opening and closing

The tags of a text as events: an element starts, an element without content stands, an element ends. The
reader keeps the names of the elements that are open, the innermost first, and a closing tag must have the
innermost name. `events` lists the events of a text and the fault that ended them.
-/

namespace RunAudit.Xml

/-- What a tag does. A tag that opens or stands for an element keeps its content. -/
inductive Event where
  | start (content : List Char)
  | empty (content : List Char)
  | stop (name : List Char)
  deriving DecidableEq, Repr

/-- The name at the front of a tag's content. -/
def nameOf (content : List Char) : List Char := content.takeWhile fun c => !isSpace c

/-- White space that may follow the name in a closing tag. -/
def isClosingSpace (c : Char) : Bool := isSpace c || c = '\x0c'

/-- The name of a closing tag without the blanks after it. A name of blanks alone keeps them. -/
def closingName (name : List Char) : List Char :=
  if name.all isClosingSpace then name else (name.reverse.dropWhile isClosingSpace).reverse

/-- One tag in front of which the elements of the given names are open: the names open after it, and what
it does. -/
def readItem (opened : List (List Char)) (item : Item) : Except Fault (List (List Char) × Event) :=
  match item with
  | .opening content => .ok (nameOf content :: opened, .start content)
  | .empty content => .ok (opened, .empty content)
  | .closing name =>
    match opened with
    | [] => .error (.mismatchedClose "" (String.ofList name))
    | innermost :: rest =>
      if closingName name = innermost then .ok (rest, .stop innermost)
      else .error (.mismatchedClose (String.ofList innermost) (String.ofList (closingName name)))

/-- The events of a text, and the fault that ended them. -/
structure Events where
  events : List Event
  fault : Option Fault
  deriving DecidableEq, Repr

/-- The events of tags in front of which elements are open, after the events read (backwards). -/
def eventsFrom (opened : List (List Char)) (read : List Event) (last : Option Fault) : List Item → Events
  | [] => ⟨read.reverse, last⟩
  | item :: rest =>
    match readItem opened item with
    | .ok (opened, e) => eventsFrom opened (e :: read) last rest
    | .error f => ⟨read.reverse, some f⟩

/-- The events of a text. -/
def events (text : List Char) : Events :=
  let found := scan text
  eventsFrom [] [] found.fault found.items

end RunAudit.Xml
