import RunAudit.Yaml.Event
import RunAudit.Yaml.Scalar
import RunAudit.Yaml.Token.Stream

/-!
# Documents

A document is a tree of nodes, each at its place. A name that nodes are anchored to has a number, the count of
names known before it, and an alias stands for the number of its name; a number stands for the last node that
began under it.
-/

namespace RunAudit.Yaml

/-- A node. -/
inductive Node where
  | alias (number : Nat) (mark : Mark)
  | scalar (tag : Option String) (text : String) (style : ScalarStyle) (mark : Mark)
  | sequence (items : List Node) (mark : Mark)
  | mapping (entries : List (Node × Node)) (mark : Mark)
  deriving Repr

/-- Where a node begins. -/
def Node.mark : Node → Mark
  | .alias _ m => m
  | .scalar _ _ _ m => m
  | .sequence _ m => m
  | .mapping _ m => m

/-- An anchored node: the number of its name, and how many events precede it. -/
structure Anchored where
  number : Nat
  order : Nat
  node : Node
  deriving Repr

/-- A document. One without content has no root. -/
structure Document where
  root : Option Node
  anchored : List Anchored
  deriving Repr

/-- The later of two anchored nodes. -/
def Anchored.later (a b : Anchored) : Anchored := if a.order < b.order then b else a

/-- The node that a number stands for. -/
def Document.find? (d : Document) (number : Nat) : Option Node :=
  match d.anchored.filter (·.number == number) with
  | [] => none
  | first :: rest => some (rest.foldl Anchored.later first).node

namespace Document

/-- A collection that is being read: its items or its keys and values, the last first. -/
structure Open where
  isMapping : Bool
  items : List Node
  anchor : Option (Nat × Nat)
  mark : Mark

/-- A document that is being read: the open collections, the innermost first, the root, the names with their numbers,
the anchored nodes, and how many events were read. -/
structure Builder where
  opened : List Open
  root : Option Node
  names : List (String × Nat)
  anchored : List Anchored
  count : Nat

namespace Builder

/-- Nothing read. -/
def empty : Builder := ⟨[], none, [], [], 0⟩

/-- Keys with the values after them, from items backwards. -/
def pairUp (entries : List (Node × Node)) : List Node → List (Node × Node)
  | value :: key :: rest => pairUp ((key, value) :: entries) rest
  | _ => entries

/-- The node of a collection that ends. -/
def nodeOf (o : Open) : Node :=
  if o.isMapping then .mapping (pairUp [] o.items) o.mark else .sequence o.items.reverse o.mark

/-- Gives an anchored name its number: the count of names, whether it is known or not. -/
def name (b : Builder) (anchor : Option String) : Option (Nat × Nat) × Builder :=
  match anchor with
  | none => (none, b)
  | some a =>
    let number := b.names.length
    let names := if b.names.any (·.1 == a) then b.names.map fun (n, i) => if n = a then (n, number) else (n, i)
      else (a, number) :: b.names
    (some (number, b.count), { b with names := names })

/-- Adds a node to the innermost collection, or as the root. -/
def add (b : Builder) (anchor : Option (Nat × Nat)) (n : Node) : Builder :=
  let anchored :=
    match anchor with
    | some (number, order) => ⟨number, order, n⟩ :: b.anchored
    | none => b.anchored
  match b.opened with
  | o :: rest => { b with opened := { o with items := n :: o.items } :: rest, anchored := anchored }
  | [] => { b with root := some n, anchored := anchored }

/-- Begins a collection. -/
def enter (b : Builder) (isMapping : Bool) (p : Properties) (m : Mark) : Builder :=
  let (anchor, b) := b.name p.anchor
  { b with opened := ⟨isMapping, [], anchor, m⟩ :: b.opened }

/-- Ends the innermost collection. -/
def leave (b : Builder) : Builder :=
  match b.opened with
  | o :: rest => { b with opened := rest }.add o.anchor (nodeOf o)
  | [] => b

/-- Takes an event; an alias of an unknown name is none. -/
def accept? (b : Builder) (e : Event) : Option Builder :=
  match e with
  | .alias name m =>
    (b.names.find? fun entry => entry.1 == name).map fun (_, number) => b.add none (.alias number m)
  | .scalar p text style m =>
    let (anchor, b) := b.name p.anchor
    some (b.add anchor (.scalar p.tag text style m))
  | .sequenceStart p m => some (b.enter false p m)
  | .mappingStart p m => some (b.enter true p m)
  | .sequenceEnd | .mappingEnd => some b.leave

/-- Takes events in order. -/
def acceptAll? (b : Builder) : List Event → Option Builder
  | [] => some b
  | e :: rest =>
    match b.accept? e with
    | some b => acceptAll? { b with count := b.count + 1 } rest
    | none => none

end Builder

/-- The document of events. -/
def ofEvents? (events : List Event) : Option Document :=
  (Builder.empty.acceptAll? events).map fun b => ⟨b.root, b.anchored⟩

/-- The document of a text, if it is well-formed. -/
def ofText? (text : String) : Option Document :=
  ((tokens? text.toList).bind Event.ofTokens?).bind ofEvents?

end Document

end RunAudit.Yaml
