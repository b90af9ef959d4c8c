import RunAudit.Yaml.Fault
import RunAudit.Yaml.Node

/-!
# Decoding nodes

Texts, counts, sequences and records from the nodes of a document. An alias is decoded as the node it stands for.
Any scalar is a text as it is written, and where a collection is expected an empty plain scalar is an empty one.
A misfit is reported at the node that does not fit, with the way to it.
-/

namespace RunAudit.Yaml.Decode

/-- What decoding gives. -/
abbrev Decoded (α : Type) := Except Misfit α

/-- A document, and the way from its root to a node. -/
structure Site where
  document : Document
  way : List Step

namespace Site

/-- A step further. -/
def step (site : Site) (s : Step) : Site := { site with way := site.way ++ [s] }

/-- A misfit at a place. -/
def misfit {α : Type} (site : Site) (cause : Cause) (m : Mark) : Decoded α := .error ⟨cause, site.way, m⟩

/-- The node that an alias stands for, or the node itself. Each alias on the way uses one unit of fuel. -/
def resolve (site : Site) (n : Node) : (fuel : Nat) → Node
  | 0 => n
  | fuel + 1 =>
    match n with
    | .alias number _ =>
      match site.document.find? number with
      | some target => resolve site target fuel
      | none => n
    | _ => n

/-- The node that is decoded in place of a node. An anchored node is no alias, so one step is enough. -/
def target (site : Site) (n : Node) : Node := site.resolve n 1

end Site

/-- The prefix of the tags of scalars. -/
def coreTag (name : String) : String := "tag:yaml.org,2002:" ++ name

/-- The cause for a scalar whose tag asks for a kind of value. -/
def taggedCause (text : String) (meaning : Option Scalar.Meaning) (kind expected : Expected) : Cause :=
  match meaning with
  | some m => .wrongType (Scalar.kind text m) expected
  | none => .wrongValue text kind

/-- What a scalar stands for when it is a truth value. -/
def boolMeaning? (text : String) : Option Scalar.Meaning := (Scalar.boolOf? text).map .bool

/-- What a scalar stands for when it is an integer. -/
def integerMeaning? (text : String) : Option Scalar.Meaning := (Scalar.integer? text.toList).map .integer

/-- What a scalar stands for when it is nothing. -/
def nullMeaning? (text : String) : Option Scalar.Meaning :=
  if Scalar.nullWords.contains text then some .null else none

/-- The cause for a scalar in place of something else. -/
def scalarCause (tag : Option String) (text : String) (style : ScalarStyle) (expected : Expected) : Cause :=
  let asText : Cause := .wrongType (Scalar.kind text .text) expected
  let asPlain : Cause :=
    if style = .plain then .wrongType (Scalar.kind text (Scalar.meaning text)) expected else asText
  match tag with
  | none => asPlain
  | some t =>
    if t = coreTag "bool" then taggedCause text (boolMeaning? text) .truthValue expected
    else if t = coreTag "int" then taggedCause text (integerMeaning? text) .integer expected
    else if t = coreTag "float" then taggedCause text (Scalar.fraction? text.toList) .fraction expected
    else if t = coreTag "null" then taggedCause text (nullMeaning? text) .null expected
    else if t.toList.head? = some '!' then asPlain
    else asText

/-- A misfit of a node in place of something else. -/
def unexpected {α : Type} (site : Site) (n : Node) (expected : Expected) : Decoded α :=
  match n with
  | .alias _ m => site.misfit (.wrongType "unit value" expected) m
  | .scalar tag text style m => site.misfit (scalarCause tag text style expected) m
  | .sequence _ m => site.misfit (.wrongType "sequence" expected) m
  | .mapping _ m => site.misfit (.wrongType "map" expected) m

/-- Whether a node is an empty plain scalar. -/
def isEmpty : Node → Bool
  | .scalar _ text style _ => text = "" && style = .plain
  | _ => false

/-- A text. -/
def string (site : Site) (expected : Expected) (n : Node) : Decoded String :=
  match site.target n with
  | .scalar _ s _ _ => .ok s
  | n => unexpected site n expected

/-- Whether a scalar may be a count: it is plain, or a literal with the tag of integers. -/
def mayCount (tag : Option String) (style : ScalarStyle) : Bool :=
  style = .plain || (style = .literal && tag = some (coreTag "int"))

/-- The largest count. -/
def maxCount : Nat := UInt64.size - 1

/-- The count that a scalar writes. -/
def countOf? (tag : Option String) (s : String) (style : ScalarStyle) : Option Nat :=
  if mayCount tag style then (Scalar.unsigned? s.toList).filter (· ≤ maxCount) else none

/-- A count. -/
def count (site : Site) (n : Node) : Decoded Nat :=
  match site.target n with
  | .scalar tag s style m =>
    match countOf? tag s style with
    | some c => .ok c
    | none => unexpected site (.scalar tag s style m) .count
  | n => unexpected site n .count

/-- Texts, each at its index. -/
def textsFrom (site : Site) (read : List String) (index : Nat) : List Node → Decoded (List String)
  | [] => .ok read.reverse
  | n :: rest =>
    match string (site.step (.item index)) .string n with
    | .ok s => textsFrom site (s :: read) (index + 1) rest
    | .error f => .error f

/-- A sequence of texts. -/
def texts (site : Site) (n : Node) : Decoded (List String) :=
  match site.target n with
  | .sequence items _ => textsFrom site [] 0 items
  | n => if isEmpty n then .ok [] else unexpected site n .sequence

/-- The step to the value of a key. -/
def stepOf : Node → Step
  | .scalar _ s _ _ => .field s
  | _ => .nameless

/-- What a record sets from its fields: the names of the fields, and how a field changes the record. -/
structure Schema (α : Type) where
  name : String
  known : List String
  set : Site → α → String → Node → Decoded α

/-- Sets fields of a record in order; those set are given. -/
def setFields {α : Type} (schema : Schema α) (site : Site) (m : Mark) (seen : List String) (record : α) :
    List (Node × Node) → Decoded α
  | [] => .ok record
  | (key, value) :: rest =>
    match string site .fieldName key with
    | .error f => .error f
    | .ok name =>
      if !schema.known.contains name then
        site.misfit (.unknownField name schema.known) (site.target key).mark
      else if seen.contains name then site.misfit (.repeatedField name) m
      else
        match schema.set (site.step (stepOf key)) record name value with
        | .ok record => setFields schema site m (name :: seen) record rest
        | .error f => .error f

/-- A record with the fields that a mapping names; the others are as in a given one. -/
def record {α : Type} (schema : Schema α) (site : Site) (base : α) (n : Node) : Decoded α :=
  match site.target n with
  | .mapping entries m => setFields schema site m [] base entries
  | n => if isEmpty n then .ok base else unexpected site n (.record schema.name)

end RunAudit.Yaml.Decode
