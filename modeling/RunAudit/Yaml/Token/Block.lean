import RunAudit.Yaml.Mark

/-!
# Block scalars

A literal or folded scalar is the lines below its indicator that are moved in. How far is told after the
indicator or by the first line that is not empty. A folded scalar has a space for a line break between two
lines that begin with no blank. The end may keep all line breaks, one or none.
-/

namespace RunAudit.Yaml.Block

/-- Which line breaks at its end a scalar keeps. -/
inductive Chomping where
  | strip
  | clip
  | keep
  deriving DecidableEq, Repr

/-- What stands after the indicator of a block scalar. -/
structure Header where
  chomping : Chomping
  increment : Option Nat
  deriving DecidableEq, Repr

/-- The chomping that an indicator asks for. -/
def chomping? : Char → Option Chomping
  | '+' => some .keep
  | '-' => some .strip
  | _ => none

/-- The increment that a digit asks for. -/
def increment? (c : Char) : Option Nat := if c.isDigit then some (c.toNat - '0'.toNat) else none

/-- The header at the front of a text, and how many characters write it. -/
def header (s : List Char) : Header × Nat :=
  match s.head?.bind chomping?, s.head?.bind increment? with
  | some c, _ =>
    match (s.drop 1).head?.bind increment? with
    | some n => (⟨c, some n⟩, 2)
    | none => (⟨c, none⟩, 1)
  | none, some n =>
    match (s.drop 1).head?.bind chomping? with
    | some c => (⟨c, some n⟩, 2)
    | none => (⟨.clip, some n⟩, 1)
  | none, none => (⟨.clip, none⟩, 0)

/-- What empty lines at a place lead to: the line breaks (backwards), the widest of them, and what is left at the
first character that counts. -/
structure Gap where
  breaks : List Char
  widest : Nat
  rest : Rest

/-- Passes over empty lines and the blanks that move the next one in, up to a column if one is given. A tab may
not stand in their place. -/
def gap? (indent : Option Nat) (breaks : List Char) (widest : Nat) (s : List Char) (m : Mark) :
    Option Gap :=
  let inside := indent.all fun n => m.column < n
  let here : Gap := ⟨breaks, max widest m.column, ⟨s, m⟩⟩
  match s with
  | [] => some here
  | '\r' :: '\n' :: rest =>
    gap? indent ('\n' :: breaks) (max widest m.column) rest (m.newLine 2)
  | c :: rest =>
    if isBreak c then gap? indent (foldBreak c :: breaks) (max widest m.column) rest (m.newLine 1)
    else if c = ' ' && inside then gap? indent breaks widest rest m.next
    else if c = '\t' && inside then none
    else some here

/-- The line break at the front of a text as it counts, if there is one. -/
def breakOf (s : List Char) : List Char :=
  match s with
  | c :: _ => if isBreak c then [foldBreak c] else []
  | [] => []

/-- A block scalar: its text, and what is left. -/
structure Result where
  text : List Char
  rest : Rest

/-- What stands for the end of a line and the empty lines after it, when another line follows. -/
def joint (folded previousBlank nextBlank : Bool) (ending breaks : List Char) : List Char :=
  if folded && ending = ['\n'] && !previousBlank && !nextBlank then if breaks.isEmpty then [' '] else breaks
  else breaks ++ ending

/-- The end of a scalar after its last line. -/
def tail (chomping : Chomping) (ending breaks : List Char) : List Char :=
  match chomping with
  | .strip => []
  | .clip => ending
  | .keep => breaks ++ ending

/-- Reads lines at a column, from after the text (backwards), the end of the line before and the empty lines
since; each line uses one unit of fuel. -/
def lines? (folded : Bool) (chomping : Chomping) (indent : Nat) (text ending : List Char) (previousBlank : Bool)
    (g : Gap) : (fuel : Nat) → Option Result
  | 0 => none
  | fuel + 1 =>
    if g.rest.mark.column = indent && !g.rest.text.isEmpty then
      let nextBlank := g.rest.text.head?.any isBlank
      let text := joint folded previousBlank nextBlank ending g.breaks ++ text
      let (line, rest) := g.rest.takeWhile fun c => !isBreak c
      let after := rest.skipBreak
      match gap? (some indent) [] 0 after.text after.mark with
      | some next => lines? folded chomping indent (line.reverse ++ text) (breakOf rest.text) nextBlank next fuel
      | none => none
    else some ⟨(tail chomping ending g.breaks ++ text).reverse, g.rest⟩

/-- The column of the lines of a scalar in a collection at a column: told, or that of the widest line so far. -/
def columnOf (parent : Int) (increment : Option Nat) (widest : Nat) : Nat :=
  match increment with
  | some n => (max parent 0).toNat + n
  | none => max (max widest (parent + 1).toNat) 1

/-- Reads a block scalar after its indicator, in a collection at a column. -/
def read (folded : Bool) (parent : Int) (r : Rest) : Option Result :=
  let (h, size) := header r.text
  if h.increment = some 0 then none
  else
    match (r.past size).toLineEnd? with
    | none => none
    | some r =>
      let told := h.increment.map fun _ => columnOf parent h.increment 0
      match gap? told [] 0 r.text r.mark with
      | none => none
      | some g =>
        let indent := told.getD (columnOf parent none g.widest)
        lines? folded h.chomping indent [] [] false g (r.text.length + 1)

end RunAudit.Yaml.Block
