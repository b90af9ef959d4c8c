import RunAudit.Text.Utf8

/-!
# Terminal control sequences

A terminal reads octets with a small machine: printable text, escape sequences introduced by `ESC`,
and device or operating-system strings. `strip` keeps what such a machine would print, with line
feeds as the only control character.
-/

namespace RunAudit.Text.Ansi

open RunAudit.Text

/-- Where a terminal stands between two octets. -/
inductive State where
  | ground
  | escape
  | escapeIntermediate
  | csiEntry
  | csiParam
  | csiIntermediate
  | csiIgnore
  | dcsEntry
  | dcsParam
  | dcsIntermediate
  | dcsIgnore
  | dcsPassthrough
  | string
  | osc
  /-- Inside a character of several octets: those read so far, backwards. -/
  | character (need : Utf8.Need) (seen : List UInt8)
  deriving DecidableEq, Repr

/-- The line feed is the one control octet that shows. -/
def executed (b : UInt8) : List Char := if b = 0x0A then ['\n'] else []

/-- Control octets that are obeyed inside a sequence; `CAN`, `SUB` and `ESC` end it instead. -/
def isControl (b : UInt8) : Bool := b < 0x20

/-- The character of a complete sequence of octets, given backwards. -/
def characterOf (seen : List UInt8) : List Char :=
  match String.fromUTF8? ⟨seen.reverse.toArray⟩ with
  | some text => text.toList
  | none => []

/-- Octets between sequences are printed, executed or dropped. -/
def ground (b : UInt8) : State × List Char :=
  if 0x20 ≤ b ∧ b < 0x80 then (.ground, [Char.ofNat b.toNat])
  else if b < 0x20 then (.ground, executed b)
  else match Utf8.Need.ofLead b with
    | some need => (.character need [b], [])
    | none => (.ground, [])

/-- The octet after `ESC` chooses the kind of sequence. -/
def escape (b : UInt8) : State × List Char :=
  if isControl b then (.escape, executed b)
  else if b < 0x30 then (.escapeIntermediate, [])
  else if b = 0x5B then (.csiEntry, [])
  else if b = 0x5D then (.osc, [])
  else if b = 0x50 then (.dcsEntry, [])
  else if b = 0x58 ∨ b = 0x5E ∨ b = 0x5F then (.string, [])
  else if b < 0x7F then (.ground, [])
  else (.escape, [])

/-- The states of a control sequence by the class of the next octet. -/
def control (state parameter marker : State) (b : UInt8) : State × List Char :=
  if isControl b then (state, executed b)
  else if b < 0x30 then (.csiIntermediate, [])
  else if b < 0x3C then (parameter, [])
  else if b < 0x40 then (marker, [])
  else if b < 0x7F then (.ground, [])
  else (state, [])

/-- The states of a device control string before its data. -/
def device (state parameter marker : State) (b : UInt8) : State :=
  if isControl b then state
  else if b < 0x30 then .dcsIntermediate
  else if b < 0x3C then parameter
  else if b < 0x40 then marker
  else if b < 0x7F then .dcsPassthrough
  else state

/-- One octet: the state after it and what it prints. -/
def step (state : State) (b : UInt8) : State × List Char :=
  match state with
  | .character need seen =>
    match need.step b with
    | some .start => (.ground, characterOf (b :: seen))
    | some next => (.character next (b :: seen), [])
    | none => (.ground, ['\ufffd'])
  | state =>
    if b = 0x18 ∨ b = 0x1A then (.ground, [])
    else if b = 0x1B then (.escape, [])
    else match state with
      | .escape => escape b
      | .escapeIntermediate =>
        if isControl b then (.escapeIntermediate, executed b)
        else if 0x30 ≤ b ∧ b < 0x7F then (.ground, []) else (.escapeIntermediate, [])
      | .csiEntry => control .csiEntry .csiParam .csiParam b
      | .csiParam => control .csiParam .csiParam .csiIgnore b
      | .csiIntermediate => control .csiIntermediate .csiIgnore .csiIgnore b
      | .csiIgnore =>
        if isControl b then (.csiIgnore, executed b)
        else if 0x40 ≤ b ∧ b < 0x7F then (.ground, []) else (.csiIgnore, [])
      | .dcsEntry => (device .dcsEntry .dcsParam .dcsParam b, [])
      | .dcsParam => (device .dcsParam .dcsParam .dcsIgnore b, [])
      | .dcsIntermediate => (device .dcsIntermediate .dcsIgnore .dcsIgnore b, [])
      | .dcsIgnore => (if b = 0x9C then .ground else .dcsIgnore, [])
      | .dcsPassthrough => (if b = 0x9C then .ground else .dcsPassthrough, [])
      | .string => (if b = 0x9C then .ground else .string, [])
      | .osc => (if b = 0x07 then .ground else .osc, [])
      | _ => ground b

/-- What is printed for octets read from a state, after what is printed already (backwards). -/
def stripFrom (state : State) (printed : List Char) : List UInt8 → List Char
  | [] => printed.reverse
  | b :: rest =>
    let (next, shown) := step state b
    stripFrom next (shown.reverse ++ printed) rest

/-- The text that octets print, without control sequences and without control characters but `\n`. -/
def strip (octets : List UInt8) : List Char := stripFrom .ground [] octets

end RunAudit.Text.Ansi
