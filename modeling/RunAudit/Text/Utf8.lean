/-!
# UTF-8

Sizes of characters in octets, and why a sequence of octets is no text. `Need` is the machine that
reads octets one at a time; `firstFault` runs it and reports where it stops.
-/

namespace RunAudit.Text.Utf8

/-- The number of octets a text takes. -/
def size (text : List Char) : Nat := text.foldl (fun n c => n + c.utf8Size) 0

/-- The first octet of a character. -/
def leadOctet (c : Char) : Nat :=
  let n := c.toNat
  if n < 0x80 then n
  else if n < 0x800 then 0xC0 + n / 0x40
  else if n < 0x10000 then 0xE0 + n / 0x1000
  else 0xF0 + n / 0x40000

/-- What may follow between the octets of a sequence. -/
inductive Need where
  /-- Between characters. -/
  | start
  /-- One continuation octet. -/
  | tail1
  /-- Two continuation octets. -/
  | tail2
  /-- Three continuation octets. -/
  | tail3
  /-- After `E0`: an octet of `A0`–`BF`, then one more. -/
  | afterE0
  /-- After `ED`: an octet of `80`–`9F`, then one more. -/
  | afterED
  /-- After `F0`: an octet of `90`–`BF`, then two more. -/
  | afterF0
  /-- After `F4`: an octet of `80`–`8F`, then two more. -/
  | afterF4
  deriving DecidableEq, Repr

/-- The state after the first octet of a character. -/
def Need.ofLead (b : UInt8) : Option Need :=
  if b < 0x80 then some .start
  else if b < 0xC2 then none
  else if b < 0xE0 then some .tail1
  else if b = 0xE0 then some .afterE0
  else if b = 0xED then some .afterED
  else if b < 0xF0 then some .tail2
  else if b = 0xF0 then some .afterF0
  else if b < 0xF4 then some .tail3
  else if b = 0xF4 then some .afterF4
  else none

/-- The next state when the octet lies in the range. -/
def Need.within (low high b : UInt8) (next : Need) : Option Need :=
  if low ≤ b ∧ b ≤ high then some next else none

/-- One octet: the state after it, or none where no text continues with it. -/
def Need.step : Need → UInt8 → Option Need
  | .start, b => ofLead b
  | .tail1, b => within 0x80 0xBF b .start
  | .tail2, b => within 0x80 0xBF b .tail1
  | .tail3, b => within 0x80 0xBF b .tail2
  | .afterE0, b => within 0xA0 0xBF b .tail1
  | .afterED, b => within 0x80 0x9F b .tail1
  | .afterF0, b => within 0x90 0xBF b .tail2
  | .afterF4, b => within 0x80 0x8F b .tail2

/-- Where octets stop being text. -/
structure Fault where
  /-- The octets before the faulty sequence. -/
  validUpTo : Nat
  /-- The octets of the faulty sequence, unless the input ends inside it. -/
  length : Option Nat
  deriving DecidableEq, Repr

namespace Fault

/-- The wording of the fault. -/
def message (f : Fault) : String :=
  match f.length with
  | some n => s!"invalid utf-8 sequence of {n} bytes from index {f.validUpTo}"
  | none => s!"incomplete utf-8 byte sequence from index {f.validUpTo}"

end Fault

/-- The first fault from a state in which `seen` octets of a character that starts at `index` are read. -/
def faultFrom (need : Need) (index seen : Nat) : List UInt8 → Option Fault
  | [] => if need = .start then none else some ⟨index, none⟩
  | b :: rest =>
    match need.step b with
    | some .start => faultFrom .start (index + seen + 1) 0 rest
    | some next => faultFrom next index (seen + 1) rest
    | none => some ⟨index, some (max seen 1)⟩

/-- The first fault of a sequence of octets. -/
def firstFault (octets : List UInt8) : Option Fault := faultFrom .start 0 0 octets

/-- The text that octets spell. -/
def decode (octets : ByteArray) : Except Fault String :=
  match String.fromUTF8? octets with
  | some text => .ok text
  | none => .error ((firstFault octets.toList).getD ⟨0, none⟩)

end RunAudit.Text.Utf8
