import RunAudit.Error

/-!
# Octets coming in

What is left of an input. Reading takes all of it, also when it is no text.
-/

namespace RunAudit.Stream

/-- An input that is being read. -/
structure Input where
  left : ByteArray

namespace Input

/-- Whether nothing is left. -/
def isExhausted (input : Input) : Bool := input.left.isEmpty

/-- Takes all that is left as text. -/
def read (input : Input) : Except FileFault String × Input :=
  match Text.Utf8.decode input.left with
  | .ok text => (.ok text, ⟨.empty⟩)
  | .error _ => (.error .notText, ⟨.empty⟩)

/-- The text of an input, with a note of its size. -/
def readAloud (input : Input) : Audit String := do
  let text ← Audit.ofExcept (input.read.1.mapError .unreadable)
  Audit.tell .debug .reader s!"read {input.left.size} bytes of input"
  pure text

/-- A second reading finds nothing. -/
@[simp] theorem isExhausted_read (input : Input) : input.read.2.isExhausted = true := by
  unfold read
  split <;> rfl

end Input

end RunAudit.Stream
