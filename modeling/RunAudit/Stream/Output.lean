import RunAudit.Text.Ansi

/-!
# Octets going out

Results and messages go to sinks of their own. A sink in memory keeps what is written and can be read back; one
that passes everything on cannot.
-/

namespace RunAudit.Stream

/-- Where octets go. -/
inductive Sink where
  /-- A sink in memory, with what was written to it. -/
  | memory (written : ByteArray)
  /-- A sink that passes octets on. -/
  | passing

/-- Why a sink cannot be read back. -/
inductive SinkFault where
  | notInMemory
  | notText (fault : Text.Utf8.Fault)
  deriving DecidableEq, Repr

/-- The wording of a fault of a sink. -/
def SinkFault.message : SinkFault → String
  | .notInMemory => "only in-memory output can be read back"
  | .notText f => f.message

namespace Sink

/-- An empty sink in memory. -/
def empty : Sink := .memory .empty

/-- Writes octets. -/
def write (sink : Sink) (octets : ByteArray) : Sink :=
  match sink with
  | .memory written => .memory (written ++ octets)
  | .passing => .passing

/-- The octets of a sink in memory. -/
def octets : Sink → Except SinkFault ByteArray
  | .memory written => .ok written
  | .passing => .error .notInMemory

/-- The text that was written. -/
def text (sink : Sink) : Except SinkFault String :=
  sink.octets.bind fun written => (Text.Utf8.decode written).mapError .notText

/-- The text that a terminal shows. -/
def stripped (sink : Sink) : Except SinkFault String :=
  sink.octets.map fun written => String.ofList (Text.Ansi.strip written.toList)

end Sink

/-- The sinks of a run. -/
structure Output where
  results : Sink
  messages : Sink

namespace Output

/-- Writes results. -/
def write (output : Output) (octets : ByteArray) : Output := { output with results := output.results.write octets }

/-- Writes a message on a line of its own. -/
def writeMessage (output : Output) (octets : ByteArray) : Output :=
  { output with messages := output.messages.write (octets ++ "\n".toUTF8) }

end Output

end RunAudit.Stream
