import RunAudit.Command.Line
import RunAudit.Command.Run

/-!
# The program

A run of the program on a command line: what it writes to standard output and standard error, the file it
writes, and its exit code. Log entries are lines of standard output before the output itself; errors are always
among them, other entries if the command line asks for them.
-/

namespace RunAudit

open RunAudit.Command

/-- The version of the program. -/
def programVersion : String := "1.0.0"

/-- What a run writes and ends with. -/
structure Run where
  code : Nat
  output : String
  messages : String
  file : Option NewFile
  deriving DecidableEq, Repr

namespace Program

/-- The switch for a more talkative log. -/
def verbose : Switch := ⟨"verbose", 'v', .count⟩

/-- The switch that asks for the version. -/
def version : Switch := ⟨"version", 'V', .ends .versionRequested⟩

/-- The switches of the program. -/
def grammar : Grammar := ⟨[version], [verbose]⟩

/-- How much is logged when the switch is given a number of times. -/
def levelOf : Nat → Level
  | 0 => .error
  | 1 => .info
  | 2 => .debug
  | _ => .trace

/-- How the program is used. -/
def usage : String := "Usage: " ++ programName ++ " [OPTIONS] [COMMAND]\n"

/-- The exit code of a command line that is refused. -/
def usageCode : Nat := 2

/-- The exit code of a run that ends in an error. -/
def errorCode : Nat := 255

/-- A run that only writes to standard output. -/
def saying (text : String) : Run := ⟨0, text, "", none⟩

/-- The run of a command line that makes no request. -/
def refuse : UsageFault → Run
  | .helpRequested => saying usage
  | .versionRequested => saying (programName ++ " " ++ programVersion ++ "\n")
  | _ => ⟨usageCode, "", usage, none⟩

/-- The run of a request that logs up to a level. What was written before an error stays. -/
def perform (env : Environment) (limit : Level) (r : Request) : Run :=
  let x := r.execute env
  let w := x.written .nothing
  let output := Entry.lines limit (x.entries .nothing) ++ w.output
  match x.result .nothing with
  | .ok code => ⟨code, output, "", w.files.head?⟩
  | .error e => ⟨errorCode, output, "Error occurred " ++ e.message ++ "\n", w.files.head?⟩

/-- The run of the program on words. One without words or switches is refused. -/
def run (env : Environment) (words : List String) : Run :=
  match grammar.read words with
  | .error f => refuse f
  | .ok line =>
    match line.command with
    | none => if line.before.isEmpty then refuse .noCommand else saying usage
    | some (verb, given) =>
      match Request.ofGiven verb given with
      | .ok r => perform env (levelOf (line.times verbose.long)) r
      | .error f => refuse f

end Program

end RunAudit
