import RunAudit.Command.Switch
import RunAudit.Report.Format

/-!
# Requests

The commands of the program with their switches, and the requests that their command lines make.
-/

namespace RunAudit.Command

/-- A shell that completes command lines. -/
inductive Shell where
  | bash
  | zsh
  | fish
  | powershell
  deriving DecidableEq, Repr

namespace Shell

/-- Every shell. -/
def all : List Shell := [bash, zsh, fish, powershell]

/-- The name of a shell. -/
def name : Shell → String
  | bash => "bash"
  | zsh => "zsh"
  | fish => "fish"
  | powershell => "powershell"

/-- The extension of a shell's scripts. -/
def extension : Shell → String
  | bash => "bash"
  | zsh => "zsh"
  | fish => "fish"
  | powershell => "ps1"

/-- The shell of a name. -/
def ofName? (name : String) : Option Shell := all.find? (·.name == name)

end Shell

/-- A command by what it does. -/
inductive Verb where
  | verify
  | junitCases
  | events
  | completions
  deriving DecidableEq, Repr

namespace Verb

/-- Every command. -/
def all : List Verb := [verify, junitCases, events, completions]

/-- The name of a command. -/
def name : Verb → String
  | verify => "verify"
  | junitCases => "junit-cases"
  | events => "events"
  | completions => "completions"

/-- The command of a name. -/
def ofName? (name : String) : Option Verb := all.find? (·.name == name)

/-- The switch that asks for help. -/
def help : Switch := ⟨"help", 'h', .ends .helpRequested⟩

/-- The switches of a command that reads a document. -/
def inputSwitches : List Switch := [
  ⟨"file", 'f', .value none false⟩,
  ⟨"print-json", 'p', .flag⟩]

/-- The switches of a command. -/
def switches : Verb → List Switch
  | verify => [
    ⟨"results-dir", 'd', .value none false⟩,
    ⟨"expectations", 'e', .value none false⟩,
    ⟨"check", 'c', .value none true⟩,
    ⟨"output-format", 'o', .value (some (Report.Format.all.map (·.name))) false⟩]
  | junitCases => inputSwitches
  | events => inputSwitches
  | completions => [
    ⟨"shell", 's', .value (some (Shell.all.map (·.name))) false⟩,
    ⟨"location", 'l', .value none false⟩]

end Verb

/-- A request to audit a results directory. -/
structure VerifyRequest where
  resultsDirectory : String
  expectations : Option String
  checks : List String
  format : Report.Format
  deriving DecidableEq, Repr

/-- A request to show what a document holds, read from a file or from standard input. -/
structure InputRequest where
  file : Option String
  json : Bool
  deriving DecidableEq, Repr

/-- A request for a script that completes command lines, written to a directory or to standard output. -/
structure CompletionsRequest where
  shell : Shell
  location : Option String
  deriving DecidableEq, Repr

/-- What a command line asks for. -/
inductive Request where
  | verify (r : VerifyRequest)
  | junitCases (r : InputRequest)
  | events (r : InputRequest)
  | completions (r : CompletionsRequest)
  deriving DecidableEq, Repr

/-- Where the results of a run are by default. -/
def defaultResultsDirectory : String := "auxiliary/tempfolder/test-results"

/-- The format that was asked for. -/
def formatOf (given : List Given) : Report.Format :=
  match (valueOf? given "output-format").bind fun name => (Report.Format.ofName name).toOption with
  | some format => format
  | none => .singleLineSummary

/-- The request of a command for a document. -/
def inputOf (given : List Given) : InputRequest := ⟨valueOf? given "file", isGiven given "print-json"⟩

/-- The request of a command with switches. -/
def Request.ofGiven (verb : Verb) (given : List Given) : Except UsageFault Request :=
  match verb with
  | .verify =>
    .ok (.verify ⟨(valueOf? given "results-dir").getD defaultResultsDirectory, valueOf? given "expectations",
      valuesOf given "check", formatOf given⟩)
  | .junitCases => .ok (.junitCases (inputOf given))
  | .events => .ok (.events (inputOf given))
  | .completions =>
    match (valueOf? given "shell").bind Shell.ofName? with
    | some shell => .ok (.completions ⟨shell, valueOf? given "location"⟩)
    | none => .error .missingSwitch

end RunAudit.Command
