import RunAudit.Check.Basic
import RunAudit.Command.Execution
import RunAudit.Command.Request
import RunAudit.Event.Summary
import RunAudit.Expectations.Document
import RunAudit.Json.Printer
import RunAudit.Report.Junit
import RunAudit.Report.Structured
import RunAudit.Stream.Input
import RunAudit.Yaml.Printer

/-!
# Running requests

A request reads from the disk and from standard input, writes to its output or to a file, and ends in an error or in
an exit code. `Request.run` is what becomes of one that nothing was written before: without an error, its exit code,
its output and the file that it wrote.
-/

namespace RunAudit.Command

/-- What a request reads from, and what is told to it: how long checks take, and the scripts for shells. -/
structure Environment where
  disk : Disk
  input : Stream.Input
  /-- Whether the terminal shows colours. -/
  coloured : Bool
  /-- How long each check takes, by its place among those that are run. -/
  elapsed : Nat → Check.Milliseconds
  /-- The script that completes command lines in a shell. -/
  script : Shell → String

/-- How a request ends without an error. -/
structure Outcome where
  code : Nat
  output : String
  file : Option NewFile
  deriving DecidableEq, Repr

/-- What becomes of a run that ends in an exit code, after something was written. -/
def Execution.outcome (x : Execution Nat) (w : Written) : Audit Outcome :=
  Audit.of (x.entries w) ((x.result w).map fun code => ⟨code, (x.written w).output, (x.written w).files.head?⟩)

/-- The report of an audit in a format. -/
def reportText (format : Report.Format) (coloured : Bool) (name : String) (outcomes : List Check.Outcome) : String :=
  match format with
  | .singleLineSummary => Report.Console.write coloured outcomes
  | .json => String.ofList (Json.pretty (Report.Structured.toValue outcomes))
  | .yaml => String.ofList (Yaml.write (Report.Structured.toValue outcomes))
  | .junit => String.ofList (Report.Junit.write name outcomes)

/-- The expectations that a request names. -/
def expectationsOf (disk : Disk) : Option String → Audit Expectations
  | some path => Expectations.readAloud disk path
  | none => pure .default

/-- What the checks of a request read from. -/
def contextOf (disk : Disk) (r : VerifyRequest) (expectations : Expectations) : Check.Context :=
  ⟨disk, r.resultsDirectory, expectations⟩

/-- Audits a results directory, and then writes the report. -/
def VerifyRequest.execute (env : Environment) (r : VerifyRequest) : Execution Nat := do
  let expectations ← .ofAudit (expectationsOf env.disk r.expectations)
  let checks ← .ofAudit (Audit.ofExcept (Check.select r.checks))
  .ofAudit (Audit.tell .info .verify s!"verifying {checks.length} checks against {r.resultsDirectory}")
  .ofAudit (Audit.tell .debug .verify s!"expectations {expectations.text}")
  let outcomes ← .ofAudit (ExceptT.lift (Check.runAll env.elapsed (contextOf env.disk r expectations) checks))
  .write .output (reportText r.format env.coloured r.resultsDirectory outcomes)
  pure (Check.Tally.ofOutcomes outcomes).exitCode

/-- Audits a results directory. -/
def verify (env : Environment) (r : VerifyRequest) : Audit Outcome := (r.execute env).outcome .nothing

/-- The document that a request is about. -/
def readInput (env : Environment) : Option String → Audit String
  | some path => Audit.ofExcept (env.disk.read path)
  | none =>
    if env.input.isExhausted then Audit.ofExcept (.error (.illegalArguments .noInput)) else env.input.readAloud

/-- A value as a document of its own. -/
def documentText (json : Bool) (v : Value) : String :=
  if json then String.ofList (Json.pretty v) ++ "\n" else String.ofList (Yaml.write v)

/-- Reads a report, and then writes its test cases. -/
def InputRequest.executeCases (env : Environment) (r : InputRequest) : Execution Nat := do
  let text ← .ofAudit (readInput env r.file)
  let cases ← .ofAudit (Junit.readCasesAloud text)
  let failed := cases.records.countP (·.isFailed)
  .ofAudit (Audit.tell .info .junitCases
    s!"{cases.records.length} test cases, {failed} failed, {cases.skipped} skipped")
  .write .output (documentText r.json (.list (cases.records.map (·.toValue))))
  pure 0

/-- Shows the test cases of a report. -/
def junitCases (env : Environment) (r : InputRequest) : Audit Outcome := (r.executeCases env).outcome .nothing

/-- Reads an event log, and then writes what it holds. -/
def InputRequest.executeEvents (env : Environment) (r : InputRequest) : Execution Nat := do
  let text ← .ofAudit (readInput env r.file)
  let buckets ← .ofAudit (Event.readBucketsAloud text)
  .write .output (documentText r.json (Event.Summary.ofBuckets buckets).toValue)
  pure 0

/-- Shows what an event log holds. -/
def events (env : Environment) (r : InputRequest) : Audit Outcome := (r.executeEvents env).outcome .nothing

/-- The name of the file that the script for a shell is written to. -/
def scriptName (shell : Shell) : String := programName ++ "." ++ shell.extension

/-- Where a script goes: to a new file in a directory if one is named, which must be there. -/
def CompletionsRequest.target (env : Environment) (r : CompletionsRequest) : Execution Target :=
  match r.location with
  | none => pure .output
  | some directory =>
    if env.disk.isDirectory directory then do
      let path := Path.join directory (scriptName r.shell)
      .ofAudit (Audit.tell .info .completions s!"writing completions to {path}")
      .create env.disk directory (scriptName r.shell)
    else .ofAudit (Audit.ofExcept (.error (.invalidCompletionsPath directory)))

/-- Finds out where a script goes, and then writes it. -/
def CompletionsRequest.execute (env : Environment) (r : CompletionsRequest) : Execution Nat := do
  let target ← r.target env
  .write target (env.script r.shell)
  pure 0

/-- Writes a script that completes command lines. -/
def completions (env : Environment) (r : CompletionsRequest) : Audit Outcome := (r.execute env).outcome .nothing

/-- Executes a request. -/
def Request.execute (env : Environment) : Request → Execution Nat
  | .verify r => r.execute env
  | .junitCases r => r.executeCases env
  | .events r => r.executeEvents env
  | .completions r => r.execute env

/-- Runs a request. -/
def Request.run (env : Environment) : Request → Audit Outcome
  | .verify r => Command.verify env r
  | .junitCases r => Command.junitCases env r
  | .events r => Command.events env r
  | .completions r => Command.completions env r

/-- The paths that a request looks at, as far as they can be told from what is known of the disk. -/
def Request.paths (disk : Disk) : Request → List String
  | .verify r =>
    r.expectations.toList ++
      match (expectationsOf disk r.expectations).result with
      | .ok e => (e.reports ++ [e.junit.report, e.pluginOutput.report]).map (contextOf disk r e).pathOf
      | .error _ => []
  | .junitCases r => r.file.toList
  | .events r => r.file.toList
  | .completions r => r.location.toList.flatMap fun directory => [directory, Path.join directory (scriptName r.shell)]

/-- Whether a request reads from standard input. -/
def Request.readsInput : Request → Bool
  | .verify _ => false
  | .junitCases r => r.file.isNone
  | .events r => r.file.isNone
  | .completions _ => false

end RunAudit.Command
