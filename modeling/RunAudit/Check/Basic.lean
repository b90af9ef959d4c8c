import RunAudit.Check.JunitContents
import RunAudit.Check.Outcome
import RunAudit.Check.PluginOutput
import RunAudit.Check.ReportsExist

/-!
# Checks

A check has a name, a description, and a run that reads from a context. The checks after a guard are skipped
unless it passes. `Check.all` is the table of checks; `select` picks some of it by name and keeps its order;
`runAll` runs checks one after another.
-/

namespace RunAudit

/-- A check. -/
structure Check where
  name : String
  description : String
  guard : Bool
  run : Check.Context → Audit Unit

namespace Check

/-- The table of checks. -/
def all : List Check := [
  ⟨"reports_exist", "every expected report exists in the results directory", true, reportsExist⟩,
  ⟨"junit_contents", "the device JUnit report has the expected passing and failing test cases", false,
    junitContents⟩,
  ⟨"plugin_output", "the plugin event log has the expected testing results and tear down", false, pluginOutput⟩]

/-- The checks of the given names, in the order of the table; no names stand for every check. -/
def select (names : List String) : Except Error (List Check) :=
  match names.find? fun name => !all.any (·.name == name) with
  | some unknown => .error (.illegalArguments (.unknownCheck unknown (all.map (·.name))))
  | none => .ok (all.filter fun check => names.isEmpty || names.contains check.name)

/-- The outcome of a check after a guard that did not pass. -/
def skipped (guard : String) (check : Check) : Outcome := ⟨check.name, .skip ("`" ++ guard ++ "` did not pass"), 0⟩

/-- The note on how a check came out. -/
def note (name : String) : Status → Logged Unit
  | .pass => Logged.tell .info .checks s!"check `{name}` passed"
  | .fail e => Logged.tell .error .checks s!"check `{name}` failed: {e.message}"
  | .error e => Logged.tell .error .checks s!"check `{name}` errored: {e.message}"
  | .skip _ => pure ()

/-- Runs one check, which takes the given time. -/
def runOne (elapsed : Milliseconds) (context : Context) (check : Check) : Logged Outcome := do
  Logged.tell .info .checks s!"running check `{check.name}`: {check.description}"
  let result ← (check.run context).run
  let status := Status.ofResult result
  note check.name status
  pure ⟨check.name, status, elapsed⟩

/-- Skips checks because of a guard. -/
def skipAll (guard : String) : List Check → Logged (List Outcome)
  | [] => pure []
  | check :: rest => do
    Logged.tell .info .checks s!"skipping check `{check.name}`"
    let outcomes ← skipAll guard rest
    pure (skipped guard check :: outcomes)

/-- Runs checks in order; once a guard does not pass, the others are skipped. The time that each check takes is told
by its place among them. -/
def runAll (elapsed : Nat → Milliseconds) (context : Context) : List Check → Logged (List Outcome)
  | [] => pure []
  | check :: rest => do
    let outcome ← runOne (elapsed 0) context check
    let outcomes ←
      if check.guard && !outcome.status.isPass then skipAll check.name rest
      else runAll (fun place => elapsed (place + 1)) context rest
    pure (outcome :: outcomes)

end Check

end RunAudit
