import RunAudit.Error
import RunAudit.Expectations
import RunAudit.File.Disk
import RunAudit.Text.Blank
import RunAudit.Yaml.Decode

/-!
# Expectations from a document

A document names the fields in which expectations differ from the defaults, at the top and in each of the two
records below. A blank text names none.
-/

namespace RunAudit

open RunAudit.Yaml.Decode

namespace JunitExpectations

/-- The fields of what is expected of test cases. -/
def schema : Schema JunitExpectations where
  name := "JunitExpectations"
  known := ["report", "case_count", "successful", "failed"]
  set site e name value :=
    match name with
    | "report" => (string site .string value).map fun s => { e with report := s }
    | "case_count" => (count site value).map fun n => { e with caseCount := n }
    | "successful" => (texts site value).map fun names => { e with successful := .ofList names }
    | "failed" => (texts site value).map fun names => { e with failed := .ofList names }
    | _ => .ok e

end JunitExpectations

namespace PluginExpectations

/-- The fields of what is expected of events. -/
def schema : Schema PluginExpectations where
  name := "PluginOutputExpectations"
  known := ["report", "test_entries", "passing_runs", "failing_runs", "tear_down_events", "unknown_events"]
  set site e name value :=
    match name with
    | "report" => (string site .string value).map fun s => { e with report := s }
    | "test_entries" => (texts site value).map fun names => { e with testEntries := names }
    | "passing_runs" => (texts site value).map fun names => { e with passingRuns := names }
    | "failing_runs" => (texts site value).map fun names => { e with failingRuns := names }
    | "tear_down_events" => (count site value).map fun n => { e with tearDownEvents := n }
    | "unknown_events" => (count site value).map fun n => { e with unknownEvents := n }
    | _ => .ok e

end PluginExpectations

namespace Expectations

/-- The fields of expectations. -/
def schema : Schema Expectations where
  name := "Expectations"
  known := ["reports", "junit", "plugin_output"]
  set site e name value :=
    match name with
    | "reports" => (texts site value).map fun names => { e with reports := names }
    | "junit" => (record JunitExpectations.schema site .default value).map fun j => { e with junit := j }
    | "plugin_output" => (record PluginExpectations.schema site .default value).map fun p => { e with pluginOutput := p }
    | _ => .ok e

/-- The expectations of a document. -/
def ofDocument (d : Yaml.Document) : Except Yaml.Misfit Expectations :=
  match d.root with
  | some root => record schema ⟨d, []⟩ .default root
  | none => .ok .default

/-- The expectations of a text. -/
def parse (text : String) : Except Error Expectations :=
  if Text.Blank.isBlank text then .ok .default
  else
    match Yaml.Document.ofText? text with
    | some d => (ofDocument d).mapError fun m => .yaml (.misfit m)
    | none => .error (.yaml .illFormed)

/-- The expectations in a file, with a note of its path. -/
def readAloud (disk : Disk) (path : String) : Audit Expectations := do
  let text ← Audit.ofExcept (disk.read path)
  Audit.tell .info .expectations s!"using expectations from {path}"
  Audit.ofExcept (parse text)

end Expectations

end RunAudit
