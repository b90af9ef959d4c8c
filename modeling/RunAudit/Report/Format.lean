import RunAudit.Error

/-!
# Formats of reports

The formats in which an audit reports, by name.
-/

namespace RunAudit.Report

/-- A format of reports. -/
inductive Format where
  | singleLineSummary
  | json
  | yaml
  | junit
  deriving DecidableEq, Repr

namespace Format

/-- The name of a format. -/
def name : Format → String
  | singleLineSummary => "single-line-summary"
  | json => "json"
  | yaml => "yaml"
  | junit => "junit"

/-- Every format. -/
def all : List Format := [singleLineSummary, json, yaml, junit]

/-- The format of a name. -/
def ofName (name : String) : Except Error Format :=
  match all.find? (·.name == name) with
  | some format => .ok format
  | none => .error (.illegalArguments (.unsupportedFormat name))

/-- A format is found by its name. -/
@[simp] theorem ofName_name (format : Format) : ofName format.name = .ok format := by cases format <;> rfl

end Format

end RunAudit.Report
