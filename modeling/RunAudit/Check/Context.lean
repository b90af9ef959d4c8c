import RunAudit.Expectations
import RunAudit.File.Disk
import RunAudit.File.Path

/-!
# What a check reads from

A check sees the disk, the directory of the results, and the expectations.
-/

namespace RunAudit.Check

/-- Everything that a check reads from. -/
structure Context where
  disk : Disk
  resultsDirectory : String
  expectations : Expectations

/-- The path of a report. -/
def Context.pathOf (c : Context) (report : String) : String := Path.join c.resultsDirectory report

end RunAudit.Check
