import RunAudit.Check.Outcome

/-!
# Reports for a terminal

One line for each check, below it what there is to say if it did not pass, and a line with the numbers. The
labels may be coloured.
-/

namespace RunAudit

/-- What the program is called. -/
def programName : String := "run-results-verifier"

namespace Report.Console

open RunAudit.Check

/-- The label of a status. -/
def label : Status → String
  | .pass => "PASS"
  | .fail _ => "FAIL"
  | .error _ => "ERROR"
  | .skip _ => "SKIP"

/-- The graphic rendition that colours the label of a status. -/
def rendition : Status → String
  | .pass => "32"
  | .fail _ => "31"
  | .error _ => "1;31"
  | .skip _ => "33"

/-- The label of a status, in its colour if there are colours. -/
def shownLabel (coloured : Bool) (s : Status) : String :=
  if coloured then "\x1b[" ++ rendition s ++ "m" ++ label s ++ "\x1b[0m" else label s

/-- The lines on a check. -/
def outcomeLines (coloured : Bool) (o : Outcome) : String :=
  shownLabel coloured o.status ++ " " ++ o.name ++ s!" ({o.duration.toNat}ms)\n" ++
    match o.status.message with
    | some message => "    " ++ message ++ "\n"
    | none => ""

/-- The line with the numbers. -/
def tallyLine (count : Nat) (t : Tally) : String :=
  programName ++
    s!": {count} checks, {t.passed} passed, {t.failed} failed, {t.errored} errored, {t.skipped} skipped\n"

/-- A report for a terminal. -/
def write (coloured : Bool) (outcomes : List Outcome) : String :=
  String.join (outcomes.map (outcomeLines coloured)) ++ tallyLine outcomes.length (.ofOutcomes outcomes)

end Report.Console

end RunAudit
