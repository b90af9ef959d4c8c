import RunAudit.Check.Context

/-!
# Reports that must exist

Every expected report has to be there. The first that is not is the error.
-/

namespace RunAudit.Check

/-- Checks that there is something at each of the paths. -/
def requireAll (disk : Disk) : List String → Audit Unit
  | [] => pure ()
  | path :: rest => do
    disk.requireAloud path
    requireAll disk rest

/-- Checks that the expected reports exist. -/
def reportsExist (c : Context) : Audit Unit := requireAll c.disk (c.expectations.reports.map c.pathOf)

/-- All paths are there just when the check of them passes. -/
theorem result_requireAll_eq_ok_iff {disk : Disk} : ∀ {paths : List String},
    (requireAll disk paths).result = .ok () ↔ ∀ path ∈ paths, disk.holds path = true
  | [] => by simp [requireAll]
  | path :: rest => by
    simp only [requireAll, Disk.requireAloud, Audit.result_bind, Audit.result_ofExcept, Disk.require,
      List.forall_mem_cons]
    cases disk.holds path
    · simp [Except.bind]
    · simp [Except.bind, result_requireAll_eq_ok_iff]

end RunAudit.Check
