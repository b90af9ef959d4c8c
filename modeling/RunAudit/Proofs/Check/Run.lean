import RunAudit.Check.Basic

/-!
# Runs of checks

A run ends with the code 0 just when no outcome is a failure or an error (`exitCode_eq_zero_iff`). A check that did
not pass is itself a failure or an error, whatever is skipped because of it, so a run of checks ends with the code 0
just when each of them passes (`exitCode_runAll_eq_zero_iff`).
-/

namespace RunAudit.Check

/-- Outcomes that leave a run without fault: no failure and no error among them. -/
def AllClear (outcomes : List Outcome) : Prop :=
  ∀ o ∈ outcomes, o.status.isFail = false ∧ o.status.isError = false

theorem allClear_nil : AllClear [] := fun _ h => by cases h

theorem allClear_cons {o : Outcome} {rest : List Outcome} :
    AllClear (o :: rest) ↔ (o.status.isFail = false ∧ o.status.isError = false) ∧ AllClear rest :=
  List.forall_mem_cons

/-- The code of a tally is 0 just when it counts no failure and no error. -/
theorem Tally.exitCode_eq_zero_iff {t : Tally} : t.exitCode = 0 ↔ t.failed = 0 ∧ t.errored = 0 := by
  unfold Tally.exitCode
  split
  · omega
  · split <;> omega

/-- **The exit code is 0** just when nothing failed and nothing ended in an error. -/
theorem exitCode_eq_zero_iff {outcomes : List Outcome} :
    (Tally.ofOutcomes outcomes).exitCode = 0 ↔ AllClear outcomes := by
  have hfailed : (Tally.ofOutcomes outcomes).failed = 0 ↔ ∀ o ∈ outcomes, ¬o.status.isFail = true :=
    List.countP_eq_zero
  have herrored : (Tally.ofOutcomes outcomes).errored = 0 ↔ ∀ o ∈ outcomes, ¬o.status.isError = true :=
    List.countP_eq_zero
  rw [Tally.exitCode_eq_zero_iff, hfailed, herrored]
  constructor
  · rintro ⟨hf, he⟩ o ho
    exact ⟨Bool.eq_false_iff.2 (hf o ho), Bool.eq_false_iff.2 (he o ho)⟩
  · intro h
    exact ⟨fun o ho => Bool.eq_false_iff.1 (h o ho).1, fun o ho => Bool.eq_false_iff.1 (h o ho).2⟩

/-! ## One check -/

/-- A result is a pass, or its status is a failure or an error. -/
theorem isPass_ofResult {result : Except Error Unit} : (Status.ofResult result).isPass = true ↔ result = .ok () := by
  cases result with
  | ok _ => simp [Status.ofResult, Status.isPass]
  | error e =>
    by_cases h : e.isFailure = true <;> simp [Status.ofResult, Status.isPass, h]

/-- A result leaves a run without fault just when it is a pass. -/
theorem clear_ofResult {result : Except Error Unit} :
    ((Status.ofResult result).isFail = false ∧ (Status.ofResult result).isError = false) ↔ result = .ok () := by
  cases result with
  | ok _ => simp [Status.ofResult, Status.isFail, Status.isError]
  | error e =>
    by_cases h : e.isFailure = true <;> simp [Status.ofResult, Status.isFail, Status.isError, h]

/-- The outcome of a check that is run. -/
theorem value_runOne (elapsed : Milliseconds) (context : Context) (check : Check) :
    (runOne elapsed context check).value = ⟨check.name, .ofResult (check.run context).result, elapsed⟩ := rfl

/-! ## Runs -/

/-- The outcomes of a run: that of its first check, and those of the others, run or skipped. -/
theorem value_runAll_cons (elapsed : Nat → Milliseconds) (context : Context) (check : Check) (rest : List Check) :
    (runAll elapsed context (check :: rest)).value =
      (runOne (elapsed 0) context check).value ::
        (if check.guard && !(Status.ofResult (check.run context).result).isPass then skipAll check.name rest
          else runAll (fun place => elapsed (place + 1)) context rest).value := by
  rw [runAll, Logged.value_bind, value_runOne]
  split <;> rfl

/-- **A run of checks ends with the code 0** just when each of them passes. -/
theorem exitCode_runAll_eq_zero_iff (elapsed : Nat → Milliseconds) (context : Context) (checks : List Check) :
    (Tally.ofOutcomes (runAll elapsed context checks).value).exitCode = 0 ↔
      ∀ check ∈ checks, (check.run context).result = .ok () := by
  rw [exitCode_eq_zero_iff]
  induction checks generalizing elapsed with
  | nil => exact iff_of_true allClear_nil fun _ h => by cases h
  | cons check rest ih =>
    rw [List.forall_mem_cons, value_runAll_cons, allClear_cons, value_runOne, clear_ofResult]
    -- a check that passes is never a guard that skips the rest
    by_cases hpass : (check.run context).result = .ok ()
    · have hguard : (check.guard && !(Status.ofResult (check.run context).result).isPass) = false := by
        rw [isPass_ofResult.2 hpass]
        simp
      rw [hguard, if_neg Bool.false_ne_true, ih]
    · constructor
      · rintro ⟨h, _⟩
        exact absurd h hpass
      · rintro ⟨h, _⟩
        exact absurd h hpass

end RunAudit.Check
