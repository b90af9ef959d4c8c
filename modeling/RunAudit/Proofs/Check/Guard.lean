import RunAudit.Proofs.Check.Run

/-!
# Checks under guards

`Guarded elapsed context checks outcomes` says how checks come out: each has the outcome of its own run up to the first
guard that does not pass, and those behind that guard are skipped because of it. A run of checks comes out so
(`guarded_runAll`), and the status of a check that is run is that of its result (`StatusOf`), never that it was skipped.
The exit code counts failures and errors only, but a check is skipped only behind a failure or an error, so the code of
a run is 0 just when every check passed (`runAll_outcomes_exitCode`).
-/

namespace RunAudit.Check

/-! ## Outcomes -/

/-- A check lets those behind it run unless it is a guard that does not pass. -/
def Lets (context : Context) (check : Check) : Prop := check.guard = true → (check.run context).result = .ok ()

/-- **The status of a result**: that of a pass, of a failure if the error is a finding, and otherwise of an error. -/
inductive StatusOf : Except Error Unit → Status → Prop
  | pass : StatusOf (.ok ()) .pass
  | fail {e : Error} : e.isFailure = true → StatusOf (.error e) (.fail e)
  | error {e : Error} : e.isFailure = false → StatusOf (.error e) (.error e)

theorem statusOf_ofResult (result : Except Error Unit) : StatusOf result (.ofResult result) := by
  cases result with
  | ok _ => exact .pass
  | error e =>
    cases h : e.isFailure with
    | true => simpa [Status.ofResult, h] using StatusOf.fail h
    | false => simpa [Status.ofResult, h] using StatusOf.error h

theorem StatusOf.isSkip_eq_false {result : Except Error Unit} {s : Status} (h : StatusOf result s) :
    s.isSkip = false := by
  cases h <;> rfl

/-- The status of a check that is run is never that it was skipped. -/
theorem isSkip_ofResult (result : Except Error Unit) : (Status.ofResult result).isSkip = false :=
  (statusOf_ofResult result).isSkip_eq_false

/-- The outcome of a check that is run. -/
def ownOutcome (context : Context) (elapsed : Milliseconds) (check : Check) : Outcome :=
  ⟨check.name, .ofResult (check.run context).result, elapsed⟩

/-- The outcomes of checks that are run one after another. -/
def ownOutcomes (elapsed : Nat → Milliseconds) (context : Context) (checks : List Check) : List Outcome :=
  checks.mapIdx fun place check => ownOutcome context (elapsed place) check

theorem ownOutcomes_cons (elapsed : Nat → Milliseconds) (context : Context) (check : Check) (checks : List Check) :
    ownOutcomes elapsed context (check :: checks) =
      ownOutcome context (elapsed 0) check :: ownOutcomes (fun place => elapsed (place + 1)) context checks :=
  List.mapIdx_cons

/-- **How checks come out under guards**: by their own runs where every guard passes; otherwise by their own runs up to
the first guard that does not pass, and skipped because of it from there on. -/
inductive Guarded (elapsed : Nat → Milliseconds) (context : Context) : List Check → List Outcome → Prop
  | allRun {checks : List Check} : (∀ check ∈ checks, Lets context check) →
      Guarded elapsed context checks (ownOutcomes elapsed context checks)
  | barred {before after : List Check} {guard : Check} : (∀ check ∈ before, Lets context check) →
      ¬Lets context guard →
        Guarded elapsed context (before ++ guard :: after)
          (ownOutcomes elapsed context (before ++ [guard]) ++
            after.map fun check => ⟨check.name, .skip ("`" ++ guard.name ++ "` did not pass"), 0⟩)

/-- A check that lets the others run in front of them. -/
theorem Guarded.cons {elapsed : Nat → Milliseconds} {context : Context} {check : Check} {checks : List Check}
    {outcomes : List Outcome} (hl : Lets context check)
    (h : Guarded (fun place => elapsed (place + 1)) context checks outcomes) :
    Guarded elapsed context (check :: checks) (ownOutcome context (elapsed 0) check :: outcomes) := by
  cases h with
  | allRun hc =>
    rw [← ownOutcomes_cons]
    exact .allRun (List.forall_mem_cons.2 ⟨hl, hc⟩)
  | @barred before after guard hb hg =>
    have hbarred := @Guarded.barred elapsed context (check :: before) after guard (List.forall_mem_cons.2 ⟨hl, hb⟩) hg
    simpa only [List.cons_append, ownOutcomes_cons] using hbarred

theorem value_skipAll (guard : String) (checks : List Check) :
    (skipAll guard checks).value = checks.map (skipped guard) := by
  induction checks with
  | nil => rfl
  | cons check rest ih => rw [List.map_cons, ← ih]; rfl

/-- A check bars those behind it just when it is a guard whose status is not a pass. -/
theorem bars_iff {context : Context} {check : Check} :
    (check.guard && !(Status.ofResult (check.run context).result).isPass) = true ↔ ¬Lets context check := by
  rw [Bool.and_eq_true, Bool.not_eq_true', ← Bool.not_eq_true, isPass_ofResult, Lets, Classical.not_imp]

/-- **A run of checks comes out under its guards.** -/
theorem guarded_runAll (elapsed : Nat → Milliseconds) (context : Context) (checks : List Check) :
    Guarded elapsed context checks (runAll elapsed context checks).value := by
  induction checks generalizing elapsed with
  | nil => exact .allRun fun _ h => by cases h
  | cons check rest ih =>
    rw [value_runAll_cons, value_runOne]
    by_cases hl : Lets context check
    · rw [if_neg fun hb => bars_iff.1 hb hl]
      exact (ih _).cons hl
    · rw [if_pos (bars_iff.2 hl), value_skipAll]
      exact @Guarded.barred elapsed context [] rest check (fun _ h => by cases h) hl

/-! ## Exit codes -/

theorem isFail_iff {s : Status} : s.isFail = true ↔ ∃ e, s = .fail e := by cases s <;> simp [Status.isFail]

theorem isError_iff {s : Status} : s.isError = true ↔ ∃ e, s = .error e := by cases s <;> simp [Status.isError]

/-- The code of a tally tells what it counts, errors before failures. -/
theorem Tally.exitCode_eq_five_iff {t : Tally} : t.exitCode = 5 ↔ 0 < t.errored := by
  unfold Tally.exitCode
  split
  · simp [*]
  · split <;> simp [*]

theorem Tally.exitCode_eq_nineteen_iff {t : Tally} : t.exitCode = 19 ↔ t.errored = 0 ∧ 0 < t.failed := by
  unfold Tally.exitCode
  split
  · omega
  · split <;> omega

theorem errored_pos_iff {outcomes : List Outcome} :
    0 < (Tally.ofOutcomes outcomes).errored ↔ ∃ o ∈ outcomes, ∃ e, o.status = .error e := by
  simp only [Tally.ofOutcomes, List.countP_pos_iff, isError_iff]

theorem failed_pos_iff {outcomes : List Outcome} :
    0 < (Tally.ofOutcomes outcomes).failed ↔ ∃ o ∈ outcomes, ∃ e, o.status = .fail e := by
  simp only [Tally.ofOutcomes, List.countP_pos_iff, isFail_iff]

/-- **The code of a run of checks is 0** just when every outcome is a pass. -/
theorem exitCode_runAll_eq_zero_iff_pass (elapsed : Nat → Milliseconds) (context : Context) (checks : List Check) :
    (Tally.ofOutcomes (runAll elapsed context checks).value).exitCode = 0 ↔
      ∀ o ∈ (runAll elapsed context checks).value, o.status = .pass := by
  constructor
  · intro hcode
    have hpass := (exitCode_runAll_eq_zero_iff elapsed context checks).1 hcode
    generalize houtcomes : (runAll elapsed context checks).value = outcomes
    have hguarded : Guarded elapsed context checks outcomes := houtcomes ▸ guarded_runAll elapsed context checks
    cases hguarded with
    | allRun _ =>
      intro o ho
      obtain ⟨place, hplace, rfl⟩ := List.exists_of_mem_mapIdx ho
      rw [ownOutcome, hpass _ (List.getElem_mem hplace)]
      rfl
    | barred _ hbars => exact absurd (fun _ => hpass _ (by simp)) hbars
  · intro hpass
    refine exitCode_eq_zero_iff.2 fun o ho => ?_
    rw [hpass o ho]
    exact ⟨rfl, rfl⟩

/-- **What a run of checks comes to**: its outcomes are those under its guards, of which those of checks that are run
have the status of the result and never that of a skipped check. Its code is 5 if there is an error among them, 19 if
there is none but a failure, and 0 just when all of them are passes, so never where a check was skipped. The number of
skipped checks itself does not matter to the code. -/
theorem runAll_outcomes_exitCode (elapsed : Nat → Milliseconds) (context : Context) (checks : List Check) :
    let outcomes := (runAll elapsed context checks).value
    let code := (Tally.ofOutcomes outcomes).exitCode
    Guarded elapsed context checks outcomes ∧
      (∀ check ∈ checks, ∀ time, StatusOf (check.run context).result (ownOutcome context time check).status) ∧
      (∀ check ∈ checks, ∀ time, (ownOutcome context time check).status.isSkip = false) ∧
      (code = 5 ↔ ∃ o ∈ outcomes, ∃ e, o.status = .error e) ∧
      (code = 19 ↔ (¬∃ o ∈ outcomes, ∃ e, o.status = .error e) ∧ ∃ o ∈ outcomes, ∃ e, o.status = .fail e) ∧
      (code = 0 ↔ ∀ o ∈ outcomes, o.status = .pass) ∧
      ((∃ o ∈ outcomes, ∃ reason, o.status = .skip reason) → code ≠ 0) ∧
      ∀ (t : Tally) (skipped : Nat), { t with skipped := skipped }.exitCode = t.exitCode := by
  intro outcomes code
  have hzero : code = 0 ↔ ∀ o ∈ outcomes, o.status = .pass := exitCode_runAll_eq_zero_iff_pass elapsed context checks
  refine ⟨guarded_runAll elapsed context checks, fun _ _ _ => statusOf_ofResult _, fun _ _ _ => isSkip_ofResult _,
    ?_, ?_, hzero, ?_, fun _ _ => rfl⟩
  · rw [Tally.exitCode_eq_five_iff, errored_pos_iff]
  · rw [Tally.exitCode_eq_nineteen_iff, ← errored_pos_iff, ← failed_pos_iff, Nat.not_lt, Nat.le_zero]
  · rintro ⟨o, ho, reason, hskip⟩ hcode
    have hpass := hzero.1 hcode o ho
    rw [hskip] at hpass
    cases hpass

end RunAudit.Check
