import RunAudit.Program
import RunAudit.Proofs.Check.Complaints
import RunAudit.Proofs.Command.Execution

/-!
# What a run writes to standard output

Of the requests only an audit runs checks, and what a request shows is what is said about its checks (`errors_run`).
These lines go to standard output in front of the output of the request, whatever its format, and nothing goes to
standard error. So standard output is exactly the output of a request just when its exit code is 0 (`run_output`).
-/

namespace RunAudit

namespace Command

open RunAudit.Check

/-- **The outcomes of a request**: those of the checks that it picks, if its expectations can be read. -/
def Request.outcomes (env : Environment) : Request → List Check.Outcome
  | .verify r =>
    match (expectationsOf env.disk r.expectations).result, Check.select r.checks with
    | .ok e, .ok checks => (runAll env.elapsed (contextOf env.disk r e) checks).value
    | _, _ => []
  | _ => []

/-! ## Quiet requests -/

theorem quiet_expectationsOf (disk : Disk) (file : Option String) : (expectationsOf disk file).Quiet := by
  cases file with
  | none => exact Audit.quiet_pure _
  | some path =>
    exact .bind (Audit.quiet_ofExcept _) fun _ => .bind (Audit.quiet_tell (by decide) _ _) fun _ =>
      Audit.quiet_ofExcept _

theorem quiet_readInput (env : Environment) (file : Option String) : (readInput env file).Quiet := by
  cases file with
  | some path => exact Audit.quiet_ofExcept _
  | none =>
    rw [readInput]
    split
    · exact Audit.quiet_ofExcept _
    · exact .bind (Audit.quiet_ofExcept _) fun _ => .bind (Audit.quiet_tell (by decide) _ _) fun _ =>
        Audit.quiet_pure _

theorem quiet_junitCases (env : Environment) (r : InputRequest) : (junitCases env r).Quiet := by
  rw [junitCases_eq]
  exact .bind (quiet_readInput env _) fun _ => .bind (quiet_readCasesAloud _) fun _ =>
    .bind (Audit.quiet_tell (by decide) _ _) fun _ => Audit.quiet_pure _

theorem quiet_events (env : Environment) (r : InputRequest) : (events env r).Quiet := by
  rw [events_eq]
  exact .bind (quiet_readInput env _) fun _ => .bind (quiet_readBucketsAloud _) fun _ => Audit.quiet_pure _

theorem quiet_completions (env : Environment) (r : CompletionsRequest) : (completions env r).Quiet := by
  rw [completions_eq]
  split
  · exact Audit.quiet_pure _
  · split
    · exact .bind (Audit.quiet_tell (by decide) _ _) fun _ => .bind (Audit.quiet_ofExcept _) fun _ =>
        Audit.quiet_pure _
    · exact Audit.quiet_ofExcept _

/-! ## Audits -/

theorem errors_verify (env : Environment) (r : VerifyRequest) :
    errors (verify env r).entries = complaints ((Request.verify r).outcomes env) := by
  rw [verify_eq, (quiet_expectationsOf _ _).errors_bind, Request.outcomes]
  cases (expectationsOf env.disk r.expectations).result with
  | error f => rfl
  | ok e =>
    simp only [(Audit.quiet_ofExcept _).errors_bind, Audit.result_ofExcept]
    cases hs : Check.select r.checks with
    | error f => rfl
    | ok checks =>
      have hq : ∀ check ∈ checks, (check.run (contextOf env.disk r e)).Quiet := fun check hc =>
        quiet_of_mem_all (mem_all_of_select hs hc) _
      simp only [(@Audit.quiet_tell .info (by decide) _ _).errors_bind,
        (@Audit.quiet_tell .debug (by decide) _ _).errors_bind, Audit.result_tell]
      -- nothing is written behind the checks
      rw [Audit.entries_bind, Audit.result_lift, Audit.entries_lift, errors_append, errors_runAll _ _ hq]
      exact List.append_nil _

/-- **What a request shows** is what is said about its checks. -/
theorem errors_run (env : Environment) : ∀ r : Request, errors (r.run env).entries = complaints (r.outcomes env)
  | .verify r => errors_verify env r
  | .junitCases r => quiet_junitCases env r
  | .events r => quiet_events env r
  | .completions r => quiet_completions env r

/-- An audit that ends without an error reports on the outcomes of its checks, and has their exit code. -/
theorem eq_of_result_verify {env : Environment} {r : VerifyRequest} {o : Outcome}
    (h : (verify env r).result = .ok o) :
    o = ⟨(Tally.ofOutcomes ((Request.verify r).outcomes env)).exitCode,
      reportText r.format env.coloured r.resultsDirectory ((Request.verify r).outcomes env), none⟩ := by
  simp only [verify_eq, Audit.result_bind, Audit.result_ofExcept, Audit.result_tell, Audit.result_lift] at h
  obtain ⟨e, he, h⟩ := bind_eq_ok_iff.1 h
  obtain ⟨checks, hs, h⟩ := bind_eq_ok_iff.1 h
  rw [Request.outcomes, he, hs]
  cases h
  rfl

/-- A request that ends with the code 0 unless it ends in an error. -/
def Succeeds (x : Audit Outcome) : Prop := ∀ o, x.result = .ok o → o.code = 0

theorem succeeds_pure (output : String) (file : Option NewFile) : Succeeds (pure ⟨0, output, file⟩) := by
  intro o h
  cases h
  rfl

theorem succeeds_ofExcept_error (e : Error) : Succeeds (Audit.ofExcept (.error e)) := fun _ h => by cases h

theorem Succeeds.bind {α : Type} {x : Audit α} {f : α → Audit Outcome} (hf : ∀ a, Succeeds (f a)) :
    Succeeds (x >>= f) := by
  intro o h
  rw [Audit.result_bind] at h
  obtain ⟨a, _, ha⟩ := bind_eq_ok_iff.1 h
  exact hf a o ha

theorem succeeds_completions (env : Environment) (r : CompletionsRequest) : Succeeds (completions env r) := by
  rw [completions_eq]
  split
  · exact succeeds_pure _ _
  · split
    · exact .bind fun _ => .bind fun _ => succeeds_pure _ _
    · exact succeeds_ofExcept_error _

/-- The exit code of a request is that of the outcomes of its checks. -/
theorem code_of_result_run {env : Environment} {r : Request} {o : Outcome} (h : (r.run env).result = .ok o) :
    o.code = (Tally.ofOutcomes (r.outcomes env)).exitCode := by
  cases r with
  | verify r => rw [eq_of_result_verify h]
  | junitCases r =>
    have hs : Succeeds (junitCases env r) :=
      junitCases_eq env r ▸ .bind fun _ => .bind fun _ => .bind fun _ => succeeds_pure _ _
    exact hs o h
  | events r =>
    have hs : Succeeds (events env r) := events_eq env r ▸ .bind fun _ => .bind fun _ => succeeds_pure _ _
    exact hs o h
  | completions r => exact succeeds_completions env r o h

end Command

namespace Program

open RunAudit.Command RunAudit.Check

/-- A command line makes a request and does not ask for a more talkative log. -/
def Asks (words : List String) (r : Request) : Prop :=
  ∃ line, grammar.read words = .ok line ∧ line.request = .ok r ∧ line.times verbose.long = 0

/-- The run of a request that ends without an error: what is said about its checks, then its output. -/
theorem run_of_asks {env : Environment} {words : List String} {r : Request} {o : Command.Outcome}
    (hw : Asks words r) (ho : (r.run env).result = .ok o) :
    run env words =
      ⟨o.code, String.join ((complaints (r.outcomes env)).map Entry.line) ++ o.output, "", o.file⟩ := by
  obtain ⟨line, hline, hr, hverbose⟩ := hw
  cases hcommand : line.command with
  | none => simp [Line.request, hcommand] at hr
  | some command =>
    simp only [Line.request, hcommand] at hr
    rw [Request.run_eq, Execution.result_outcome_eq_ok_iff] at ho
    obtain ⟨hcode, houtput, hfile⟩ := ho
    have hentries : errors ((r.execute env).entries .nothing) = complaints (r.outcomes env) := by
      rw [← errors_run, Request.run_eq, Execution.entries_outcome]
    simp only [run, hline, hcommand, hr, hverbose, levelOf, perform, hcode, houtput, hfile, lines_error, hentries]

/-- The lines on checks are no text just when there are none. -/
theorem join_lines_eq_empty_iff {entries : List Entry} : String.join (entries.map Entry.line) = "" ↔ entries = [] := by
  cases entries with
  | nil => simp
  | cons e rest => simp [String.join_cons, e.line_ne_empty]

/-- **What a request writes to standard output**: a line for each check that did not pass, and then its output, which is
the report for an audit. Standard output is the output alone just when the exit code is 0; nothing goes to standard
error. -/
theorem run_output {env : Environment} {words : List String} {r : Request} {o : Command.Outcome}
    (hw : Asks words r) (ho : (r.run env).result = .ok o) :
    run env words =
        ⟨o.code, String.join ((complaints (r.outcomes env)).map Entry.line) ++ o.output, "", o.file⟩ ∧
      ((run env words).output = o.output ↔ o.code = 0) ∧
      ∀ v, r = .verify v → o.output = reportText v.format env.coloured v.resultsDirectory (r.outcomes env) := by
  have hrun := run_of_asks hw ho
  refine ⟨hrun, ?_, ?_⟩
  · rw [hrun, code_of_result_run ho, exitCode_eq_zero_iff_complaints, ← join_lines_eq_empty_iff]
    exact String.append_eq_right_iff
  · rintro v rfl
    rw [eq_of_result_verify ho]

/-- An audit of the default results directory with a report as an object. -/
def auditAsJson : Request := .verify ⟨defaultResultsDirectory, none, [], .json⟩

/-- Where there is nothing on the disk. -/
def bare : Environment := ⟨.empty, ⟨.empty⟩, false, fun _ => 0, fun _ => ""⟩

theorem asks_auditAsJson : Asks ["verify", "-o", "json"] auditAsJson := ⟨_, rfl, rfl, by decide +kernel⟩

/-- Where there is nothing on the disk, the first report is missed and the other checks are skipped. -/
theorem complaints_bare : complaints (auditAsJson.outcomes bare) =
    [⟨.error, .checks, "check `reports_exist` failed: " ++
      "Expected to have file at: auxiliary/tempfolder/test-results/iphone_se_ios_103.json"⟩] := by decide +kernel

/-- The missing report is told on standard output, in front of the object. -/
theorem run_output_bare : ∃ o, (auditAsJson.run bare).result = .ok o ∧ o.code = 19 ∧
    (run bare ["verify", "-o", "json"]).messages = "" ∧
    (run bare ["verify", "-o", "json"]).output =
      "ERROR [run_results_verifier::checks] check `reports_exist` failed: " ++
        "Expected to have file at: auxiliary/tempfolder/test-results/iphone_se_ios_103.json\n" ++ o.output := by
  obtain ⟨o, ho, hcode⟩ : ∃ o, (auditAsJson.run bare).result = .ok o ∧ o.code = 19 := ⟨_, rfl, by decide +kernel⟩
  have hrun := (run_output asks_auditAsJson ho).1
  refine ⟨o, ho, hcode, by rw [hrun], ?_⟩
  rw [hrun, complaints_bare]
  exact congrArg (· ++ o.output) (by decide +kernel)

/-- So standard output is not always the output alone. -/
theorem not_run_output_eq : ¬∀ (env : Environment) (words : List String) (r : Request) (o : Command.Outcome),
    Asks words r → (r.run env).result = .ok o → (run env words).output = o.output := by
  intro h
  have houtput := h bare ["verify", "-o", "json"] auditAsJson _ asks_auditAsJson rfl
  rw [run_of_asks asks_auditAsJson rfl, String.append_eq_right_iff, join_lines_eq_empty_iff, complaints_bare] at houtput
  cases houtput

end Program

end RunAudit
