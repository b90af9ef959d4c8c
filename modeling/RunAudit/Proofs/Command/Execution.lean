import RunAudit.Command.Run
import RunAudit.Proofs.Audit

/-!
# What requests write

Every request does all that may end in an error before it writes, so it commits to what it writes at its end
(`Commits`, `commits_ofAudit_bind`): a request that ends in an error has written nothing, and only a script for a
directory that is there is written to a file (`execute_writes`). What becomes of a request that nothing was written
before is told by the same steps without the writing (`verify_eq`, `junitCases_eq`, `events_eq`, `completions_eq`).
-/

namespace RunAudit.Command

open RunAudit.Check

namespace Execution

variable {α β : Type}

/-! ## What becomes of a run -/

/-- A run that reads first. -/
theorem outcome_ofAudit_bind (x : Audit α) (f : α → Execution Nat) (w : Written) :
    (ofAudit x >>= f).outcome w = x >>= fun a => (f a).outcome w := by
  obtain ⟨value, entries⟩ := x
  cases value <;> rfl

/-- A run that writes first. -/
theorem outcome_change_bind (g : Written → Written) (f : Unit → Execution Nat) (w : Written) :
    (change g >>= f).outcome w = (f ()).outcome (g w) := rfl

theorem outcome_pure (code : Nat) (w : Written) :
    (pure code : Execution Nat).outcome w = pure ⟨code, w.output, w.files.head?⟩ := rfl

theorem entries_outcome (x : Execution Nat) (w : Written) : (x.outcome w).entries = x.entries w := rfl

/-- What becomes of a run with an exit code, by its parts. -/
theorem result_outcome_eq_ok_iff {x : Execution Nat} {w : Written} {o : Outcome} :
    (x.outcome w).result = .ok o ↔ x.result w = .ok o.code ∧ (x.written w).output = o.output ∧
      (x.written w).files.head? = o.file := by
  obtain ⟨code, output, file⟩ := o
  rw [outcome, Audit.result_of, map_eq_ok_iff]
  constructor
  · rintro ⟨code', hc, ho⟩
    cases ho
    exact ⟨hc, rfl, rfl⟩
  · rintro ⟨hc, rfl, rfl⟩
    exact ⟨code, hc, rfl⟩

/-! ## Runs that write at their end -/

section Commits

variable {P : Written → Written → Prop} {f : α → Execution β}

/-- **A run that commits** to what it writes: nothing if it ends in an error. -/
def Commits (P : Written → Written → Prop) (x : Execution α) : Prop :=
  ∀ w, match x.result w with
    | .ok _ => P w (x.written w)
    | .error _ => x.written w = w

/-- Reading leaves what is written to the next step. -/
theorem commits_ofAudit_bind (x : Audit α) (hf : ∀ a, Commits P (f a)) : Commits P (ofAudit x >>= f) := by
  intro w
  rw [result_bind, written_bind, result_ofAudit, written_ofAudit]
  cases x.result with
  | error e => rfl
  | ok a => exact hf a w

/-- What is written at the end. -/
theorem commits_change (g : Written → Written) (a : α) (h : ∀ w, P w (g w)) :
    Commits P (change g >>= fun _ => pure a) := h

end Commits

end Execution

open Execution

variable (env : Environment)

theorem verify_eq (r : VerifyRequest) : verify env r = (do
    let expectations ← expectationsOf env.disk r.expectations
    let checks ← Audit.ofExcept (Check.select r.checks)
    Audit.tell .info .verify s!"verifying {checks.length} checks against {r.resultsDirectory}"
    Audit.tell .debug .verify s!"expectations {expectations.text}"
    let outcomes ← ExceptT.lift (Check.runAll env.elapsed (contextOf env.disk r expectations) checks)
    pure ⟨(Check.Tally.ofOutcomes outcomes).exitCode, reportText r.format env.coloured r.resultsDirectory outcomes,
      none⟩) := by
  simp only [verify, VerifyRequest.execute, outcome_ofAudit_bind, write, outcome_change_bind, outcome_pure,
    Written.addOutput, Written.nothing, String.empty_append, List.head?_nil]

theorem junitCases_eq (r : InputRequest) : junitCases env r = (do
    let text ← readInput env r.file
    let cases ← Junit.readCasesAloud text
    let failed := cases.records.countP (·.isFailed)
    Audit.tell .info .junitCases s!"{cases.records.length} test cases, {failed} failed, {cases.skipped} skipped"
    pure ⟨0, documentText r.json (.list (cases.records.map (·.toValue))), none⟩) := by
  simp only [junitCases, InputRequest.executeCases, outcome_ofAudit_bind, write, outcome_change_bind, outcome_pure,
    Written.addOutput, Written.nothing, String.empty_append, List.head?_nil]

theorem events_eq (r : InputRequest) : events env r = (do
    let text ← readInput env r.file
    let buckets ← Event.readBucketsAloud text
    pure ⟨0, documentText r.json (Event.Summary.ofBuckets buckets).toValue, none⟩) := by
  simp only [events, InputRequest.executeEvents, outcome_ofAudit_bind, write, outcome_change_bind, outcome_pure,
    Written.addOutput, Written.nothing, String.empty_append, List.head?_nil]

theorem completions_eq (r : CompletionsRequest) : completions env r =
    match r.location with
    | none => pure ⟨0, env.script r.shell, none⟩
    | some directory =>
      if env.disk.isDirectory directory then do
        let file : NewFile := ⟨directory, scriptName r.shell, env.script r.shell⟩
        Audit.tell .info .completions s!"writing completions to {file.path}"
        Audit.ofExcept (env.disk.canWrite file.path)
        pure ⟨0, "", some file⟩
      else Audit.ofExcept (.error (.invalidCompletionsPath directory)) := by
  rw [completions, CompletionsRequest.execute, CompletionsRequest.target]
  cases r.location with
  | none =>
    simp only [pure_bind, write, outcome_change_bind, outcome_pure, Written.addOutput, Written.nothing,
      String.empty_append, List.head?_nil]
  | some directory =>
    dsimp only
    split
    · simp only [bind_assoc, pure_bind, outcome_ofAudit_bind, create, write, outcome_change_bind, outcome_pure]
      simp [Written.addFile, Written.addContent, Written.nothing, NewFile.path]
    · rw [outcome_ofAudit_bind]
      rfl

/-- To run a request is to execute it before anything is written. -/
theorem Request.run_eq : ∀ r : Request, r.run env = (r.execute env).outcome .nothing
  | .verify _ => rfl
  | .junitCases _ => rfl
  | .events _ => rfl
  | .completions _ => rfl

/-! ## What requests write -/

/-- No file is made or changed. -/
def SameFiles (w w' : Written) : Prop := w'.files = w.files

/-- What a request writes that does not end in an error: a file only for a script for a directory, and then nothing
else. -/
def Request.Writes (w w' : Written) : Request → Prop
  | .completions ⟨shell, some directory⟩ =>
    env.disk.isDirectory directory = true ∧
      w' = { w with files := ⟨directory, "run-results-verifier." ++ shell.extension, env.script shell⟩ :: w.files }
  | _ => SameFiles w w'

section Requests

variable {env}

theorem commits_verify (r : VerifyRequest) : Commits SameFiles (r.execute env) := by
  refine commits_ofAudit_bind _ fun e => commits_ofAudit_bind _ fun checks => ?_
  refine commits_ofAudit_bind _ fun _ => commits_ofAudit_bind _ fun _ => commits_ofAudit_bind _ fun outcomes => ?_
  exact commits_change _ _ fun _ => rfl

theorem commits_executeCases (r : InputRequest) : Commits SameFiles (r.executeCases env) := by
  refine commits_ofAudit_bind _ fun text => commits_ofAudit_bind _ fun cases => commits_ofAudit_bind _ fun _ => ?_
  exact commits_change _ _ fun _ => rfl

theorem commits_executeEvents (r : InputRequest) : Commits SameFiles (r.executeEvents env) := by
  refine commits_ofAudit_bind _ fun text => commits_ofAudit_bind _ fun buckets => ?_
  exact commits_change _ _ fun _ => rfl

theorem commits_completions_output (shell : Shell) :
    Commits SameFiles (CompletionsRequest.execute env ⟨shell, none⟩) := by
  rw [CompletionsRequest.execute, CompletionsRequest.target, pure_bind]
  exact commits_change _ _ fun _ => rfl

/-- The file of a script is made once its directory is known to be there. -/
theorem commits_completions_file (shell : Shell) (directory : String) :
    Commits (Request.Writes env · · (.completions ⟨shell, some directory⟩))
      (CompletionsRequest.execute env ⟨shell, some directory⟩) := by
  simp only [CompletionsRequest.execute, CompletionsRequest.target, create]
  split
  case isTrue hdirectory =>
    simp only [bind_assoc, pure_bind]
    refine commits_ofAudit_bind _ fun _ => commits_ofAudit_bind _ fun _ w => ⟨hdirectory, ?_⟩
    have hname : scriptName shell = "run-results-verifier." ++ shell.extension := rfl
    show (w.addFile directory _).addContent (env.script shell) = _
    simp only [Written.addFile, Written.addContent, List.modifyHead_cons, String.empty_append, hname]
  case isFalse => exact fun _ => rfl

theorem commits_execute : ∀ r : Request, Commits (Request.Writes env · · r) (r.execute env)
  | .verify r => commits_verify r
  | .junitCases r => commits_executeCases r
  | .events r => commits_executeEvents r
  | .completions ⟨shell, none⟩ => commits_completions_output shell
  | .completions ⟨shell, some directory⟩ => commits_completions_file shell directory

end Requests

/-- **What a request writes**: nothing if it ends in an error, and otherwise no file, unless it is a script for a
directory. Then the directory is there, and it is the file of the script in it and nothing else. -/
theorem execute_writes (r : Request) (w : Written) :
    match (r.execute env).result w with
    | .ok _ => r.Writes env w ((r.execute env).written w)
    | .error _ => (r.execute env).written w = w := by
  have h := @commits_execute env r w
  cases hr : (r.execute env).result w with
  | ok code =>
    rw [hr] at h
    exact h
  | error e =>
    rw [hr] at h
    exact h

end RunAudit.Command
