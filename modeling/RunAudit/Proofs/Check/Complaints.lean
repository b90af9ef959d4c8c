import RunAudit.Proofs.Audit
import RunAudit.Proofs.Check.Run

/-!
# What is said about checks

The checks of the table are quiet themselves (`quiet_of_mem_all`). A run of quiet checks shows one line for each of them
that did not pass, in their order, and nothing else (`errors_runAll`); its code is 0 just when there is none
(`exitCode_eq_zero_iff_complaints`).
-/

namespace RunAudit.Check

/-- **What is said about a check** that did not pass. -/
def complaint (o : Outcome) : Option Entry :=
  match o.status with
  | .pass => none
  | .fail e => some ⟨.error, .checks, s!"check `{o.name}` failed: {e.message}"⟩
  | .error e => some ⟨.error, .checks, s!"check `{o.name}` errored: {e.message}"⟩
  | .skip _ => none

/-- What is said about checks. -/
def complaints (outcomes : List Outcome) : List Entry := outcomes.filterMap complaint

theorem complaints_cons (o : Outcome) (rest : List Outcome) :
    complaints (o :: rest) = (complaint o).toList ++ complaints rest := by
  rw [complaints, List.filterMap_cons]
  cases complaint o <;> rfl

/-- Nothing is said about a check just when it neither failed nor ended in an error. -/
theorem complaint_eq_none_iff {o : Outcome} :
    complaint o = none ↔ o.status.isFail = false ∧ o.status.isError = false := by
  obtain ⟨name, status, duration⟩ := o
  cases status <;> simp [complaint, Status.isFail, Status.isError]

/-- **The exit code is 0** just when nothing is said. -/
theorem exitCode_eq_zero_iff_complaints {outcomes : List Outcome} :
    (Tally.ofOutcomes outcomes).exitCode = 0 ↔ complaints outcomes = [] := by
  simp only [exitCode_eq_zero_iff, AllClear, complaints, List.filterMap_eq_nil_iff, complaint_eq_none_iff]

/-! ## Quiet checks -/

theorem quiet_requireAll (disk : Disk) : ∀ paths : List String, (requireAll disk paths).Quiet
  | [] => Audit.quiet_pure ()
  | _ :: rest => .bind (.bind (Audit.quiet_ofExcept _) fun _ => Audit.quiet_tell (by decide) _ _) fun _ =>
    quiet_requireAll disk rest

theorem quiet_readCasesAloud (text : String) : (Junit.readCasesAloud text).Quiet :=
  .bind (Audit.quiet_ofExcept _) fun _ => .bind (Audit.quiet_tell (by decide) _ _) fun _ => Audit.quiet_pure _

theorem quiet_junitContents (c : Context) : (junitContents c).Quiet :=
  .bind (Audit.quiet_ofExcept _) fun _ => .bind (Audit.quiet_tell (by decide) _ _) fun _ =>
    .bind (quiet_readCasesAloud _) fun _ => Audit.quiet_ofExcept _

/-- The notes on the types of events are no errors. -/
theorem errors_typeNotes : ∀ (values : List Value) (notes : List Entry) (index : Nat), errors notes = [] →
    errors (Event.typeNotes notes index values) = []
  | [], notes, _, h => by simpa [Event.typeNotes, errors] using h
  | v :: rest, notes, index, h => by
    have hrev : errors notes.reverse = [] := by simpa [errors] using h
    have hnote (message : String) : errors (⟨.trace, .events, message⟩ :: notes) = [] := by simpa [errors] using h
    -- the notes stop at the first value that is no event
    unfold Event.typeNotes
    split
    · rename_i heq
      cases heq
      split
      · exact errors_typeNotes rest _ _ (hnote _)
      · simpa [errors] using h
      · exact hrev
    · exact hrev

theorem quiet_readBucketsAloud (text : String) : (Event.readBucketsAloud text).Quiet :=
  .bind (Audit.quiet_ofExcept _) fun values => .bind (errors_typeNotes values [] 0 rfl) fun _ =>
    .bind (Audit.quiet_tell (by decide) _ _) fun _ => Audit.quiet_pure _

theorem quiet_pluginOutput (c : Context) : (pluginOutput c).Quiet :=
  .bind (Audit.quiet_ofExcept _) fun _ => .bind (quiet_readBucketsAloud _) fun _ => Audit.quiet_ofExcept _

/-- **The checks of the table** are quiet. -/
theorem quiet_of_mem_all {check : Check} (h : check ∈ all) (context : Context) : (check.run context).Quiet := by
  simp only [all, List.mem_cons, List.not_mem_nil, or_false] at h
  rcases h with rfl | rfl | rfl
  · exact quiet_requireAll _ _
  · exact quiet_junitContents context
  · exact quiet_pluginOutput context

theorem mem_all_of_select {names : List String} {checks : List Check} (h : select names = .ok checks) {check : Check}
    (hc : check ∈ checks) : check ∈ all := by
  unfold select at h
  split at h
  · cases h
  · cases h
    exact (List.mem_filter.1 hc).1

/-! ## Runs of quiet checks -/

theorem errors_note (name : String) (status : Status) (duration : Milliseconds) :
    errors (note name status).entries = (complaint ⟨name, status, duration⟩).toList := by
  cases status <;> rfl

/-- One quiet check shows what is said about it. -/
theorem errors_runOne (elapsed : Milliseconds) {context : Context} {check : Check} (h : (check.run context).Quiet) :
    errors (runOne elapsed context check).entries = (complaint (runOne elapsed context check).value).toList := by
  have he : (runOne elapsed context check).entries =
      [⟨.info, .checks, s!"running check `{check.name}`: {check.description}"⟩] ++ (check.run context).entries ++
        (note check.name (.ofResult (check.run context).result)).entries := by
    simp [runOne, Logged.tell, Audit.entries, Audit.result]
  rw [he, errors_append, errors_append, h, value_runOne, ← errors_note]
  rfl

theorem errors_skipAll (guard : String) : ∀ checks : List Check,
    errors (skipAll guard checks).entries = complaints (skipAll guard checks).value
  | [] => rfl
  | check :: rest => by
    have ih := errors_skipAll guard rest
    rw [skipAll, Logged.value_bind, Logged.value_bind, Logged.value_pure, complaints_cons, ← ih]
    simp [Logged.tell, errors, complaint, skipped]

/-- What a run writes: the entries of its first check, and those of the others, run or skipped. -/
theorem entries_runAll_cons (elapsed : Nat → Milliseconds) (context : Context) (check : Check) (rest : List Check) :
    (runAll elapsed context (check :: rest)).entries =
      (runOne (elapsed 0) context check).entries ++
        (if check.guard && !(Status.ofResult (check.run context).result).isPass then skipAll check.name rest
          else runAll (fun place => elapsed (place + 1)) context rest).entries := by
  rw [runAll, Logged.entries_bind, value_runOne]
  split <;> simp

/-- **A run of quiet checks** shows what is said about them, in order. -/
theorem errors_runAll (elapsed : Nat → Milliseconds) (context : Context) {checks : List Check}
    (h : ∀ check ∈ checks, (check.run context).Quiet) :
    errors (runAll elapsed context checks).entries = complaints (runAll elapsed context checks).value := by
  induction checks generalizing elapsed with
  | nil => rfl
  | cons check rest ih =>
    rw [List.forall_mem_cons] at h
    rw [entries_runAll_cons, value_runAll_cons, errors_append, errors_runOne (elapsed 0) h.1, complaints_cons]
    split
    · rw [errors_skipAll]
    · rw [ih _ h.2]

end RunAudit.Check
