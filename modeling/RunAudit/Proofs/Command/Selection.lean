import RunAudit.Proofs.Check.Guard
import RunAudit.Proofs.Command.Execution

/-!
# Selections of checks

What a check finds is its verdict: its name and its status. A run of some checks of a list has the verdicts that these
checks have in the run of the whole list, if no guard is left out (`verdicts_filter`) or every guard passes
(`verdicts_of_lets`), as does every check that is no guard (`lets_of_guard_eq_false`). So a
selection by name never changes what a check finds (`Selected`), and an unknown name ends a request before any check
runs (`verify_selects`).
-/

namespace RunAudit.Check

/-- What an outcome says apart from how long it took. -/
def Outcome.verdict (o : Outcome) : String × Status := (o.name, o.status)

/-- The verdicts of a run of checks. -/
def verdicts (elapsed : Nat → Milliseconds) (context : Context) (checks : List Check) : List (String × Status) :=
  (runAll elapsed context checks).value.map Outcome.verdict

/-- The verdict of a check by its own run. -/
def ownVerdict (context : Context) (check : Check) : String × Status :=
  (check.name, .ofResult (check.run context).result)

/-! ## Runs of some checks of a list -/

section Runs

variable {elapsed elapsed' : Nat → Milliseconds} {context : Context} {check : Check}

/-- The verdicts behind a check that lets the others run. -/
theorem verdicts_cons_of_lets (h : Lets context check) (rest : List Check) :
    verdicts elapsed context (check :: rest) =
      ownVerdict context check :: verdicts (fun place => elapsed (place + 1)) context rest := by
  rw [verdicts, value_runAll_cons, value_runOne, if_neg fun hb => bars_iff.1 hb h]
  rfl

/-- The verdicts behind a guard that does not pass. -/
theorem verdicts_cons_of_not_lets (h : ¬Lets context check) (rest : List Check) :
    verdicts elapsed context (check :: rest) =
      ownVerdict context check :: rest.map fun other => (skipped check.name other).verdict := by
  rw [verdicts, value_runAll_cons, value_runOne, if_pos (bars_iff.2 h), value_skipAll, List.map_cons, List.map_map]
  rfl

/-- The verdict of a check that runs alone. -/
theorem verdicts_singleton (check : Check) : verdicts elapsed context [check] = [ownVerdict context check] := by
  by_cases h : Lets context check
  · rw [verdicts_cons_of_lets h]
    rfl
  · rw [verdicts_cons_of_not_lets h]
    rfl

/-- **Checks that let the others run** have the verdicts of their own runs. -/
theorem verdicts_of_lets {checks : List Check} (h : ∀ check ∈ checks, Lets context check) :
    verdicts elapsed context checks = checks.map (ownVerdict context) := by
  induction checks generalizing elapsed with
  | nil => rfl
  | cons check rest ih =>
    obtain ⟨hcheck, hrest⟩ := List.forall_mem_cons.1 h
    rw [verdicts_cons_of_lets hcheck, ih hrest, List.map_cons]

/-- Checks that are no guards let the others run. -/
theorem lets_of_guard_eq_false (h : check.guard = false) : Lets context check := by
  intro hguard
  rw [h] at hguard
  cases hguard

/-- Each check has one verdict, in the order of the checks, and the first has its own. -/
theorem exists_verdicts_cons (check : Check) (rest : List Check) :
    ∃ others, verdicts elapsed context (check :: rest) = ownVerdict context check :: others ∧
      others.map Prod.fst = rest.map (·.name) := by
  induction rest generalizing elapsed check with
  | nil => exact ⟨[], verdicts_singleton check, rfl⟩
  | cons next rest ih =>
    by_cases h : Lets context check
    · obtain ⟨others, hothers, hnames⟩ := ih next
      refine ⟨_, verdicts_cons_of_lets h _, ?_⟩
      rw [hothers, List.map_cons, hnames]
      rfl
    · refine ⟨_, verdicts_cons_of_not_lets h _, ?_⟩
      rw [List.map_map]
      rfl

theorem map_fst_verdicts (checks : List Check) :
    (verdicts elapsed context checks).map Prod.fst = checks.map (·.name) := by
  cases checks with
  | nil => rfl
  | cons check rest =>
    obtain ⟨others, hothers, hnames⟩ := @exists_verdicts_cons elapsed context check rest
    rw [hothers, List.map_cons, List.map_cons, hnames]
    rfl

/-- **A run without some checks that are no guards** has the verdicts of the run of all, without theirs. -/
theorem verdicts_filter {keep : String → Bool} {checks : List Check}
    (h : ∀ check ∈ checks, check.guard = true → keep check.name = true) :
    verdicts elapsed context (checks.filter (keep ·.name)) =
      (verdicts elapsed' context checks).filter (keep ·.1) := by
  induction checks generalizing elapsed elapsed' with
  | nil => rfl
  | cons check rest ih =>
    obtain ⟨hcheck, hrest⟩ := List.forall_mem_cons.1 h
    cases hkeep : keep check.name with
    | true =>
      rw [List.filter_cons_of_pos (by exact hkeep)]
      by_cases hl : Lets context check
      · rw [verdicts_cons_of_lets hl, verdicts_cons_of_lets hl, List.filter_cons_of_pos (by exact hkeep), ih hrest]
      · rw [verdicts_cons_of_not_lets hl, verdicts_cons_of_not_lets hl, List.filter_cons_of_pos (by exact hkeep),
          List.filter_map]
        rfl
    | false =>
      -- a check that is left out is no guard, so nothing is skipped because of it
      have hguard : check.guard = false := by
        cases hg : check.guard with
        | false => rfl
        | true => exact absurd (hcheck hg) (by simp [hkeep])
      rw [List.filter_cons_of_neg (by simp [hkeep]), verdicts_cons_of_lets (lets_of_guard_eq_false hguard),
        List.filter_cons_of_neg (by simp [ownVerdict, hkeep]), ih hrest]

/-- A run of some checks, all of which let the others run. -/
theorem verdicts_filter_of_lets {keep : String → Bool} {checks : List Check}
    (h : ∀ check ∈ checks, Lets context check) : verdicts elapsed context (checks.filter (keep ·.name)) =
      (verdicts elapsed' context checks).filter (keep ·.1) := by
  rw [verdicts_of_lets h, verdicts_of_lets fun check hc => h check (List.mem_filter.1 hc).1, List.filter_map]
  rfl

end Runs

/-! ## Selections -/

/-- The names of the checks of the table. -/
def checkNames : List String := ["reports_exist", "junit_contents", "plugin_output"]

theorem map_name_all : all.map (·.name) = checkNames := rfl

theorem any_name_eq_true_iff {name : String} : all.any (·.name == name) = true ↔ name ∈ checkNames := by
  rw [← map_name_all, List.any_eq_true, List.mem_map]
  simp only [beq_iff_eq]

/-- Known names select the checks with these names. -/
theorem select_of_known {names : List String} (h : ∀ name ∈ names, name ∈ checkNames) (hne : names ≠ []) :
    select names = .ok (all.filter fun check => names.contains check.name) := by
  have hfind : names.find? (fun name => !all.any (·.name == name)) = none := by
    rw [List.find?_eq_none]
    intro name hname
    rw [Bool.not_eq_true', ← Bool.not_eq_true, any_name_eq_true_iff, Classical.not_not]
    exact h name hname
  have hempty : names.isEmpty = false := by simpa using hne
  simp only [select, hfind, hempty, Bool.false_or]

/-- **The first unknown name** is the error of a selection. -/
theorem select_of_unknown {before : List String} {name : String} (after : List String)
    (h : ∀ known ∈ before, known ∈ checkNames) (hname : name ∉ checkNames) :
    select (before ++ name :: after) = .error (.illegalArguments (.unknownCheck name checkNames)) := by
  have hfind : (before ++ name :: after).find? (fun name => !all.any (·.name == name)) = some name := by
    rw [List.find?_eq_some_iff_append]
    refine ⟨?_, before, after, rfl, fun known hknown => ?_⟩
    · rw [Bool.not_eq_true', ← Bool.not_eq_true, any_name_eq_true_iff]
      exact hname
    · rw [Bool.not_not, any_name_eq_true_iff]
      exact h known hknown
  simp only [select, hfind, map_name_all]

/-- The checks of the table let the others run if the one of the reports passes. -/
theorem lets_of_mem_all {context : Context} (h : (reportsExist context).result = .ok ()) :
    ∀ check ∈ all, Lets context check := by
  simp only [all, List.forall_mem_cons]
  exact ⟨fun _ => h, lets_of_guard_eq_false rfl, lets_of_guard_eq_false rfl, fun _ hc => by cases hc⟩

/-- The reports are there where the run of all checks says so. -/
theorem reportsExist_of_mem_verdicts {elapsed : Nat → Milliseconds} {context : Context}
    (h : ("reports_exist", Status.pass) ∈ verdicts elapsed context all) : (reportsExist context).result = .ok () := by
  obtain ⟨others, hothers, hnames⟩ := @exists_verdicts_cons elapsed context _ _
  rw [all, hothers, List.mem_cons] at h
  rcases h with h | h
  · have hstatus : Status.pass = .ofResult (reportsExist context).result := congrArg Prod.snd h
    exact isPass_ofResult.1 (hstatus ▸ rfl)
  · -- the others have other names
    have hname := hnames ▸ List.mem_map_of_mem h
    exact absurd hname (by decide)

/-- **What a selection of checks by name finds**, next to what the run of all checks finds. -/
structure Selected (context : Context) (names : List String) (found full : List (String × Status)) : Prop where
  /-- One verdict for each name, in the order of the table. -/
  order : found.map Prod.fst = checkNames.filter (names.contains ·)
  /-- With the guard, what the run of all checks finds for these names. -/
  guarded : "reports_exist" ∈ names → found = full.filter (names.contains ·.1)
  /-- Without it, no check is skipped, and each finds what it finds alone. -/
  unguarded : "reports_exist" ∉ names → ∀ v ∈ found, v.2.isSkip = false ∧
    ∀ elapsed, (select [v.1]).map (verdicts elapsed context) = .ok [v]
  /-- Then that is what the run of all checks finds as well, where the guard passes. -/
  passing : "reports_exist" ∉ names → ("reports_exist", Status.pass) ∈ full → found = full.filter (names.contains ·.1)

/-- A check that is selected alone. -/
theorem select_name {check : Check} (h : check ∈ all) : select [check.name] = .ok [check] := by
  simp only [all, List.mem_cons, List.not_mem_nil, or_false] at h
  rcases h with rfl | rfl | rfl <;> exact select_of_known (by decide) (by simp)

theorem selected (elapsed elapsed' : Nat → Milliseconds) (context : Context) (names : List String) :
    Selected context names (verdicts elapsed context (all.filter fun check => names.contains check.name))
      (verdicts elapsed' context all) where
  order := by
    rw [map_fst_verdicts, ← map_name_all, List.filter_map]
    rfl
  guarded h := by
    refine @verdicts_filter elapsed elapsed' context names.contains all ?_
    simp only [all, List.forall_mem_cons]
    exact ⟨fun _ => List.contains_iff_mem.2 h, by simp, by simp, by simp⟩
  unguarded h := by
    have hguard : ∀ check ∈ all.filter (fun check => names.contains check.name), check.guard = false := by
      simp [all, h]
    rw [verdicts_of_lets fun check hc => lets_of_guard_eq_false (hguard check hc), List.forall_mem_map]
    intro check hcheck
    refine ⟨isSkip_ofResult _, fun elapsed => ?_⟩
    show (select [check.name]).map _ = _
    rw [select_name (List.mem_filter.1 hcheck).1, Except.map, verdicts_singleton]
  passing _ h := @verdicts_filter_of_lets elapsed elapsed' context names.contains all
    (lets_of_mem_all (reportsExist_of_mem_verdicts h))

end RunAudit.Check

namespace RunAudit.Command

open RunAudit.Check

/-- **A selection of checks never changes what a check finds.** Known names select checks that find what they find
among all checks or alone; with an unknown name, a request reads its expectations and ends in an error that names the
first such name, and no check runs. -/
theorem verify_selects (names : List String) :
    (names ≠ [] → (∀ name ∈ names, name ∈ checkNames) → ∃ checks, select names = .ok checks ∧
      ∀ elapsed elapsed' context, Selected context names (verdicts elapsed context checks)
        (verdicts elapsed' context Check.all)) ∧
      ∀ before name after, names = before ++ name :: after → (∀ known ∈ before, known ∈ checkNames) →
        name ∉ checkNames → select names = .error (.illegalArguments (.unknownCheck name checkNames)) ∧
          ∀ env directory file format, verify env ⟨directory, file, names, format⟩ =
            expectationsOf env.disk file >>= fun _ =>
              Audit.ofExcept (.error (.illegalArguments (.unknownCheck name checkNames))) := by
  refine ⟨fun hne hknown => ⟨_, select_of_known hknown hne, fun elapsed elapsed' context =>
    selected elapsed elapsed' context names⟩, ?_⟩
  rintro before name after rfl hbefore hname
  have hselect := select_of_unknown after hbefore hname
  refine ⟨hselect, fun env directory file format => ?_⟩
  rw [verify_eq]
  simp only [hselect]
  rfl

/-- Two checks that are selected out of order, one of them twice, run in order and are not skipped; a name that is none
of a check ends the selection. -/
theorem verify_selects_unguarded :
    (∃ checks, select ["plugin_output", "junit_contents", "plugin_output"] = .ok checks ∧ ∀ elapsed context,
      (verdicts elapsed context checks).map Prod.fst = ["junit_contents", "plugin_output"] ∧
        ∀ v ∈ verdicts elapsed context checks, v.2.isSkip = false) ∧
      select ["plugin_output", "all"] = .error (.illegalArguments (.unknownCheck "all" checkNames)) := by
  obtain ⟨checks, hselect, hfound⟩ :=
    (verify_selects ["plugin_output", "junit_contents", "plugin_output"]).1 (by simp) (by decide)
  refine ⟨⟨checks, hselect, fun elapsed context => ?_⟩, ?_⟩
  · have hselected := hfound elapsed elapsed context
    exact ⟨hselected.order, fun v hv => (hselected.unguarded (by decide) v hv).1⟩
  · exact ((verify_selects ["plugin_output", "all"]).2 ["plugin_output"] "all" [] rfl (by decide) (by decide)).1

end RunAudit.Command
