import Mathlib.Data.List.Forall2
import RunAudit.Proofs.Json.Roundtrip
import RunAudit.Proofs.Report.Junit
import RunAudit.Report.Console
import RunAudit.Report.Structured

/-!
# Reports that agree

What the reports of an audit say of its outcomes when they are read: the object (`ObjectTells`), the test cases
(`CasesTell`) and the last line for a terminal (`LineTells`). Each says of every outcome and of the numbers what the
others say (`reports_agree`).
-/

namespace RunAudit.Report

open RunAudit.Check RunAudit.Xml

/-! ## Numbers -/

/-- How many milliseconds outcomes took together. -/
def milliseconds : List Outcome → Nat
  | [] => 0
  | o :: rest => o.duration.toNat + milliseconds rest

/-- The numbers of outcomes, each counted on its own by the labels, and the time of all of them in 128 bits. -/
structure Counts (outcomes : List Outcome) (t : Tally) : Prop where
  passed : t.passed = (outcomes.map (·.status.label)).count "pass"
  failed : t.failed = (outcomes.map (·.status.label)).count "fail"
  errored : t.errored = (outcomes.map (·.status.label)).count "error"
  skipped : t.skipped = (outcomes.map (·.status.label)).count "skip"
  total : t.passed + t.failed + t.errored + t.skipped = outcomes.length
  duration : t.duration = .ofNat 128 (milliseconds outcomes)

theorem countP_eq_count_label {p : Status → Bool} {label : String} (h : ∀ s, p s = (s.label == label))
    (outcomes : List Outcome) : outcomes.countP (p ·.status) = (outcomes.map (·.status.label)).count label := by
  rw [List.count, List.countP_map]
  exact List.countP_congr fun o _ => by rw [h]; rfl

/-- Each outcome counts for its own status only. -/
theorem length_eq_countP (outcomes : List Outcome) :
    outcomes.countP (·.status.isPass) + outcomes.countP (·.status.isFail) + outcomes.countP (·.status.isError) +
      outcomes.countP (·.status.isSkip) = outcomes.length := by
  induction outcomes with
  | nil => rfl
  | cons o rest ih =>
    have hone : (if o.status.isPass then 1 else 0) + (if o.status.isFail then 1 else 0) +
        (if o.status.isError then 1 else 0) + (if o.status.isSkip then 1 else 0) = 1 := by
      cases o.status <;> rfl
    simp only [List.countP_cons, List.length_cons]
    omega

/-- Times are added up as words, from what was there before. -/
theorem foldl_duration (outcomes : List Outcome) (before : Milliseconds) :
    outcomes.foldl (fun total o => total + o.duration) before = before + .ofNat 128 (milliseconds outcomes) := by
  induction outcomes generalizing before with
  | nil => exact (BitVec.add_zero before).symm
  | cons o rest ih =>
    rw [List.foldl_cons, ih, milliseconds, BitVec.ofNat_add, BitVec.ofNat_toNat, BitVec.setWidth_eq, BitVec.add_assoc]

theorem counts_ofOutcomes (outcomes : List Outcome) : Counts outcomes (.ofOutcomes outcomes) where
  passed := countP_eq_count_label (fun s => by cases s <;> rfl) outcomes
  failed := countP_eq_count_label (fun s => by cases s <;> rfl) outcomes
  errored := countP_eq_count_label (fun s => by cases s <;> rfl) outcomes
  skipped := countP_eq_count_label (fun s => by cases s <;> rfl) outcomes
  total := length_eq_countP outcomes
  duration := (foldl_duration outcomes 0).trans (BitVec.zero_add _)

/-! ## The object -/

/-- What an object says of an outcome: its name, its status, its message exactly when it is no pass, and how long it
took, at most the largest number of 64 bits. -/
structure EntryTells (o : Outcome) (fields : Fields Value) : Prop where
  name : fields.get? "name" = some (.string o.name)
  status : fields.get? "status" = some (.string o.status.label)
  message : fields.get? "message" = o.status.message.map .string
  messageWhen : fields.has "message" = !o.status.isPass
  duration : fields.get? "duration_ms" = some (.ofNat (min o.duration.toNat (UInt64.size - 1)))

/-- **What the object says.** -/
structure ObjectTells (outcomes : List Outcome) (fields : Fields Value) : Prop where
  checks : ∃ entries : List (Fields Value), fields.get? "checks" = some (.list (entries.map .object)) ∧
    List.Forall₂ EntryTells outcomes entries
  passed : fields.get? "passed" = some (.ofNat (Tally.ofOutcomes outcomes).passed)
  failed : fields.get? "failed" = some (.ofNat (Tally.ofOutcomes outcomes).failed)
  errored : fields.get? "errored" = some (.ofNat (Tally.ofOutcomes outcomes).errored)
  skipped : fields.get? "skipped" = some (.ofNat (Tally.ofOutcomes outcomes).skipped)
  exitCode : fields.get? "exit_code" = some (.ofNat (Tally.ofOutcomes outcomes).exitCode)

theorem entryTells (o : Outcome) : ∃ fields, Structured.outcomeValue o = .object fields ∧ EntryTells o fields := by
  obtain ⟨name, status, duration⟩ := o
  refine ⟨_, rfl, ?_⟩
  cases status <;> exact ⟨rfl, rfl, rfl, rfl, rfl⟩

theorem readable_outcomeValue (depth : Nat) (o : Outcome) :
    Json.Readable (depth + 1) (Structured.outcomeValue o) := by
  have hduration : min o.duration.toNat Structured.maxDuration ≤ Json.maxSignificand := Nat.min_le_right ..
  obtain ⟨name, status, duration⟩ := o
  cases status <;>
    refine ⟨by simp [Fields.keys, Status.message], ?_⟩ <;>
    simp [Status.message, Json.readable_string, Json.readable_natural hduration]

/-- The object can be read: its numbers fit when there are no more outcomes than 64 bits can count. -/
theorem readable_toValue (depth : Nat) {outcomes : List Outcome} (h : outcomes.length < UInt64.size) :
    Json.Readable (depth + 3) (Structured.toValue outcomes) := by
  have hcounts := (counts_ofOutcomes outcomes).total
  have hmax : Json.maxSignificand = UInt64.size - 1 := rfl
  have hchecks : Json.Readable (depth + 2) (.list (outcomes.map Structured.outcomeValue)) := by
    intro v hv
    obtain ⟨o, _, rfl⟩ := List.mem_map.1 hv
    exact readable_outcomeValue depth o
  have hcode : (Tally.ofOutcomes outcomes).exitCode ≤ Json.maxSignificand := by
    unfold Tally.exitCode
    split
    · decide
    · split <;> decide
  refine ⟨by simp [Fields.keys], ?_⟩
  simp only [List.forall_mem_cons]
  refine ⟨hchecks, Json.readable_natural ?_ _, Json.readable_natural ?_ _, Json.readable_natural ?_ _,
    Json.readable_natural ?_ _, Json.readable_natural hcode _, by simp⟩
  all_goals omega

theorem objectTells {outcomes : List Outcome} (h : outcomes.length < UInt64.size) :
    ∃ fields, Json.readValue (Json.pretty (Structured.toValue outcomes)) = some (.object fields) ∧
      ObjectTells outcomes fields := by
  refine ⟨_, Json.readValue_pretty (readable_toValue 124 h), ?_, rfl, rfl, rfl, rfl, rfl⟩
  choose fields hfields htells using entryTells
  refine ⟨outcomes.map fields, ?_, ?_⟩
  · have : outcomes.map Structured.outcomeValue = (outcomes.map fields).map .object := by
      rw [List.map_map]
      exact List.map_congr_left fun o _ => hfields o
    rw [← this]
    rfl
  · exact List.forall₂_map_right_iff.2 (List.forall₂_same.2 fun o _ => htells o)

/-! ## The test cases -/

/-- The tag of the child that says why a check did not pass. -/
def childTag? : Status → Option String
  | .pass => none
  | .fail _ => some "failure"
  | .error _ => some "error"
  | .skip _ => some "skipped"

/-- What a test case says of an outcome: its name, its time, its status, and its message in one child unless it is a
pass. -/
structure CaseTells (o : Outcome) (c : ElementTree) : Prop where
  tag : c.tag = "testcase"
  name : c.attributes.get? "name" = some o.name
  time : c.attributes.get? "time" = some (Junit.seconds o.duration)
  status : c.attributes.get? "status" = some o.status.label
  child : c.children.map (·.tag) = (childTag? o.status).toList
  message : c.children.head?.bind (·.attributes.get? "message") = o.status.message

/-- **What the test cases say**, and the numbers of the suite and around it. -/
structure CasesTell (name : String) (outcomes : List Outcome) (root suite : ElementTree) : Prop where
  tags : root.tag = "testsuites" ∧ suite.tag = "testsuite"
  suites : root.children = [suite]
  /-- The test cases of the suite are all there are. -/
  found : root.preorder.filter Junit.isCaseTree = suite.children
  cases : List.Forall₂ CaseTells outcomes suite.children
  name : root.attributes.get? "name" = some name
  tests : ∀ e ∈ [root, suite], e.attributes.get? "tests" = some (toString outcomes.length)
  failures : ∀ e ∈ [root, suite], e.attributes.get? "failures" = some (toString (Tally.ofOutcomes outcomes).failed)
  errors : ∀ e ∈ [root, suite], e.attributes.get? "errors" = some (toString (Tally.ofOutcomes outcomes).errored)
  skipped : suite.attributes.get? "skipped" = some (toString (Tally.ofOutcomes outcomes).skipped)
  time : ∀ e ∈ [root, suite], e.attributes.get? "time" = some (Junit.seconds (Tally.ofOutcomes outcomes).duration)

theorem caseTells (o : Outcome) : CaseTells o (Junit.caseNode o).tree := by
  obtain ⟨name, status, duration⟩ := o
  cases status <;> exact ⟨rfl, rfl, rfl, rfl, rfl, rfl⟩

theorem children_suiteNode (outcomes : List Outcome) :
    (Junit.suiteNode outcomes).tree.children = outcomes.map fun o => (Junit.caseNode o).tree := by
  show treeAll (outcomes.map Junit.caseNode) = _
  rw [treeAll_eq_map, List.map_map]
  rfl

theorem casesTell (name : String) (outcomes : List Outcome) :
    CasesTell name outcomes (Junit.rootNode name outcomes).tree (Junit.suiteNode outcomes).tree where
  tags := ⟨rfl, rfl⟩
  suites := rfl
  found := by
    rw [Junit.filter_preorder_rootNode, children_suiteNode]
  cases := by
    rw [children_suiteNode]
    exact List.forall₂_map_right_iff.2 (List.forall₂_same.2 fun o _ => caseTells o)
  name := rfl
  tests := by simp only [List.forall_mem_cons]; exact ⟨rfl, rfl, by simp⟩
  failures := by simp only [List.forall_mem_cons]; exact ⟨rfl, rfl, by simp⟩
  errors := by simp only [List.forall_mem_cons]; exact ⟨rfl, rfl, by simp⟩
  skipped := rfl
  time := by simp only [List.forall_mem_cons]; exact ⟨rfl, rfl, by simp⟩

/-! ## The line for a terminal -/

/-- The numbers in a line of words, each with the word after it. -/
def numbered (line : List Char) : List (Nat × String) :=
  let words := line.splitOn ' '
  (words.zip words.tail).filterMap fun (number, word) =>
    (Text.Digit.natural? 10 number).map (·, String.ofList (word.filter Char.isAlpha))

/-- **What the last line says.** -/
def LineTells (outcomes : List Outcome) (text : String) : Prop :=
  ∃ front line, text.toList = front ++ line ++ ['\n'] ∧ (∀ c ∈ front.getLast?, c = '\n') ∧ '\n' ∉ line ∧
    numbered line = [(outcomes.length, "checks"), ((Tally.ofOutcomes outcomes).passed, "passed"),
      ((Tally.ofOutcomes outcomes).failed, "failed"), ((Tally.ofOutcomes outcomes).errored, "errored"),
      ((Tally.ofOutcomes outcomes).skipped, "skipped")]

theorem ends_outcomeLines (coloured : Bool) (o : Outcome) :
    (Console.outcomeLines coloured o).toList.getLast? = some '\n' := by
  have hend : (toString "ms)\n").toList = ['m', 's', ')', '\n'] := rfl
  unfold Console.outcomeLines
  cases o.status.message <;>
    simp [String.toList_append, List.getLast?_append, List.getLast?_cons, hend]

/-- Lines that follow one another end as lines do. -/
theorem ends_join {lines : List String} (h : ∀ s ∈ lines, s.toList.getLast? = some '\n') :
    ∀ c ∈ (String.join lines).toList.getLast?, c = '\n' := by
  induction lines with
  | nil => simp
  | cons s lines ih =>
    obtain ⟨hs, hl⟩ := List.forall_mem_cons.1 h
    intro c hc
    rw [String.join_cons, String.toList_append, List.getLast?_append, hs, Option.mem_def, Option.or_eq_some_iff] at hc
    rcases hc with hc | ⟨_, hc⟩
    · exact ih hl c hc
    · exact (Option.some.inj hc).symm

/-- The words of the line with the numbers. -/
def tallyWords (count : Nat) (t : Tally) : List String :=
  ["run-results-verifier:", toString count, "checks,", toString t.passed, "passed,", toString t.failed, "failed,",
    toString t.errored, "errored,", toString t.skipped, "skipped"]

theorem tallyLine_eq (count : Nat) (t : Tally) :
    Console.tallyLine count t = " ".intercalate (tallyWords count t) ++ "\n" := by
  have hfront : programName ++ ": " = "run-results-verifier:" ++ " " := rfl
  have hchecks : " checks, " = " " ++ "checks," ++ " " := rfl
  have hpassed : " passed, " = " " ++ "passed," ++ " " := rfl
  have hfailed : " failed, " = " " ++ "failed," ++ " " := rfl
  have herrored : " errored, " = " " ++ "errored," ++ " " := rfl
  have hskipped : " skipped\n" = " " ++ "skipped" ++ "\n" := rfl
  calc Console.tallyLine count t
      = programName ++ (": " ++ toString count ++ " checks, " ++ toString t.passed ++ " passed, " ++ toString t.failed ++
          " failed, " ++ toString t.errored ++ " errored, " ++ toString t.skipped ++ " skipped\n") := rfl
    _ = "run-results-verifier:" ++ " " ++ toString count ++ " " ++ "checks," ++ " " ++ toString t.passed ++ " " ++
          "passed," ++ " " ++ toString t.failed ++ " " ++ "failed," ++ " " ++ toString t.errored ++ " " ++ "errored," ++
          " " ++ toString t.skipped ++ " " ++ "skipped" ++ "\n" := by
        rw [hchecks, hpassed, hfailed, herrored, hskipped, ← hfront]
        simp only [String.append_assoc]
    _ = " ".intercalate (tallyWords count t) ++ "\n" := rfl

/-- No word of the line holds a blank or a line end. -/
theorem not_mem_tallyWords (count : Nat) (t : Tally) {c : Char} (hc : c = ' ' ∨ c = '\n') :
    ∀ word ∈ (tallyWords count t).map String.toList, c ∉ word := by
  have hfixed : ∀ word ∈ ["run-results-verifier:", "checks,", "passed,", "failed,", "errored,", "skipped"],
      c ∉ word.toList := by
    rcases hc with rfl | rfl <;> decide +kernel
  have hnumber : ∀ n, c ∉ (toString n).toList := Text.Digit.not_mem_toString (by rcases hc with rfl | rfl <;> rfl)
  simp only [List.forall_mem_cons] at hfixed
  obtain ⟨hfront, hchecks, hpassed, hfailed, herrored, hskipped, _⟩ := hfixed
  simp only [tallyWords, List.map_cons, List.forall_mem_cons]
  exact ⟨hfront, hnumber _, hchecks, hnumber _, hpassed, hnumber _, hfailed, hnumber _, herrored, hnumber _, hskipped,
    by simp⟩

/-- A line of words holds no more than the words and what stands between them. -/
theorem not_mem_intercalate {c : Char} {separator : List Char} (hs : c ∉ separator) {words : List (List Char)}
    (h : ∀ word ∈ words, c ∉ word) : c ∉ separator.intercalate words := by
  induction words with
  | nil => simp
  | cons word words ih =>
    obtain ⟨hw, hws⟩ := List.forall_mem_cons.1 h
    cases words with
    | nil => simpa using hw
    | cons next words => simpa [hw, hs] using ih hws

theorem numbered_tallyWords (count : Nat) (t : Tally) :
    numbered (" ".intercalate (tallyWords count t)).toList = [(count, "checks"), (t.passed, "passed"),
      (t.failed, "failed"), (t.errored, "errored"), (t.skipped, "skipped")] := by
  have hwords : (" ".intercalate (tallyWords count t)).toList.splitOn ' ' = (tallyWords count t).map String.toList := by
    rw [String.toList_intercalate]
    exact List.splitOn_intercalate ' ' (not_mem_tallyWords count t (.inl rfl)) (by simp [tallyWords])
  have hword : ∀ word ∈ ["run-results-verifier:", "checks,", "passed,", "failed,", "errored,"],
      Text.Digit.natural? 10 word.toList = none := by decide +kernel
  have hlabel : ["checks,", "passed,", "failed,", "errored,", "skipped"].map
      (fun word => String.ofList (word.toList.filter Char.isAlpha)) =
        ["checks", "passed", "failed", "errored", "skipped"] := by decide +kernel
  simp only [List.forall_mem_cons] at hword
  simp only [List.map_cons, List.cons.injEq] at hlabel
  obtain ⟨hfront, hchecks, hpassed, hfailed, herrored, _⟩ := hword
  rw [numbered, hwords]
  simp only [tallyWords, List.map_cons, List.map_nil, List.tail_cons, List.zip_cons_cons,
    List.zip_nil_right, List.filterMap_cons, List.filterMap_nil, Text.Digit.toList_toString,
    Text.Digit.natural?_toDigits (by decide : 1 < 10) (by decide), hfront, hchecks, hpassed, hfailed, herrored, hlabel,
    Option.map_some, Option.map_none]

theorem lineTells (coloured : Bool) (outcomes : List Outcome) :
    LineTells outcomes (Console.write coloured outcomes) := by
  refine ⟨(String.join (outcomes.map (Console.outcomeLines coloured))).toList,
    (" ".intercalate (tallyWords outcomes.length (.ofOutcomes outcomes))).toList, ?_, ?_, ?_, numbered_tallyWords _ _⟩
  · rw [Console.write, String.toList_append, tallyLine_eq, String.toList_append, List.append_assoc]
    rfl
  · refine ends_join fun s hs => ?_
    obtain ⟨o, _, rfl⟩ := List.mem_map.1 hs
    exact ends_outcomeLines coloured o
  · rw [String.toList_intercalate]
    exact not_mem_intercalate (by decide) (not_mem_tallyWords _ _ (.inr rfl))

/-! ## Agreement -/

/-- What is seen of related members. -/
theorem map_eq_of_forall₂ {α β γ : Type} {f : α → γ} {g : β → γ} {xs : List α} {ys : List β}
    (h : List.Forall₂ (fun x y => g y = f x) xs ys) : ys.map g = xs.map f := by
  induction h with
  | nil => rfl
  | cons hxy _ ih => rw [List.map_cons, List.map_cons, hxy, ih]

/-- **Reports agree**: for any outcomes, as many as 64 bits can count, the numbers are those of the outcomes by their
labels, and the object, the test cases and the last line for a terminal all say them, and the first two say of every
outcome its name, its status, its message and its time. -/
theorem reports_agree (name : String) (coloured : Bool) {outcomes : List Outcome}
    (h : outcomes.length < UInt64.size) :
    Counts outcomes (.ofOutcomes outcomes) ∧
    (∃ fields, Json.readValue (Json.pretty (Structured.toValue outcomes)) = some (.object fields) ∧
      ObjectTells outcomes fields) ∧
    (∃ root suite, Document.parse (Junit.write name outcomes) = .ok (.ofTree root) ∧
      CasesTell name outcomes root suite) ∧
    LineTells outcomes (Console.write coloured outcomes) :=
  ⟨counts_ofOutcomes outcomes, objectTells h,
    ⟨_, _, parse_write (Junit.proper_rootNode name outcomes), casesTell name outcomes⟩, lineTells coloured outcomes⟩

/-- A check that failed and one that was skipped because of it, in times whose sum wraps around to one millisecond: what
the object, the test cases and the last line say of them. -/
theorem reports_agree_two :
    let outcomes : List Outcome := [⟨"a<b", .fail (.missingFile "x"), .allOnes 128⟩, ⟨"c", .skip "no", 2⟩]
    outcomes.length < UInt64.size ∧
    (∃ (fields : Fields Value) (entries : List (Fields Value)),
      Json.readValue (Json.pretty (Structured.toValue outcomes)) = some (.object fields) ∧
        fields.get? "checks" = some (.list (entries.map .object)) ∧
        entries.map (·.get? "message") = [some (.string "Expected to have file at: x"), some (.string "no")] ∧
        entries.map (·.get? "duration_ms") = [some (.ofNat 18446744073709551615), some (.ofNat 2)] ∧
        fields.get? "failed" = some (.ofNat 1) ∧ fields.get? "skipped" = some (.ofNat 1) ∧
        fields.get? "exit_code" = some (.ofNat 19)) ∧
    (∃ root suite, Document.parse (Junit.write "report" outcomes) = .ok (.ofTree root) ∧ root.children = [suite] ∧
      suite.children.map (·.attributes.get? "name") = [some "a<b", some "c"] ∧
      suite.children.map (·.children.map (·.tag)) = [["failure"], ["skipped"]] ∧
      suite.attributes.get? "failures" = some "1" ∧ suite.attributes.get? "skipped" = some "1" ∧
      suite.attributes.get? "time" = some "0.001") ∧
    ∃ front line, (Console.write false outcomes).toList = front ++ line ++ ['\n'] ∧
      numbered line = [(2, "checks"), (0, "passed"), (1, "failed"), (0, "errored"), (1, "skipped")] := by
  intro outcomes
  have hfew : outcomes.length < UInt64.size := by decide
  have hsuite {root suite : ElementTree} : suite ∈ [root, suite] := by simp
  have hone : toString 1 = "1" := rfl
  have htime : Junit.seconds (Tally.ofOutcomes outcomes).duration = "0.001" := by decide +kernel
  obtain ⟨_, ⟨fields, hread, hobject⟩, ⟨root, suite, hparse, hcases⟩, ⟨front, line, htext, _, _, hline⟩⟩ :=
    reports_agree "report" false hfew
  refine ⟨hfew, ?_, ?_, front, line, htext, hline⟩
  · obtain ⟨entries, hchecks, hentries⟩ := hobject.checks
    have hmessages := map_eq_of_forall₂ (hentries.imp fun _ _ h => h.message)
    have hdurations := map_eq_of_forall₂ (hentries.imp fun _ _ h => h.duration)
    exact ⟨fields, entries, hread, hchecks, hmessages, hdurations, hobject.failed, hobject.skipped, hobject.exitCode⟩
  · have hnames := map_eq_of_forall₂ (hcases.cases.imp fun _ _ h => h.name)
    have htags := map_eq_of_forall₂ (hcases.cases.imp fun _ _ h => h.child)
    exact ⟨root, suite, hparse, hcases.suites, hnames, htags, hone ▸ hcases.failures suite hsuite,
      hone ▸ hcases.skipped, htime ▸ hcases.time suite hsuite⟩

end RunAudit.Report
