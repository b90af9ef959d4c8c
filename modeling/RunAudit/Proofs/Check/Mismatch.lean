import RunAudit.Check.JunitContents
import RunAudit.Check.PluginOutput
import RunAudit.Proofs.Text.Quoted

/-!
# Mismatches show a difference

A mismatch tells both of its sides as texts. The text of a quantity determines the quantity (`Quantity.text_injective`),
so two quantities that differ are told by texts that differ, and whatever mismatch a comparison ends in tells its sides
apart (`mismatch_tellsApart`).
-/

namespace RunAudit

open Event Junit

/-! ## Texts of quantities -/

/-- What the text of a quantity begins with: a count with a digit, a list with a bracket, a set with a brace. -/
def Quantity.Begins (c : Char) : Quantity → Prop
  | .count _ => c.isDigit = true
  | .list _ => c = '['
  | .set _ => c = '{'

theorem Quantity.exists_begins (q : Quantity) : ∃ c rest, q.text.toList = c :: rest ∧ q.Begins c := by
  cases q with
  | count n =>
    obtain ⟨c, rest, hdigits, hc⟩ := Text.Digit.exists_toDigits n
    exact ⟨c, rest, (Text.Digit.toList_toString n).trans hdigits, hc⟩
  | list names =>
    refine ⟨'[', (Text.Quoted.items (names.map Text.Quoted.quote) ++ "]").toList, ?_, rfl⟩
    simp [text, Text.Quoted.list]
  | set names =>
    refine ⟨'{', (Text.Quoted.items (names.toList.map Text.Quoted.quote) ++ "\x7d").toList, ?_, rfl⟩
    simp [text, Text.Quoted.set]

/-- **The text of a quantity determines it**, whatever characters its names hold. -/
theorem Quantity.text_injective : Function.Injective Quantity.text := by
  intro q q' h
  obtain ⟨c, rest, htext, hbegins⟩ := q.exists_begins
  obtain ⟨c', rest', htext', hbegins'⟩ := q'.exists_begins
  obtain rfl : c = c' := by
    rw [h, htext'] at htext
    exact (List.cons.inj htext).1.symm
  -- the first character tells what kind of quantity each is
  cases q with
  | count n =>
    cases q' with
    | count m => exact congrArg Quantity.count (Text.Digit.toString_injective h)
    | list _ | set _ =>
      obtain rfl := hbegins'
      cases hbegins
  | list names =>
    obtain rfl := hbegins
    cases q' with
    | list names' => exact congrArg Quantity.list (Text.Quoted.list_injective h)
    | count _ | set _ => cases hbegins'
  | set names =>
    obtain rfl := hbegins
    cases q' with
    | set names' =>
      obtain ⟨members, hmembers⟩ := names
      obtain ⟨members', hmembers'⟩ := names'
      obtain rfl : members = members' := Text.Quoted.set_injective h
      rfl
    | count _ | list _ => cases hbegins'

/-! ## Mismatches -/

/-- Whatever mismatch a comparison ends in tells its sides by different texts. -/
def TellsApart {α : Type} (x : Except Error α) : Prop :=
  ∀ subject expected found, x = .error (.mismatch subject expected found) → expected ≠ found

section TellsApart

variable {α β : Type}

/-- Two steps of which each tells its mismatches apart. -/
theorem TellsApart.bind {x : Except Error α} {f : α → Except Error β} (hx : TellsApart x)
    (hf : ∀ a, TellsApart (f a)) : TellsApart (x >>= f) := by
  intro subject expected found h
  cases x with
  | error e =>
    cases h
    exact hx subject expected found rfl
  | ok a => exact hf a subject expected found h

/-- A comparison of quantities fails only where they differ, and so do their texts. -/
theorem tellsApart_expectEqual (subject : String) (expected found : Quantity) :
    TellsApart (expectEqual subject expected found) := by
  intro _ _ _ h
  unfold expectEqual at h
  split at h
  · cases h
  · rename_i hne
    cases h
    intro htext
    exact hne (Quantity.text_injective htext)

end TellsApart

namespace Check

/-- A case without a name is no mismatch. -/
theorem tellsApart_addAll : ∀ (names : CaseNames) (cases : List Case), TellsApart (names.addAll cases)
  | names, [] => by
    intro _ _ _ h
    cases h
  | names, c :: rest => by
    unfold CaseNames.addAll
    cases c.name with
    | some name => exact tellsApart_addAll (names.add c name) rest
    | none =>
      intro _ _ _ h
      cases h

theorem tellsApart_compareCases (cases : List Case) (expected : JunitExpectations) :
    TellsApart (compareCases cases expected) := by
  apply (tellsApart_expectEqual _ _ _).bind
  intro _
  apply (tellsApart_addAll .empty cases).bind
  intro names
  apply (tellsApart_expectEqual _ _ _).bind
  intro _
  exact tellsApart_expectEqual _ _ _

theorem tellsApart_compareResults (b : Buckets) (expected : PluginExpectations) :
    TellsApart (compareResults b expected) := by
  apply (tellsApart_expectEqual _ _ _).bind
  intro _
  apply (tellsApart_expectEqual _ _ _).bind
  intro _
  exact tellsApart_expectEqual _ _ _

/-- The number of unknown events is told with their types behind a blank, which no number holds. -/
theorem tellsApart_compareUnknown (b : Buckets) (expected : PluginExpectations) :
    TellsApart (compareUnknown b expected) := by
  intro _ _ _ h
  unfold compareUnknown at h
  split at h
  · cases h
  · cases h
    intro htext
    apply Text.Digit.not_mem_toString (c := ' ') (by decide) expected.unknownEvents
    rw [htext]
    simp

/-- **A mismatch always shows a difference.** The text of a count, of a list of names and of a set of names determines
what it tells, whatever characters the names hold. So every mismatch that test cases or events end in tells what is
expected and what is found by different texts. -/
theorem mismatch_tellsApart :
    Function.Injective Quantity.text ∧
      (∀ (cases : List Case) (expected : JunitExpectations), TellsApart (compareCases cases expected)) ∧
      ∀ (b : Buckets) (expected : PluginExpectations), TellsApart (compareResults b expected) ∧
        TellsApart (compareTearDowns b expected) ∧ TellsApart (compareUnknown b expected) := by
  refine ⟨Quantity.text_injective, tellsApart_compareCases, fun b expected => ?_⟩
  exact ⟨tellsApart_compareResults b expected, tellsApart_expectEqual _ _ _, tellsApart_compareUnknown b expected⟩

/-- One name that reads like two on the other side, its quotes apart. -/
theorem mismatch_tellsApart_quotes :
    let named (name : String) : Case := ⟨[("name", name)], []⟩
    let expected : JunitExpectations := ⟨"report.xml", 2, .ofList ["a\", \"b"], .empty⟩
    let texts := ("\x7b\"a\\\", \\\"b\"\x7d", "\x7b\"a\", \"b\"\x7d")
    compareCases [named "a", named "b"] expected =
        .error (.mismatch "successful JUnit test cases" texts.1 texts.2) ∧ texts.1 ≠ texts.2 := by
  intro named expected texts
  have hmismatch : compareCases [named "a", named "b"] expected =
      .error (.mismatch "successful JUnit test cases" texts.1 texts.2) := by
    rfl
  exact ⟨hmismatch, mismatch_tellsApart.2.1 _ _ _ _ _ hmismatch⟩

end Check

end RunAudit
