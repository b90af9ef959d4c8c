import RunAudit.Expectations.Document
import RunAudit.Proofs.Yaml.Records
import RunAudit.Proofs.Yaml.White

/-!
# Expectations from the fields that a document names

Each field of the expectations is a slot of its record (`Expectations.slots`). So a document whose root is a mapping is
parsed just when it fits the types of the fields, at the top and in each of the two records below, and then each field
that it names has the value that is decoded for it, and every other field its default (`Expectations.parse_overlay`).
-/

namespace RunAudit

open Yaml

section Setters

variable {α : Type} {d : Document} {way : List Step} {n : Node} {next : α}

theorem map_string_eq_ok_iff {f : String → α} : (Decode.string ⟨d, way⟩ .string n).map f = .ok next ↔
    ∃ s, d.text? n = some s ∧ f s = next := by
  simp only [map_eq_ok_iff, string_eq_ok_iff]

theorem map_count_eq_ok_iff {f : Nat → α} : (Decode.count ⟨d, way⟩ n).map f = .ok next ↔
    ∃ c, d.count? n = some c ∧ f c = next := by
  simp only [map_eq_ok_iff, count_eq_ok_iff]

theorem map_texts_eq_ok_iff {f : List String → α} : (Decode.texts ⟨d, way⟩ n).map f = .ok next ↔
    ∃ texts, d.texts? n = some texts ∧ f texts = next := by
  simp only [map_eq_ok_iff, texts_eq_ok_iff]

theorem map_record_eq_ok_iff {β : Type} {schema : Decode.Schema β} {slots : List (Slot β)}
    (h : Describes d schema slots) {base : β} {f : β → α} : (Decode.record schema ⟨d, way⟩ base n).map f = .ok next ↔
      ∃ e, Written d slots base n e ∧ f e = next := by
  simp only [map_eq_ok_iff, record_eq_ok_iff h]

end Setters

/-- The set of names that a sequence lists. -/
def Yaml.Document.names? (d : Document) (n : Node) : Option NameSet := (d.texts? n).map .ofList

/-- What is made of a set of names is made of the sequence that lists them. -/
theorem exists_names?_iff {α : Type} {d : Document} {n : Node} {next : α} (f : NameSet → α) :
    (∃ names, d.names? n = some names ∧ f names = next) ↔
      ∃ texts, d.texts? n = some texts ∧ f (.ofList texts) = next := by
  simp only [Document.names?, Option.map_eq_some_iff]
  constructor
  · rintro ⟨_, ⟨texts, htexts, rfl⟩, rfl⟩
    exact ⟨texts, htexts, rfl⟩
  · rintro ⟨texts, htexts, rfl⟩
    exact ⟨_, ⟨texts, htexts, rfl⟩, rfl⟩

namespace JunitExpectations

/-- The fields of what is expected of test cases. -/
def slots (d : Document) : List (Slot JunitExpectations) := [
  ⟨"report", (d.text? · = some ·), report, fun e s => { e with report := s }⟩,
  ⟨"case_count", (d.count? · = some ·), caseCount, fun e c => { e with caseCount := c }⟩,
  ⟨"successful", (d.names? · = some ·), successful, fun e names => { e with successful := names }⟩,
  ⟨"failed", (d.names? · = some ·), failed, fun e names => { e with failed := names }⟩]

theorem places (d : Document) : Places (slots d) where
  names := by simp [slots]
  get_put := by simp [slots]
  get_put_of_ne := by simp [slots]
  ext e e' h := by
    cases e
    cases e'
    simpa [slots] using h

theorem describes (d : Document) : Describes d schema (slots d) where
  toPlaces := places d
  known := rfl
  set := by
    simp only [slots, List.forall_mem_cons]
    simp only [exists_names?_iff]
    exact ⟨fun _ _ _ _ => map_string_eq_ok_iff, fun _ _ _ _ => map_count_eq_ok_iff,
      fun _ _ _ _ => map_texts_eq_ok_iff, fun _ _ _ _ => map_texts_eq_ok_iff, nofun⟩

/-- The types of the fields. -/
def types (d : Document) : List (String × (Node → Prop)) := [
  ("report", fun n => ∃ s, d.text? n = some s),
  ("case_count", fun n => ∃ c, d.count? n = some c),
  ("successful", fun n => ∃ names, d.names? n = some names),
  ("failed", fun n => ∃ names, d.names? n = some names)]

/-- **What is expected of test cases** where a document names some fields. -/
structure Over (d : Document) (fields : Fields Node) (e : JunitExpectations) : Prop where
  report : Says (d.text? · = some ·) (fields.get? "report") default.report e.report
  caseCount : Says (d.count? · = some ·) (fields.get? "case_count") default.caseCount e.caseCount
  successful : Says (d.names? · = some ·) (fields.get? "successful") default.successful e.successful
  failed : Says (d.names? · = some ·) (fields.get? "failed") default.failed e.failed

theorem over_of_slots {d : Document} {fields : Fields Node} {e : JunitExpectations}
    (h : ∀ slot ∈ slots d, slot.Says fields default e) : Over d fields e := by
  simp only [slots, List.forall_mem_cons] at h
  exact ⟨h.1, h.2.1, h.2.2.1, h.2.2.2.1⟩

end JunitExpectations

namespace PluginExpectations

/-- The fields of what is expected of events. -/
def slots (d : Document) : List (Slot PluginExpectations) := [
  ⟨"report", (d.text? · = some ·), report, fun e s => { e with report := s }⟩,
  ⟨"test_entries", (d.texts? · = some ·), testEntries, fun e texts => { e with testEntries := texts }⟩,
  ⟨"passing_runs", (d.texts? · = some ·), passingRuns, fun e texts => { e with passingRuns := texts }⟩,
  ⟨"failing_runs", (d.texts? · = some ·), failingRuns, fun e texts => { e with failingRuns := texts }⟩,
  ⟨"tear_down_events", (d.count? · = some ·), tearDownEvents, fun e c => { e with tearDownEvents := c }⟩,
  ⟨"unknown_events", (d.count? · = some ·), unknownEvents, fun e c => { e with unknownEvents := c }⟩]

theorem places (d : Document) : Places (slots d) where
  names := by simp [slots]
  get_put := by simp [slots]
  get_put_of_ne := by simp [slots]
  ext e e' h := by
    cases e
    cases e'
    simpa [slots] using h

theorem describes (d : Document) : Describes d schema (slots d) where
  toPlaces := places d
  known := rfl
  set := by
    simp only [slots, List.forall_mem_cons]
    exact ⟨fun _ _ _ _ => map_string_eq_ok_iff, fun _ _ _ _ => map_texts_eq_ok_iff,
      fun _ _ _ _ => map_texts_eq_ok_iff, fun _ _ _ _ => map_texts_eq_ok_iff, fun _ _ _ _ => map_count_eq_ok_iff,
      fun _ _ _ _ => map_count_eq_ok_iff, nofun⟩

/-- The types of the fields. -/
def types (d : Document) : List (String × (Node → Prop)) := [
  ("report", fun n => ∃ s, d.text? n = some s),
  ("test_entries", fun n => ∃ texts, d.texts? n = some texts),
  ("passing_runs", fun n => ∃ texts, d.texts? n = some texts),
  ("failing_runs", fun n => ∃ texts, d.texts? n = some texts),
  ("tear_down_events", fun n => ∃ c, d.count? n = some c),
  ("unknown_events", fun n => ∃ c, d.count? n = some c)]

/-- **What is expected of events** where a document names some fields. -/
structure Over (d : Document) (fields : Fields Node) (e : PluginExpectations) : Prop where
  report : Says (d.text? · = some ·) (fields.get? "report") default.report e.report
  testEntries : Says (d.texts? · = some ·) (fields.get? "test_entries") default.testEntries e.testEntries
  passingRuns : Says (d.texts? · = some ·) (fields.get? "passing_runs") default.passingRuns e.passingRuns
  failingRuns : Says (d.texts? · = some ·) (fields.get? "failing_runs") default.failingRuns e.failingRuns
  tearDownEvents : Says (d.count? · = some ·) (fields.get? "tear_down_events") default.tearDownEvents e.tearDownEvents
  unknownEvents : Says (d.count? · = some ·) (fields.get? "unknown_events") default.unknownEvents e.unknownEvents

theorem over_of_slots {d : Document} {fields : Fields Node} {e : PluginExpectations}
    (h : ∀ slot ∈ slots d, slot.Says fields default e) : Over d fields e := by
  simp only [slots, List.forall_mem_cons] at h
  exact ⟨h.1, h.2.1, h.2.2.1, h.2.2.2.1, h.2.2.2.2.1, h.2.2.2.2.2.1⟩

end PluginExpectations

namespace Expectations

/-- The fields of expectations. -/
def slots (d : Document) : List (Slot Expectations) := [
  ⟨"reports", (d.texts? · = some ·), reports, fun e texts => { e with reports := texts }⟩,
  ⟨"junit", Written d (JunitExpectations.slots d) .default, junit, fun e j => { e with junit := j }⟩,
  ⟨"plugin_output", Written d (PluginExpectations.slots d) .default, pluginOutput,
    fun e p => { e with pluginOutput := p }⟩]

theorem places (d : Document) : Places (slots d) where
  names := by simp [slots]
  get_put := by simp [slots]
  get_put_of_ne := by simp [slots]
  ext e e' h := by
    cases e
    cases e'
    simpa [slots] using h

theorem describes (d : Document) : Describes d schema (slots d) where
  toPlaces := places d
  known := rfl
  set := by
    simp only [slots, List.forall_mem_cons]
    exact ⟨fun _ _ _ _ => map_texts_eq_ok_iff,
      fun _ _ _ _ => map_record_eq_ok_iff (JunitExpectations.describes d),
      fun _ _ _ _ => map_record_eq_ok_iff (PluginExpectations.describes d), nofun⟩

/-- The types of the fields, with those of the records below. -/
def types (d : Document) : List (String × (Node → Prop)) := [
  ("reports", fun n => ∃ texts, d.texts? n = some texts),
  ("junit", d.Fits (JunitExpectations.types d)),
  ("plugin_output", d.Fits (PluginExpectations.types d))]

theorem types_eq (d : Document) : types d = (slots d).map fun slot => (slot.name, fun n => ∃ x, slot.Reads n x) := by
  have hjunit : (fun n => ∃ e, Written d (JunitExpectations.slots d) .default n e) =
      d.Fits (JunitExpectations.types d) :=
    funext fun n => propext (exists_written_iff (JunitExpectations.places d))
  have hplugin : (fun n => ∃ e, Written d (PluginExpectations.slots d) .default n e) =
      d.Fits (PluginExpectations.types d) :=
    funext fun n => propext (exists_written_iff (PluginExpectations.places d))
  rw [types, ← hjunit, ← hplugin]
  rfl

/-- **What is expected** where a document names some fields: for each of the two records below, again what it names
there, and the defaults where it names nothing. -/
structure Over (d : Document) (fields : Fields Node) (e : Expectations) : Prop where
  reports : Says (d.texts? · = some ·) (fields.get? "reports") default.reports e.reports
  junit : Says (fun n junit => ∃ inner, d.fields? n = some inner ∧ JunitExpectations.Over d inner junit)
    (fields.get? "junit") .default e.junit
  pluginOutput : Says (fun n plugin => ∃ inner, d.fields? n = some inner ∧ PluginExpectations.Over d inner plugin)
    (fields.get? "plugin_output") .default e.pluginOutput

theorem over_of_slots {d : Document} {fields : Fields Node} {e : Expectations}
    (h : ∀ slot ∈ slots d, slot.Says fields default e) : Over d fields e := by
  simp only [slots, List.forall_mem_cons] at h
  obtain ⟨hreports, hjunit, hplugin, _⟩ := h
  refine ⟨hreports, Says.imp hjunit fun n hn => ?_, Says.imp hplugin fun n hn => ?_⟩
  · obtain ⟨inner, hinner, _, _, htold⟩ := hn
    exact ⟨inner, hinner, JunitExpectations.over_of_slots htold⟩
  · obtain ⟨inner, hinner, _, _, htold⟩ := hn
    exact ⟨inner, hinner, PluginExpectations.over_of_slots htold⟩

theorem parse_eq_ok_iff_written {text : String} {d : Document} (hd : Document.ofText? text = some d)
    {entries : List (Node × Node)} {m : Mark} (hroot : d.root = some (.mapping entries m)) {e : Expectations} :
    parse text = .ok e ↔ Written d (slots d) default (.mapping entries m) e := by
  have hblank : Text.Blank.isBlank text = false := by
    cases h : Text.Blank.isBlank text with
    | false => rfl
    | true => exact absurd hroot (root_ne_mapping_of_isBlank h hd entries m)
  rw [parse, hblank, if_neg Bool.false_ne_true, hd]
  simp only [ofDocument, hroot, mapError_eq_ok_iff, record_eq_ok_iff (describes d)]

end Expectations

end RunAudit
