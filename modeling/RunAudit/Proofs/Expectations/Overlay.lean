import RunAudit.Expectations.Document
import RunAudit.Proofs.Json.Roundtrip
import RunAudit.Proofs.Yaml.Decoding

/-!
# Expectations over the defaults

An object says what is expected field by field (`Expectations.ofValue?`): each field of the expectations is what the
object has for its name, or the default. A text that writes such an object in the portable dialect is parsed as these
expectations (`Expectations.parse_portable`), and a JSON reader finds the same object there; in the standard dialect
it need not be parsed at all (`Expectations.not_parse_standard`).
-/

namespace RunAudit

open Yaml

/-! ## What an object says -/

namespace Fields

variable {α : Type}

/-- What the entry of a key says, or a default where there is none. -/
def readOr (fields : Fields Value) (key : String) (read : Value → Option α) (default : α) : Option α :=
  match fields.get? key with
  | some v => read v
  | none => some default

@[simp] theorem readOr_nil (key : String) (read : Value → Option α) (default : α) :
    readOr [] key read default = some default := rfl

theorem readOr_cons_self (key : String) (v : Value) (rest : Fields Value) (read : Value → Option α) (default : α) :
    readOr ((key, v) :: rest) key read default = read v := by simp [readOr, get?]

theorem readOr_cons_of_ne {k key : String} (h : k ≠ key) (v : Value) (rest : Fields Value) (read : Value → Option α)
    (default : α) : readOr ((k, v) :: rest) key read default = readOr rest key read default := by
  simp [readOr, get?, h]

theorem readOr_of_not_mem {rest : Fields Value} {key : String} (h : key ∉ rest.keys) (read : Value → Option α)
    (default : α) : readOr rest key read default = some default := by
  have hnone : rest.get? key = none := by
    rw [get?, List.find?_eq_none.2]
    · rfl
    · rintro entry hentry heq
      obtain rfl := eq_of_beq heq
      exact h (List.mem_map_of_mem hentry)
  rw [readOr, hnone]

end Fields

namespace Value

/-- The set of names that a value lists. -/
def names? (v : Value) : Option NameSet := v.texts?.map NameSet.ofList

end Value

namespace JunitExpectations

/-- Fields over what is expected of test cases. -/
def ofFields? (base : JunitExpectations) (fields : Fields Value) : Option JunitExpectations := do
  let report ← fields.readOr "report" Value.text? base.report
  let caseCount ← fields.readOr "case_count" Value.count? base.caseCount
  let successful ← fields.readOr "successful" Value.names? base.successful
  let failed ← fields.readOr "failed" Value.names? base.failed
  return ⟨report, caseCount, successful, failed⟩

/-- What an object says of test cases. -/
def ofValue? : Value → Option JunitExpectations := recordOf? schema.known (ofFields? .default)

end JunitExpectations

namespace PluginExpectations

/-- Fields over what is expected of events. -/
def ofFields? (base : PluginExpectations) (fields : Fields Value) : Option PluginExpectations := do
  let report ← fields.readOr "report" Value.text? base.report
  let testEntries ← fields.readOr "test_entries" Value.texts? base.testEntries
  let passingRuns ← fields.readOr "passing_runs" Value.texts? base.passingRuns
  let failingRuns ← fields.readOr "failing_runs" Value.texts? base.failingRuns
  let tearDownEvents ← fields.readOr "tear_down_events" Value.count? base.tearDownEvents
  let unknownEvents ← fields.readOr "unknown_events" Value.count? base.unknownEvents
  return ⟨report, testEntries, passingRuns, failingRuns, tearDownEvents, unknownEvents⟩

/-- What an object says of events. -/
def ofValue? : Value → Option PluginExpectations := recordOf? schema.known (ofFields? .default)

end PluginExpectations

namespace Expectations

/-- Fields over expectations. -/
def ofFields? (base : Expectations) (fields : Fields Value) : Option Expectations := do
  let reports ← fields.readOr "reports" Value.texts? base.reports
  let junit ← fields.readOr "junit" JunitExpectations.ofValue? base.junit
  let pluginOutput ← fields.readOr "plugin_output" PluginExpectations.ofValue? base.pluginOutput
  return ⟨reports, junit, pluginOutput⟩

/-- **What an object says** is expected. -/
def ofValue? : Value → Option Expectations := recordOf? schema.known (ofFields? .default)

end Expectations

/-! ## One field at a time -/

section Setters

variable {α : Type} {v : Value}

theorem map_string_of_stands {s : String} (hv : v.text? = some s) (f : String → α) (site : Decode.Site) (n : Node)
    (hn : Stands v n) : (Decode.string site .string n).map f = .ok (f s) := by
  obtain rfl := Value.eq_of_text? hv
  rw [string_of_stands hn]
  rfl

theorem map_count_of_stands {c : Nat} (hv : v.count? = some c) (f : Nat → α) (site : Decode.Site) (n : Node)
    (hn : Stands v n) : (Decode.count site n).map f = .ok (f c) := by
  obtain ⟨rfl, hc⟩ := Value.eq_of_count? hv
  rw [count_of_stands hc hn]
  rfl

theorem map_texts_of_stands {texts : List String} (hv : v.texts? = some texts) (f : List String → α)
    (site : Decode.Site) (n : Node) (hn : Stands v n) : (Decode.texts site n).map f = .ok (f texts) := by
  rw [texts_of_stands hv hn]
  rfl

theorem map_record_of_stands {β : Type} {schema : Decode.Schema β} {decode : β → Fields Value → Option β} {base e : β}
    (hagrees : Agrees schema decode) (hv : recordOf? schema.known (decode base) v = some e) (f : β → α)
    (site : Decode.Site) (n : Node) (hn : Stands v n) : (Decode.record schema site base n).map f = .ok (f e) := by
  rw [record_of_stands hagrees hv hn]
  rfl

end Setters

namespace JunitExpectations

theorem ofFields?_eq_some {base e : JunitExpectations} {fields : Fields Value} : ofFields? base fields = some e ↔
    fields.readOr "report" Value.text? base.report = some e.report ∧
    fields.readOr "case_count" Value.count? base.caseCount = some e.caseCount ∧
    fields.readOr "successful" Value.names? base.successful = some e.successful ∧
    fields.readOr "failed" Value.names? base.failed = some e.failed := by
  cases e
  simp [ofFields?, Option.bind_eq_some_iff]

theorem agrees : Agrees schema ofFields? where
  nil base := by simp [ofFields?]
  cons {base key v rest e} hkey hnew h := by
    obtain ⟨h₁, h₂, h₃, h₄⟩ := ofFields?_eq_some.1 h
    simp only [schema, List.mem_cons, List.not_mem_nil, or_false] at hkey
    rcases hkey with rfl | rfl | rfl | rfl
    · simp [Fields.readOr_cons_self, Fields.readOr_cons_of_ne] at h₁ h₂ h₃ h₄
      exact ⟨{ base with report := e.report }, map_string_of_stands h₁ _,
        ofFields?_eq_some.2 ⟨Fields.readOr_of_not_mem hnew _ _, h₂, h₃, h₄⟩⟩
    · simp [Fields.readOr_cons_self, Fields.readOr_cons_of_ne] at h₁ h₂ h₃ h₄
      exact ⟨{ base with caseCount := e.caseCount }, map_count_of_stands h₂ _,
        ofFields?_eq_some.2 ⟨h₁, Fields.readOr_of_not_mem hnew _ _, h₃, h₄⟩⟩
    · simp [Fields.readOr_cons_self, Fields.readOr_cons_of_ne] at h₁ h₂ h₃ h₄
      obtain ⟨texts, htexts, hnames⟩ := Option.map_eq_some_iff.1 h₃
      exact ⟨{ base with successful := .ofList texts }, map_texts_of_stands htexts _,
        ofFields?_eq_some.2 ⟨h₁, h₂, hnames ▸ Fields.readOr_of_not_mem hnew _ _, h₄⟩⟩
    · simp [Fields.readOr_cons_self, Fields.readOr_cons_of_ne] at h₁ h₂ h₃ h₄
      obtain ⟨texts, htexts, hnames⟩ := Option.map_eq_some_iff.1 h₄
      exact ⟨{ base with failed := .ofList texts }, map_texts_of_stands htexts _,
        ofFields?_eq_some.2 ⟨h₁, h₂, h₃, hnames ▸ Fields.readOr_of_not_mem hnew _ _⟩⟩

end JunitExpectations

namespace PluginExpectations

theorem ofFields?_eq_some {base e : PluginExpectations} {fields : Fields Value} : ofFields? base fields = some e ↔
    fields.readOr "report" Value.text? base.report = some e.report ∧
    fields.readOr "test_entries" Value.texts? base.testEntries = some e.testEntries ∧
    fields.readOr "passing_runs" Value.texts? base.passingRuns = some e.passingRuns ∧
    fields.readOr "failing_runs" Value.texts? base.failingRuns = some e.failingRuns ∧
    fields.readOr "tear_down_events" Value.count? base.tearDownEvents = some e.tearDownEvents ∧
    fields.readOr "unknown_events" Value.count? base.unknownEvents = some e.unknownEvents := by
  cases e
  simp [ofFields?, Option.bind_eq_some_iff]

theorem agrees : Agrees schema ofFields? where
  nil base := by simp [ofFields?]
  cons {base key v rest e} hkey hnew h := by
    obtain ⟨h₁, h₂, h₃, h₄, h₅, h₆⟩ := ofFields?_eq_some.1 h
    simp only [schema, List.mem_cons, List.not_mem_nil, or_false] at hkey
    rcases hkey with rfl | rfl | rfl | rfl | rfl | rfl
    · simp [Fields.readOr_cons_self, Fields.readOr_cons_of_ne] at h₁ h₂ h₃ h₄ h₅ h₆
      exact ⟨{ base with report := e.report }, map_string_of_stands h₁ _,
        ofFields?_eq_some.2 ⟨Fields.readOr_of_not_mem hnew _ _, h₂, h₃, h₄, h₅, h₆⟩⟩
    · simp [Fields.readOr_cons_self, Fields.readOr_cons_of_ne] at h₁ h₂ h₃ h₄ h₅ h₆
      exact ⟨{ base with testEntries := e.testEntries }, map_texts_of_stands h₂ _,
        ofFields?_eq_some.2 ⟨h₁, Fields.readOr_of_not_mem hnew _ _, h₃, h₄, h₅, h₆⟩⟩
    · simp [Fields.readOr_cons_self, Fields.readOr_cons_of_ne] at h₁ h₂ h₃ h₄ h₅ h₆
      exact ⟨{ base with passingRuns := e.passingRuns }, map_texts_of_stands h₃ _,
        ofFields?_eq_some.2 ⟨h₁, h₂, Fields.readOr_of_not_mem hnew _ _, h₄, h₅, h₆⟩⟩
    · simp [Fields.readOr_cons_self, Fields.readOr_cons_of_ne] at h₁ h₂ h₃ h₄ h₅ h₆
      exact ⟨{ base with failingRuns := e.failingRuns }, map_texts_of_stands h₄ _,
        ofFields?_eq_some.2 ⟨h₁, h₂, h₃, Fields.readOr_of_not_mem hnew _ _, h₅, h₆⟩⟩
    · simp [Fields.readOr_cons_self, Fields.readOr_cons_of_ne] at h₁ h₂ h₃ h₄ h₅ h₆
      exact ⟨{ base with tearDownEvents := e.tearDownEvents }, map_count_of_stands h₅ _,
        ofFields?_eq_some.2 ⟨h₁, h₂, h₃, h₄, Fields.readOr_of_not_mem hnew _ _, h₆⟩⟩
    · simp [Fields.readOr_cons_self, Fields.readOr_cons_of_ne] at h₁ h₂ h₃ h₄ h₅ h₆
      exact ⟨{ base with unknownEvents := e.unknownEvents }, map_count_of_stands h₆ _,
        ofFields?_eq_some.2 ⟨h₁, h₂, h₃, h₄, h₅, Fields.readOr_of_not_mem hnew _ _⟩⟩

end PluginExpectations

namespace Expectations

theorem ofFields?_eq_some {base e : Expectations} {fields : Fields Value} : ofFields? base fields = some e ↔
    fields.readOr "reports" Value.texts? base.reports = some e.reports ∧
    fields.readOr "junit" JunitExpectations.ofValue? base.junit = some e.junit ∧
    fields.readOr "plugin_output" PluginExpectations.ofValue? base.pluginOutput = some e.pluginOutput := by
  cases e
  simp [ofFields?, Option.bind_eq_some_iff]

theorem agrees : Agrees schema ofFields? where
  nil base := by simp [ofFields?]
  cons {base key v rest e} hkey hnew h := by
    obtain ⟨h₁, h₂, h₃⟩ := ofFields?_eq_some.1 h
    simp only [schema, List.mem_cons, List.not_mem_nil, or_false] at hkey
    rcases hkey with rfl | rfl | rfl
    · simp [Fields.readOr_cons_self, Fields.readOr_cons_of_ne] at h₁ h₂ h₃
      exact ⟨{ base with reports := e.reports }, map_texts_of_stands h₁ _,
        ofFields?_eq_some.2 ⟨Fields.readOr_of_not_mem hnew _ _, h₂, h₃⟩⟩
    · simp [Fields.readOr_cons_self, Fields.readOr_cons_of_ne] at h₁ h₂ h₃
      exact ⟨{ base with junit := e.junit }, map_record_of_stands JunitExpectations.agrees h₂ _,
        ofFields?_eq_some.2 ⟨h₁, Fields.readOr_of_not_mem hnew _ _, h₃⟩⟩
    · simp [Fields.readOr_cons_self, Fields.readOr_cons_of_ne] at h₁ h₂ h₃
      exact ⟨{ base with pluginOutput := e.pluginOutput }, map_record_of_stands PluginExpectations.agrees h₃ _,
        ofFields?_eq_some.2 ⟨h₁, h₂, Fields.readOr_of_not_mem hnew _ _⟩⟩

end Expectations

/-! ## What a JSON reader finds -/

section Readable

variable {v : Value}

theorem readable_of_text? {s : String} (h : v.text? = some s) (depth : Nat) : Json.Readable depth v := by
  obtain rfl := Value.eq_of_text? h
  exact Json.readable_string s depth

theorem readable_of_count? {n : Nat} (h : v.count? = some n) (depth : Nat) : Json.Readable depth v := by
  obtain ⟨rfl, hn⟩ := Value.eq_of_count? h
  exact Json.readable_natural (Nat.le_pred_of_lt hn) depth

theorem readable_of_texts? {texts : List String} (h : v.texts? = some texts) (depth : Nat) :
    Json.Readable (depth + 1) v := by
  obtain rfl := Value.eq_of_texts? h
  intro w hw
  obtain ⟨s, _, rfl⟩ := List.mem_map.1 hw
  exact Json.readable_string s depth

theorem readable_of_names? {names : NameSet} (h : v.names? = some names) (depth : Nat) :
    Json.Readable (depth + 1) v := by
  obtain ⟨texts, htexts, _⟩ := Option.map_eq_some_iff.1 h
  exact readable_of_texts? htexts depth

/-- An object that is read as a record is found by a JSON reader, if its entries are. -/
theorem readable_of_recordOf? {α : Type} {known : List String} {read : Fields Value → Option α} {e : α} {depth : Nat}
    (hv : recordOf? known read v = some e) (h : ∀ fields, read fields = some e → ∀ key ∈ known, ∀ w,
      fields.get? key = some w → Json.Readable depth w) : Json.Readable (depth + 1) v := by
  cases v with
  | object fields =>
    rw [recordOf?, Option.ite_none_right_eq_some] at hv
    obtain ⟨⟨hknown, hnodup⟩, hread⟩ := hv
    refine ⟨hnodup, fun f hf => ?_⟩
    exact h fields hread f.1 (hknown f.1 (List.mem_map_of_mem hf)) f.2 (Fields.get?_of_mem hnodup hf)
  | null | bool | number | string | list => cases hv

end Readable

theorem Fields.eq_of_readOr {α : Type} {fields : Fields Value} {key : String} {read : Value → Option α} {default x : α}
    (h : fields.readOr key read default = some x) {v : Value} (hv : fields.get? key = some v) : read v = some x := by
  simpa only [readOr, hv] using h

theorem JunitExpectations.readable {v : Value} {e : JunitExpectations} (h : ofValue? v = some e) (depth : Nat) :
    Json.Readable (depth + 2) v := by
  refine readable_of_recordOf? h fun fields hfields key hkey w hw => ?_
  obtain ⟨h₁, h₂, h₃, h₄⟩ := ofFields?_eq_some.1 hfields
  simp only [schema, List.mem_cons, List.not_mem_nil, or_false] at hkey
  rcases hkey with rfl | rfl | rfl | rfl
  · exact readable_of_text? (Fields.eq_of_readOr h₁ hw) _
  · exact readable_of_count? (Fields.eq_of_readOr h₂ hw) _
  · exact readable_of_names? (Fields.eq_of_readOr h₃ hw) _
  · exact readable_of_names? (Fields.eq_of_readOr h₄ hw) _

theorem PluginExpectations.readable {v : Value} {e : PluginExpectations} (h : ofValue? v = some e) (depth : Nat) :
    Json.Readable (depth + 2) v := by
  refine readable_of_recordOf? h fun fields hfields key hkey w hw => ?_
  obtain ⟨h₁, h₂, h₃, h₄, h₅, h₆⟩ := ofFields?_eq_some.1 hfields
  simp only [schema, List.mem_cons, List.not_mem_nil, or_false] at hkey
  rcases hkey with rfl | rfl | rfl | rfl | rfl | rfl
  · exact readable_of_text? (Fields.eq_of_readOr h₁ hw) _
  · exact readable_of_texts? (Fields.eq_of_readOr h₂ hw) _
  · exact readable_of_texts? (Fields.eq_of_readOr h₃ hw) _
  · exact readable_of_texts? (Fields.eq_of_readOr h₄ hw) _
  · exact readable_of_count? (Fields.eq_of_readOr h₅ hw) _
  · exact readable_of_count? (Fields.eq_of_readOr h₆ hw) _

namespace Expectations

theorem readable {v : Value} {e : Expectations} (h : ofValue? v = some e) (depth : Nat) :
    Json.Readable (depth + 3) v := by
  refine readable_of_recordOf? h fun fields hfields key hkey w hw => ?_
  obtain ⟨h₁, h₂, h₃⟩ := ofFields?_eq_some.1 hfields
  simp only [schema, List.mem_cons, List.not_mem_nil, or_false] at hkey
  rcases hkey with rfl | rfl | rfl
  · exact readable_of_texts? (Fields.eq_of_readOr h₁ hw) _
  · exact JunitExpectations.readable (Fields.eq_of_readOr h₂ hw) _
  · exact PluginExpectations.readable (Fields.eq_of_readOr h₃ hw) _

/-! ## Texts -/

theorem isBlank_of_portable {fields : Fields Value} {text : String} (h : Portable fields text.toList) :
    Text.Blank.isBlank text = false := by
  obtain ⟨before, body, line, after, _, _, hbody, _, _, _, htext⟩ := h
  obtain ⟨inner, ls, rfl, _⟩ := Scanner.exists_fills hbody
  have hbrace : Text.Blank.isSpace '\x7b' = false := by decide
  simp [Text.Blank.isBlank, htext, hbrace]

/-- **A JSON text of the portable dialect** is parsed as the expectations that its object says. -/
theorem parse_portable {text : String} {fields : Fields Value} {e : Expectations} (h : Portable fields text.toList)
    (he : ofValue? (.object fields) = some e) :
    Json.readValue text.toList = some (.object fields) ∧ parse text = .ok e := by
  refine ⟨Json.readValue_of_derives h.derives (readable he 124), ?_⟩
  obtain ⟨root, hroot, hstand⟩ := ofText?_of_portable h
  have hrecord := record_of_stands agrees he hstand ⟨⟨some root, []⟩, []⟩
  rw [parse, isBlank_of_portable h, if_neg Bool.false_ne_true, hroot]
  simp only [ofDocument, hrecord]
  rfl

theorem parse_portable_two :
    parse "\x7b\"junit\": \x7b\"case_count\":7\x7d, \"reports\": [\"\\u00e9\"]\x7d\n" =
      .ok { Expectations.default with
        reports := ["é"]
        junit := { JunitExpectations.default with caseCount := 7 } } := by
  have hjunit := @quoted_of_plain "junit" rfl rfl
  have hcount := @quoted_of_plain "case_count" rfl rfl
  have hreports := @quoted_of_plain "reports" rfl rfl
  have hchar : Alike 'é' ['\\', 'u', '0', '0', 'e', '9'] := .code rfl rfl
  have htext : Json.Quoted portable "é" ['"', '\\', 'u', '0', '0', 'e', '9', '"'] := ⟨_, .cons hchar .nil, rfl, rfl⟩
  have hcolon : ∀ k, k.all (!isBreak ·) = true → k.length ≤ maxKeyLength → portable.colon k [] := fun k hk hl =>
    ⟨by simpa using hk, by simp, hl⟩
  have hblank : Json.Blank [' '] := by simp [Json.Blank, Json.isSpace]
  have hbreak : Json.Blank ['\n'] := by simp [Json.Blank, Json.isSpace]
  have hinner := Json.Derives.object <| .field <|
    .member Json.blank_nil hcount Json.blank_nil (hcolon _ rfl (by decide)) <|
      .element Json.blank_nil (.natural 7) Json.blank_nil
  have hlist := Json.Derives.list <| .item <| .element Json.blank_nil (.string htext) Json.blank_nil
  have hbody := Json.Derives.object <| .fields
    (.member Json.blank_nil hjunit Json.blank_nil (hcolon _ rfl (by decide)) (.element hblank hinner Json.blank_nil))
    (.field (.member hblank hreports Json.blank_nil (hcolon _ rfl (by decide)) (.element hblank hlist Json.blank_nil)))
  exact (parse_portable ⟨[], _, [], ['\n'], Json.blank_nil, by simp, hbody, by simp, hbreak, by simp, rfl⟩ rfl).2

/-- A character that is written as a surrogate pair, as JSON does it, is parsed as nothing. -/
theorem not_parse_standard : ¬∀ (text : String) (fields : Fields Value) (e : Expectations),
    Json.Derives Json.standard (.element (.object fields)) text.toList → ofValue? (.object fields) = some e →
      parse text = .ok e := by
  intro h
  have hreports : Json.Quoted Json.standard "reports" ('"' :: "reports".toList ++ ['"']) :=
    (@quoted_of_plain "reports" rfl rfl).mono (fun _ _ => Alike.spelled) fun _ _ => trivial
  have hchar : Json.Spelled '😀' "\\ud83d\\ude00".toList :=
    @Json.Spelled.pair _ ['d', '8', '3', 'd'] ['d', 'e', '0', '0'] (by decide) rfl rfl rfl rfl
  have htext : Json.Quoted Json.standard "😀" ('"' :: "\\ud83d\\ude00".toList ++ ['"']) :=
    ⟨_, .cons hchar .nil, trivial, rfl⟩
  have hlist := Json.Derives.list <| .item <| .element Json.blank_nil (.string htext) Json.blank_nil
  have hbody := Json.Derives.object <| .field <| .member Json.blank_nil hreports Json.blank_nil trivial <|
    .element Json.blank_nil hlist Json.blank_nil
  have hparse := h "\x7b\"reports\":[\"\\ud83d\\ude00\"]\x7d" _ { Expectations.default with reports := ["😀"] }
    (.element Json.blank_nil hbody Json.blank_nil) rfl
  have hnone : Document.ofText? "\x7b\"reports\":[\"\\ud83d\\ude00\"]\x7d" = none := by decide +kernel
  rw [parse, hnone] at hparse
  cases hparse

end Expectations

end RunAudit
