import RunAudit.Proofs.Json.Keys
import RunAudit.Proofs.Json.Roundtrip
import RunAudit.Proofs.Junit.Reading
import RunAudit.Proofs.Xml.Attributes

/-!
# Test cases as they are written

A case is written as an object with the attributes that no child hides and then the children. In a case that is read, no
key comes twice (`Case.Regular`), so the object has each key once and is read back from the text: its texts are the
attributes that show, its objects are the children, and these say all that a case has but the attributes that a child
hides (`ofText?_of_writtenAs`). So a written case tells its children and whether it has failed
(`readCases_serialized`).
-/

namespace RunAudit.Junit

open RunAudit.Xml
open RunAudit.Json (Derives standard readValue)

/-! ## Cases in which no key comes twice -/

/-- **A case as a report has it**: no key comes twice, and a child is kept by its tag. -/
structure Case.Regular (c : Case) : Prop where
  attributes : c.attributes.keys.Nodup
  tags : c.children.keys.Nodup
  children : ∀ entry ∈ c.children,
    entry.2.attributes.keys.Nodup ∧ entry.2 = .ofElement entry.1 entry.2.attributes

theorem attributes_ofElement (tag : String) (attributes : Fields String) :
    (Child.ofElement tag attributes).attributes = attributes := by
  unfold Child.ofElement
  split <;> rfl

/-- A case of elements whose attributes have distinct keys. -/
theorem regular_caseAt? {d : Document} (hd : ∀ e ∈ d.elements, e.attributes.keys.Nodup) {index : Nat} {c : Case}
    (h : caseAt? d index = some c) : c.Regular := by
  have hchildren : ∀ e ∈ d.children index, e.attributes.keys.Nodup := by
    intro e he
    unfold Document.children at he
    split at he
    · obtain ⟨i, _, hi⟩ := List.mem_filterMap.1 he
      exact hd e (Array.mem_of_getElem? hi)
    · cases he
  unfold caseAt? at h
  split at h
  · rename_i e he
    cases h
    refine ⟨hd e (Array.mem_of_getElem? he), ?_, fun entry hentry => ?_⟩
    · rw [entriesOf_eq]
      exact Fields.nodup_keys_ofPairs _
    · simp only [entriesOf_eq] at hentry
      obtain ⟨child, hchild, rfl⟩ := List.mem_map.1 (Fields.mem_of_mem_ofPairs hentry)
      rw [attributes_ofElement]
      exact ⟨hchildren child hchild, rfl⟩
  · cases h

/-- **The cases of a report** are as this says. -/
theorem regular_of_readCases {text : String} {cases : Cases} (h : readCases text = .ok cases) :
    ∀ c ∈ cases.records, c.Regular := by
  unfold readCases at h
  split at h
  · rename_i d hd
    cases h
    intro c hc
    obtain ⟨index, _, hindex⟩ := List.mem_filterMap.1 hc
    exact regular_caseAt? (nodup_keys_of_parse hd) hindex
  · cases h

/-! ## What is read back -/

/-- **How a case is written**: without blanks, or on lines that are moved in. -/
inductive Case.WrittenAs (c : Case) : List Char → Prop
  | compact : WrittenAs c (Json.compact c.toValue)
  | pretty (depth : Nat) : WrittenAs c (Json.prettyAt depth c.toValue)

/-- The fields that are texts. -/
def textsOf (fields : Fields Value) : Fields String :=
  fields.filterMap fun
    | (key, .string text) => some (key, text)
    | _ => none

/-- The fields that are objects. -/
def objectsOf (fields : Fields Value) : Fields (Fields Value) :=
  fields.filterMap fun
    | (key, .object inner) => some (key, inner)
    | _ => none

/-- A case from the fields of an object: its texts are attributes and its objects are children. -/
def Case.ofFields (fields : Fields Value) : Case :=
  ⟨textsOf fields, (objectsOf fields).map fun (tag, inner) => (tag, .ofElement tag (textsOf inner))⟩

/-- The case that a text writes. -/
def Case.ofText? (s : List Char) : Option Case :=
  match readValue s with
  | some (.object fields) => some (.ofFields fields)
  | _ => none

/-- Attributes as fields. -/
def fieldsOf (attributes : Fields String) : Fields Value := attributes.map fun (key, text) => (key, .string text)

theorem keys_fieldsOf (attributes : Fields String) : (fieldsOf attributes).keys = attributes.keys := by
  simp [fieldsOf, Fields.keys]

theorem textsOf_fieldsOf (attributes : Fields String) : textsOf (fieldsOf attributes) = attributes := by
  simp [textsOf, fieldsOf, List.filterMap_map]

theorem objectsOf_fieldsOf (attributes : Fields String) : objectsOf (fieldsOf attributes) = [] := by
  simp [objectsOf, fieldsOf]

/-- The fields of a case: the attributes that no child hides, then the children. -/
def Case.fields (c : Case) : Fields Value :=
  fieldsOf (c.attributes.filter fun entry => entry.1 ∉ c.children.keys) ++
    c.children.map fun (tag, child) => (tag, .object (fieldsOf child.attributes))

theorem toValue_eq (c : Case) : c.toValue = .object c.fields := by
  have hvisible : c.visibleAttributes = c.attributes.filter fun entry => entry.1 ∉ c.children.keys :=
    List.filter_congr fun entry _ => by simp [Fields.mem_keys_iff]
  rw [Case.toValue, hvisible]
  rfl

theorem keys_fields (c : Case) :
    c.fields.keys = Fields.keys (c.attributes.filter fun entry => entry.1 ∉ c.children.keys) ++ c.children.keys := by
  rw [← keys_fieldsOf (c.attributes.filter _)]
  simp [Case.fields, Fields.keys]

namespace Case.Regular

variable {c : Case} (h : c.Regular)
include h

/-- The object has each key once. -/
theorem nodup_keys_fields : c.fields.keys.Nodup := by
  rw [keys_fields]
  refine List.nodup_append.2 ⟨h.attributes.sublist (List.filter_sublist.map _), h.tags, ?_⟩
  -- an attribute that shows has the key of no child
  rintro key hkey tag htag rfl
  obtain ⟨entry, hentry, rfl⟩ := List.mem_map.1 hkey
  exact of_decide_eq_true (List.mem_filter.1 hentry).2 htag

/-- The object can be read. -/
theorem readable : Json.Readable Json.depthLimit (.object c.fields) := by
  refine ⟨h.nodup_keys_fields, fun field hfield => ?_⟩
  rcases List.mem_append.1 hfield with hfield | hfield
  · obtain ⟨entry, _, rfl⟩ := List.mem_map.1 hfield
    exact Json.readable_string _ _
  · obtain ⟨entry, hentry, rfl⟩ := List.mem_map.1 hfield
    refine ⟨keys_fieldsOf _ ▸ (h.children entry hentry).1, fun inner hinner => ?_⟩
    obtain ⟨shown, _, rfl⟩ := List.mem_map.1 hinner
    exact Json.readable_string _ _

theorem derives {written : List Char} (hw : c.WrittenAs written) :
    Derives standard (.value (.object c.fields)) written := by
  have hreadable := h.readable
  rw [← toValue_eq] at hreadable ⊢
  cases hw with
  | compact => exact Json.derives_compact hreadable
  | pretty depth => exact Json.derives_pretty hreadable depth

/-- **A case that is written is read back** as its object. -/
theorem readValue_eq {written : List Char} (hw : c.WrittenAs written) : readValue written = some (.object c.fields) :=
  Json.readValue_of_derives_value (h.derives hw) h.readable

/-- The texts are the attributes that show, and the objects are the children. -/
theorem ofFields_fields :
    Case.ofFields c.fields = ⟨c.attributes.filter fun entry => entry.1 ∉ c.children.keys, c.children⟩ := by
  have hchildren :
      c.children.map (fun entry => (entry.1, Child.ofElement entry.1 entry.2.attributes)) = c.children := by
    refine (List.map_congr_left fun entry hentry => ?_).trans (List.map_id _)
    rw [← (h.children entry hentry).2]
    rfl
  have htexts : textsOf c.fields = c.attributes.filter fun entry => entry.1 ∉ c.children.keys := by
    rw [Case.fields, textsOf, List.filterMap_append, ← textsOf, textsOf_fieldsOf]
    simp [List.filterMap_map]
  have hobjects : objectsOf c.fields = c.children.map fun entry => (entry.1, fieldsOf entry.2.attributes) := by
    rw [Case.fields, objectsOf, List.filterMap_append, ← objectsOf, objectsOf_fieldsOf]
    simp [List.filterMap_map]
  rw [Case.ofFields, htexts, hobjects, List.map_map]
  simp only [Function.comp_def, textsOf_fieldsOf, hchildren]

/-- **The text tells the case**, but for the attributes that a child hides. -/
theorem ofText?_of_writtenAs {written : List Char} (hw : c.WrittenAs written) :
    Case.ofText? written =
      some ⟨c.attributes.filter fun entry => entry.1 ∉ c.children.keys, c.children⟩ := by
  rw [Case.ofText?, h.readValue_eq hw]
  exact congrArg some h.ofFields_fields

/-- A case has failed just when its object has an object for the tag of failures. -/
theorem isFailed_iff : c.isFailed = true ↔ ∃ inner, c.fields.get? "failure" = some (.object inner) := by
  rw [Case.isFailed, ← Fields.mem_keys_iff]
  constructor
  · intro hfailed
    obtain ⟨entry, hentry, htag⟩ := List.mem_map.1 hfailed
    refine ⟨fieldsOf entry.2.attributes, Fields.get?_of_mem h.nodup_keys_fields ?_⟩
    exact List.mem_append_right _ (List.mem_map.2 ⟨entry, hentry, Prod.ext htag rfl⟩)
  · rintro ⟨inner, hinner⟩
    rcases List.mem_append.1 (Fields.mem_of_get? hinner) with hmem | hmem
    · obtain ⟨entry, _, hentry⟩ := List.mem_map.1 hmem
      cases congrArg Prod.snd hentry
    · obtain ⟨entry, hentry, heq⟩ := List.mem_map.1 hmem
      exact List.mem_map.2 ⟨entry, hentry, congrArg Prod.fst heq⟩

end Case.Regular

/-- **Written cases tell what they are.** The text of a case that was read writes an object with each key once, at any
depth: a text for each attribute that no child hides, in order, and then an object for each child with its attributes,
in order. So the text gives back the case up to the attributes that a child hides; cases with the same text have the
same children; and a case has failed just when the object has an object for the tag of failures. -/
theorem readCases_serialized {text : String} {cases : Cases} (h : readCases text = .ok cases) {c : Case}
    (hc : c ∈ cases.records) {written : List Char} (hw : c.WrittenAs written) :
    (∃ fields : Fields Value, Derives standard (.value (.object fields)) written ∧
      readValue written = some (.object fields) ∧ (Value.object fields).KeysOnce ∧
      fields = (c.attributes.filter fun entry => entry.1 ∉ c.children.keys).map (fun (key, value) =>
        (key, .string value)) ++ c.children.map (fun (tag, child) =>
          (tag, .object (child.attributes.map fun (key, value) => (key, .string value)))) ∧
      (c.isFailed = true ↔ ∃ inner, fields.get? "failure" = some (.object inner))) ∧
    Case.ofText? written = some ⟨c.attributes.filter fun entry => entry.1 ∉ c.children.keys, c.children⟩ ∧
    ∀ text' cases' c', readCases text' = .ok cases' → c' ∈ cases'.records → c'.WrittenAs written →
      c'.children = c.children := by
  have hregular := regular_of_readCases h c hc
  have hread := hregular.readValue_eq hw
  refine ⟨⟨c.fields, hregular.derives hw, hread, Json.keysOnce_of_readValue hread, rfl, hregular.isFailed_iff⟩,
    hregular.ofText?_of_writtenAs hw, fun text' cases' c' h' hc' hw' => ?_⟩
  have hsame := (regular_of_readCases h' c' hc').ofText?_of_writtenAs hw'
  rw [hregular.ofText?_of_writtenAs hw, Option.some.injEq, Case.mk.injEq] at hsame
  exact hsame.2.symm

/-- Cases of two reports that differ in an attribute that a child hides have one text. -/
theorem readCases_serialized_hidden :
    let recorded (hidden : String) : Case :=
      ⟨[("name", "a\"\n"), ("failure", hidden)], [("b", .other []), ("failure", .failure ⟨[("type", "\\")]⟩)]⟩
    let report (hidden : String) :=
      "<s><testcase name='a&quot;\n' failure='" ++ hidden ++ "'><b/><failure type='\\'/></testcase></s>"
    readCases (report "x") = .ok ⟨[recorded "x"], 0⟩ ∧ readCases (report "y") = .ok ⟨[recorded "y"], 0⟩ ∧
      (recorded "y").WrittenAs (Json.compact (recorded "x").toValue) ∧
      (recorded "x").children = (recorded "y").children ∧
      Case.ofText? (Json.compact (recorded "x").toValue) = some ⟨[("name", "a\"\n")], (recorded "x").children⟩ := by
  intro recorded report
  have hx : readCases (report "x") = .ok ⟨[recorded "x"], 0⟩ := by decide +kernel
  have hy : readCases (report "y") = .ok ⟨[recorded "y"], 0⟩ := by decide +kernel
  have hwritten : (recorded "y").WrittenAs (Json.compact (recorded "x").toValue) := .compact
  have htells := readCases_serialized hy (List.mem_singleton_self _) hwritten
  exact ⟨hx, hy, hwritten, htells.2.2 _ _ _ hx (List.mem_singleton_self _) .compact, htells.2.1⟩

end RunAudit.Junit
