import RunAudit.Json.Reader
import RunAudit.Proofs.Audit
import RunAudit.Proofs.Fields

/-!
# Objects that are read have each key once

A key that is read again keeps its place and takes the later entry, so in a value that is read, every object has each
key once, at any depth (`keysOnce_of_value`, `keysOnce_of_readList`).
-/

namespace RunAudit

/-- **A value in which every object has each key once.** -/
inductive Value.KeysOnce : Value → Prop
  | null : KeysOnce .null
  | bool (b : Bool) : KeysOnce (.bool b)
  | number (n : Number) : KeysOnce (.number n)
  | string (s : String) : KeysOnce (.string s)
  | list {items : List Value} : (∀ v ∈ items, KeysOnce v) → KeysOnce (.list items)
  | object {fields : Fields Value} : fields.keys.Nodup → (∀ f ∈ fields, KeysOnce f.2) → KeysOnce (.object fields)

/-- A field that is put keeps each key once. -/
theorem Value.KeysOnce.put {fields : Fields Value} (h : (Value.object fields).KeysOnce) {v : Value} (hv : v.KeysOnce)
    (key : String) : (Value.object (fields.put key v)).KeysOnce := by
  cases h with
  | object hkeys hfields =>
    refine .object (Fields.nodup_keys_put hkeys key v) fun f hf => ?_
    rcases Fields.mem_put hf with rfl | hf
    · exact hv
    · exact hfields f hf

namespace Json

/-- A reading step that gives only values in which every object has each key once. -/
def ReadsKeysOnce (item : (s : List Char) → Except Trouble (Read Value s)) : Prop :=
  ∀ s r, item s = .ok r → r.value.KeysOnce

theorem value_of_word {input : List Char} {v : Value} : ∀ {expected s : List Char} {h : s.length ≤ input.length}
    {r : Read Value input}, word input expected v s h = .ok r → r.value = v
  | [], _, _, _, hr => congrArg Read.value (Except.ok.inj hr).symm
  | _ :: _, [], _, r, hr => by
    cases (hr : (Except.error _ : Except Trouble (Read Value input)) = .ok r)
  | e :: es, c :: rest, _, r, hr => by
    have hstep : (if c = e then word input es v rest _ else .error _) = .ok r := hr
    split at hstep
    · exact value_of_word hstep
    · cases hstep

theorem keysOnce_of_scalar {s : List Char} {r : Read Value s} (h : scalar s = .ok r) : r.value.KeysOnce := by
  unfold scalar at h
  split at h
  case h_1 => cases h
  case h_2 | h_3 | h_4 =>
    obtain ⟨w, hw, rfl⟩ := map_eq_ok_iff.1 h
    show w.value.KeysOnce
    rw [value_of_word hw]
    constructor
  case h_5 =>
    obtain ⟨n, _, rfl⟩ := map_eq_ok_iff.1 h
    exact .number _
  case h_6 =>
    obtain ⟨text, _, rfl⟩ := map_eq_ok_iff.1 h
    exact .string _
  case h_7 =>
    split at h
    · obtain ⟨n, _, rfl⟩ := map_eq_ok_iff.1 h
      exact .number _
    · cases h

section Inner

variable {item : (s : List Char) → Except Trouble (Read Value s)} (hitem : ReadsKeysOnce item)
include hitem

theorem keysOnce_of_items {input : List Char} {before : List Value} {s : List Char} {h : s.length ≤ input.length}
    {r : Read Value input} (hbefore : ∀ v ∈ before, v.KeysOnce) (hr : items item before s h = .ok r) :
    r.value.KeysOnce := by
  fun_induction items item before s h with
  | case3 before s h read hread =>
    -- the list ends behind this item
    cases hr
    refine .list fun v hv => ?_
    rcases List.mem_cons.1 (List.mem_reverse.1 hv) with rfl | hv
    · exact hitem _ _ hread
    · exact hbefore v hv
  | case6 before s h read hread _ rest _ _ _ _ ih =>
    exact ih (List.forall_mem_cons.2 ⟨hitem _ _ hread, hbefore⟩) hr
  | _ => cases hr

theorem keysOnce_of_list {s : List Char} {r : Read Value s} (hr : list item s = .ok r) : r.value.KeysOnce := by
  unfold list at hr
  split at hr
  · cases hr
  · cases hr
    exact .list fun v hv => by cases hv
  · exact keysOnce_of_items hitem (fun v hv => by cases hv) hr

theorem keysOnce_of_fieldValue {s : List Char} {r : Read Value s} (hr : fieldValue item s = .ok r) :
    r.value.KeysOnce := by
  unfold fieldValue at hr
  split at hr
  · cases hr
  · obtain ⟨v, hv, rfl⟩ := map_eq_ok_iff.1 hr
    exact hitem _ v hv
  · cases hr

theorem keysOnce_of_fields {input : List Char} {before : Fields Value} {s : List Char} {h : s.length ≤ input.length}
    {r : Read Value input} (hbefore : (Value.object before).KeysOnce) (hr : fields item before s h = .ok r) :
    r.value.KeysOnce := by
  fun_induction fields item before s h with
  | case4 before s h key _ v hv =>
    -- the object ends behind this field
    cases hr
    exact hbefore.put (keysOnce_of_fieldValue hitem hv) _
  | case6 before s h key _ v hv _ _ _ _ _ _ _ _ ih => exact ih (hbefore.put (keysOnce_of_fieldValue hitem hv) _) hr
  | _ => cases hr

theorem keysOnce_of_object {s : List Char} {r : Read Value s} (hr : object item s = .ok r) : r.value.KeysOnce := by
  have hnone : (Value.object []).KeysOnce := .object List.nodup_nil fun f hf => by cases hf
  unfold object at hr
  split at hr
  · cases hr
  · cases hr
    exact hnone
  · exact keysOnce_of_fields hitem hnone hr
  · cases hr

end Inner

theorem keysOnce_of_valueOf {inner : Option ((s : List Char) → Except Trouble (Read Value s))}
    (hinner : ∀ item ∈ inner, ReadsKeysOnce item) : ReadsKeysOnce (valueOf inner) := by
  intro s r hr
  unfold valueOf at hr
  split at hr
  case h_1 | h_2 => cases hr
  case h_3 =>
    obtain ⟨v, hv, rfl⟩ := map_eq_ok_iff.1 hr
    exact (keysOnce_of_list (hinner _ rfl) hv : v.value.KeysOnce)
  case h_4 =>
    obtain ⟨v, hv, rfl⟩ := map_eq_ok_iff.1 hr
    exact (keysOnce_of_object (hinner _ rfl) hv : v.value.KeysOnce)
  case h_5 =>
    obtain ⟨v, hv, rfl⟩ := map_eq_ok_iff.1 hr
    exact (keysOnce_of_scalar hv : v.value.KeysOnce)

/-- **In a value that is read**, every object has each key once. -/
theorem keysOnce_of_value : ∀ depth, ReadsKeysOnce (value depth)
  | 0 => keysOnce_of_valueOf fun _ h => by cases h
  | depth + 1 => keysOnce_of_valueOf fun _ h => by
    cases h
    exact keysOnce_of_value depth

/-- **In a list that is read**, every object has each key once. -/
theorem keysOnce_of_readList {text : String} {items : List Value} (h : readList text = .ok items) :
    ∀ v ∈ items, v.KeysOnce := by
  have hdocument : document text.toList = .ok items := mapError_eq_ok_iff.1 h
  unfold document at hdocument
  split at hdocument
  · cases hdocument
  · cases hdocument
  · split at hdocument
    · cases hdocument
    · rename_i r hr
      have hkeys := keysOnce_of_value _ _ r hr
      split at hdocument
      · rename_i vs hvs _
        cases hdocument
        rw [hvs] at hkeys
        cases hkeys with
        | list hitems => exact hitems
      · cases hdocument
      · cases hdocument

end Json

end RunAudit
