import RunAudit.Proofs.Fields
import RunAudit.Proofs.Yaml.Events
import RunAudit.Yaml.Decode

/-!
# Decoding nodes that stand for values

A node that stands for a text, a count or a list of texts is decoded as that (`string_of_stands`, `count_of_stands`,
`texts_of_stands`). The fields of a record are set one after another as a decoder of values says it
(`record_of_stands`), if that agrees with it on one field at a time (`Agrees`).
-/

namespace RunAudit

namespace Value

/-- The text that a value is. -/
def text? : Value → Option String
  | .string s => some s
  | _ => none

/-- The count that a value is, which takes at most 64 bits. -/
def count? : Value → Option Nat
  | .number (.natural n) => if n < UInt64.size then some n else none
  | _ => none

/-- The texts that a value lists. -/
def texts? : Value → Option (List String)
  | .list vs => vs.mapM text?
  | _ => none

theorem eq_of_text? {v : Value} {s : String} (h : v.text? = some s) : v = .string s := by
  cases v <;> cases h
  rfl

theorem eq_of_count? {v : Value} {n : Nat} (h : v.count? = some n) : v = .ofNat n ∧ n < UInt64.size := by
  unfold count? at h
  split at h
  · split at h
    · cases h
      exact ⟨rfl, ‹_›⟩
    · cases h
  · cases h

theorem eq_of_texts? {v : Value} {texts : List String} (h : v.texts? = some texts) : v = .ofStrings texts := by
  cases v with
  | list vs =>
    rw [ofStrings]
    congr
    induction vs generalizing texts with
    | nil =>
      cases h
      rfl
    | cons v vs ih =>
      simp only [texts?, List.mapM_cons, Option.bind_eq_bind, Option.bind_eq_some_iff, Option.pure_def,
        Option.some.injEq] at h
      obtain ⟨s, hs, rest, hrest, rfl⟩ := h
      rw [eq_of_text? hs, ih hrest, List.map_cons]
  | null | bool | number | string | object => cases h

end Value

namespace Yaml

open Decode

/-! ## Numerals -/

theorem dropSign_of_isDigit {c : Char} (h : c.isDigit = true) {signs : List Char} (hs : signs.all (!·.isDigit) = true)
    (rest : List Char) : Scalar.dropSign signs (c :: rest) = c :: rest := by
  have hmem : signs.contains c = false := by
    by_contra hcontains
    have hc := List.all_eq_true.1 hs c (by simpa using hcontains)
    simp [h] at hc
  rw [Scalar.dropSign, hmem]
  rfl

/-- The digits of a number are no numeral with a mark of its base, nor with a zero before others. -/
theorem unsigned?_toDigits (n : Nat) : Scalar.unsigned? (Nat.toDigits 10 n) = some n := by
  obtain ⟨c, rest, hdigits, hc⟩ := Text.Digit.exists_toDigits n
  have hzero : c = '0' → rest = [] := by
    rintro rfl
    have hn := Text.Digit.eq_zero_of_toDigits hdigits
    subst hn
    cases hdigits
    rfl
  have hmarked : Scalar.marked? (c :: rest) = none := by
    unfold Scalar.marked?
    split <;> first | rfl | (rename_i heq; cases heq; cases hzero rfl)
  have hpadded : Scalar.isZeroPadded (c :: rest) = false := by
    rw [Scalar.isZeroPadded, dropSign_of_isDigit hc (by decide)]
    split
    · rename_i heq
      cases heq
      cases hzero rfl
    · rfl
  have hread := Text.Digit.natural?_toDigits (by decide : 1 < 10) (by decide) n
  rw [hdigits] at hread ⊢
  rw [Scalar.unsigned?, dropSign_of_isDigit hc (by decide)]
  simp only [hmarked, hpadded, hread, Bool.false_eq_true, if_false]

/-! ## Values -/

section Values

variable {site : Site} {n : Node}

theorem target_of_stands {v : Value} (h : Stands v n) : site.target n = n := by
  cases h <;> rfl

theorem string_of_stands {s : String} (h : Stands (.string s) n) (expected : Expected) :
    string site expected n = .ok s := by
  cases h
  rfl

theorem count_of_stands {count : Nat} (hcount : count < UInt64.size) (h : Stands (.ofNat count) n) :
    Decode.count site n = .ok count := by
  have hmax : count ≤ maxCount := Nat.le_pred_of_lt hcount
  cases h with
  | natural _ m =>
    have hcount : countOf? none (String.ofList (Nat.toDigits 10 count)) .plain = some count := by
      simp [countOf?, mayCount, String.toList_ofList, unsigned?_toDigits, hmax]
    have htarget := @target_of_stands site _ _ (.natural count m)
    rw [Decode.count, htarget]
    simp only [hcount]

theorem textsFrom_of_stands {texts : List String} {ns : List Node} (h : StandAll (texts.map .string) ns) :
    ∀ read index, textsFrom site read index ns = .ok (read.reverse ++ texts) := by
  induction texts generalizing ns with
  | nil =>
    intro read index
    cases h
    simp [textsFrom]
  | cons s texts ih =>
    intro read index
    cases h with
    | cons hv hvs =>
      rw [textsFrom, string_of_stands hv]
      simp [ih hvs]

theorem texts_of_stands {v : Value} {texts : List String} (hv : v.texts? = some texts) (h : Stands v n) :
    Decode.texts site n = .ok texts := by
  obtain rfl := Value.eq_of_texts? hv
  cases h with
  | list m hvs => exact textsFrom_of_stands hvs [] 0

end Values

/-! ## Records -/

/-- Fields with known names, none of them twice. -/
def Proper (known : List String) (fields : Fields Value) : Prop :=
  (∀ key ∈ fields.keys, key ∈ known) ∧ fields.keys.Nodup

instance (known : List String) (fields : Fields Value) : Decidable (Proper known fields) :=
  inferInstanceAs (Decidable (_ ∧ _))

/-- A decoder of values that takes fields one at a time, as a record sets them from nodes. -/
structure Agrees {α : Type} (schema : Schema α) (decode : α → Fields Value → Option α) : Prop where
  nil : ∀ base, decode base [] = some base
  cons : ∀ {base key v rest e}, key ∈ schema.known → key ∉ Fields.keys rest → decode base ((key, v) :: rest) = some e →
    ∃ next, (∀ site n, Stands v n → schema.set site base key n = .ok next) ∧ decode next rest = some e

/-- What an object with known fields, none of them twice, is read as. -/
def recordOf? {α : Type} (known : List String) (read : Fields Value → Option α) : Value → Option α
  | .object fields => if Proper known fields then read fields else none
  | _ => none

section Records

variable {α : Type} {schema : Schema α} {decode : α → Fields Value → Option α}

/-- **Fields are set in order** as a decoder says it. -/
theorem setFields_of_stands (hagrees : Agrees schema decode) {fields : Fields Value} {entries : List (Node × Node)}
    (h : StandFields fields entries)
    (hfields : Proper schema.known fields) {site : Site} {m : Mark} {seen : List String} {base e : α}
    (hseen : ∀ key ∈ fields.keys, key ∉ seen) (he : decode base fields = some e) :
    setFields schema site m seen base entries = .ok e := by
  induction fields generalizing entries seen base with
  | nil =>
    cases h
    rw [hagrees.nil] at he
    cases he
    rfl
  | cons field rest ih =>
    cases h with
    | @cons key v n _ entries m' hv hrest =>
      obtain ⟨hknown, hnodup⟩ := hfields
      obtain ⟨hkey, hknown⟩ := List.forall_mem_cons.1 hknown
      obtain ⟨hkeyUnseen, hseen⟩ := List.forall_mem_cons.1 hseen
      obtain ⟨hnew, hnodup⟩ := List.nodup_cons.1 hnodup
      obtain ⟨next, hset, hnext⟩ := hagrees.cons hkey hnew he
      have hseen' : ∀ k ∈ Fields.keys rest, k ∉ key :: seen := fun k hk hmem =>
        (List.mem_cons.1 hmem).elim (fun heq => hnew (heq ▸ hk)) (hseen k hk)
      have hname : string site .fieldName (.scalar none key .double m') = .ok key := rfl
      rw [setFields, hname]
      have hcontains : schema.known.contains key = true := List.contains_iff_mem.2 hkey
      have hunseen : seen.contains key = false := by simpa using hkeyUnseen
      simp only [hcontains, hunseen, hset _ n hv, Bool.not_true, Bool.false_eq_true, if_false]
      exact ih hrest ⟨hknown, hnodup⟩ hseen' hnext

/-- **A record is decoded** as the fields of its object say. -/
theorem record_of_stands (hagrees : Agrees schema decode) {v : Value} {base e : α}
    (hv : recordOf? schema.known (decode base) v = some e) {n : Node} (hn : Stands v n) (site : Site) :
    record schema site base n = .ok e := by
  cases hn with
  | object m hentries =>
    rw [recordOf?, Option.ite_none_right_eq_some] at hv
    exact setFields_of_stands hagrees hentries hv.1 (fun _ _ => List.not_mem_nil) hv.2
  | null | bool | natural | string | list => cases hv

end Records

end Yaml

end RunAudit
