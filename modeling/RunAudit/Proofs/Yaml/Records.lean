import Mathlib.Data.List.Nodup
import RunAudit.Proofs.Audit
import RunAudit.Proofs.Fields
import RunAudit.Yaml.Decode

/-!
# Records over given ones

What a node of a document is decoded as does not depend on the way to it: an alias stands for the node that is anchored
under its number, and a text, a count, a list of texts or the fields of a record are what the node that is meant says
(`string_eq_ok_iff`, `count_eq_ok_iff`, `texts_eq_ok_iff`, `Document.fields?`).

The fields of a record are given as slots, each with a name, the values that are read for it, and its place in the
record. A record is decoded from a node just when the node names known fields, none of them twice; each field that is
named has a value that is read for it, and each other field is as in the given record (`record_eq_ok_iff`). There is
such a record just when something is read for every field that is named (`exists_written_iff`).
-/

namespace RunAudit.Yaml

open Decode

/-! ## Nodes of a document -/

/-- Whether a node is a mapping. -/
def Node.isMapping : Node → Bool
  | .mapping _ _ => true
  | _ => false

theorem Node.isMapping_iff {n : Node} : n.isMapping = true ↔ ∃ entries m, n = .mapping entries m := by
  cases n <;> simp [isMapping]

namespace Document

variable (d : Document)

/-- The node that a node stands for. -/
def meant : Node → Node
  | .alias number m => (d.find? number).getD (.alias number m)
  | n => n

/-- The text of a scalar. -/
def text? (n : Node) : Option String :=
  match d.meant n with
  | .scalar _ s _ _ => some s
  | _ => none

/-- The count that a scalar writes. -/
def count? (n : Node) : Option Nat :=
  match d.meant n with
  | .scalar tag s style _ => countOf? tag s style
  | _ => none

/-- The texts of a sequence. -/
def texts? (n : Node) : Option (List String) :=
  match d.meant n with
  | .sequence items _ => items.mapM d.text?
  | n => if isEmpty n then some [] else none

/-- The entries of a mapping by the texts of their keys. -/
def named? (entries : List (Node × Node)) : Option (Fields Node) :=
  entries.mapM fun entry => (d.text? entry.1).map fun key => (key, entry.2)

/-- The fields that a mapping names. -/
def fields? (n : Node) : Option (Fields Node) :=
  match d.meant n with
  | .mapping entries _ => d.named? entries
  | n => if isEmpty n then some [] else none

theorem named?_cons {key value : Node} {rest : List (Node × Node)} {fields : Fields Node} :
    d.named? ((key, value) :: rest) = some fields ↔
      ∃ name others, d.text? key = some name ∧ d.named? rest = some others ∧ fields = (name, value) :: others := by
  rw [named?, List.mapM_cons]
  simp only [Option.bind_eq_bind, Option.bind_eq_some_iff, Option.map_eq_some_iff, Option.pure_def, Option.some.injEq]
  constructor
  · rintro ⟨_, ⟨name, hname, rfl⟩, others, hothers, rfl⟩
    exact ⟨name, others, hname, hothers, rfl⟩
  · rintro ⟨name, others, hname, hothers, rfl⟩
    exact ⟨_, ⟨name, hname, rfl⟩, others, hothers, rfl⟩

end Document

section Sites

variable {site : Site} {n : Node}

theorem target_eq (site : Site) (n : Node) : site.target n = site.document.meant n := by
  cases n with
  | scalar | sequence | mapping => rfl
  | _ number m =>
    rw [Site.target, Site.resolve, Document.meant]
    cases site.document.find? number <;> rfl

theorem unexpected_ne_ok {α : Type} {expected : Expected} {a : α} : unexpected site n expected ≠ .ok a := by
  cases n <;> exact nofun

theorem string_eq_ok_iff {expected : Expected} {s : String} :
    string site expected n = .ok s ↔ site.document.text? n = some s := by
  rw [string, target_eq, Document.text?]
  cases site.document.meant n <;> simp [unexpected_ne_ok]

theorem count_eq_ok_iff {c : Nat} : count site n = .ok c ↔ site.document.count? n = some c := by
  rw [count, target_eq, Document.count?]
  cases site.document.meant n with
  | scalar tag s style m =>
    cases hcount : countOf? tag s style <;> simp [hcount, unexpected_ne_ok]
  | _ => simp [unexpected_ne_ok]

theorem textsFrom_eq_ok_iff {ns : List Node} {read texts : List String} {index : Nat} :
    textsFrom site read index ns = .ok texts ↔
      ∃ rest, ns.mapM site.document.text? = some rest ∧ texts = read.reverse ++ rest := by
  induction ns generalizing read index with
  | nil => simp [textsFrom, eq_comm]
  | cons n ns ih =>
    have hstring {s : String} := @string_eq_ok_iff (site.step (.item index)) n .string s
    rw [textsFrom, List.mapM_cons]
    cases htext : site.document.text? n with
    | none =>
      cases hs : string (site.step (.item index)) .string n with
      | error f => simp
      | ok s => exact absurd (htext.symm.trans (hstring.1 hs)) nofun
    | some s =>
      rw [hstring.2 htext]
      simp [ih, Option.bind_eq_some_iff]

theorem texts_eq_ok_iff {texts : List String} :
    Decode.texts site n = .ok texts ↔ site.document.texts? n = some texts := by
  rw [Decode.texts, target_eq, Document.texts?]
  cases site.document.meant n with
  | sequence items m => simp [textsFrom_eq_ok_iff]
  | _ =>
    simp only
    split <;> simp [unexpected_ne_ok]

end Sites

/-! ## Slots -/

/-- A field of a record: its name, the values that are read for it from a node, and its place in the record. -/
structure Slot (α : Type) where
  name : String
  {β : Type}
  Reads : Node → β → Prop
  get : α → β
  put : α → β → α

section Slots

variable {α : Type}

/-- **What a field is**, over a given record: a value that is read for it if it is named, and else what it was. -/
def Says {β : Type} (Reads : Node → β → Prop) (entry : Option Node) (base x : β) : Prop :=
  match entry with
  | some n => Reads n x
  | none => x = base

theorem Says.imp {β : Type} {Reads Reads' : Node → β → Prop} {entry : Option Node} {base x : β}
    (h : Says Reads entry base x) (himp : ∀ n, Reads n x → Reads' n x) : Says Reads' entry base x := by
  cases entry with
  | some n => exact himp n h
  | none => exact h

/-- A slot of a record over a given one. -/
def Slot.Says (slot : Slot α) (fields : Fields Node) (base e : α) : Prop :=
  Yaml.Says slot.Reads (fields.get? slot.name) (slot.get base) (slot.get e)

/-- **What is decoded for slots from a node**: it names fields with known names, none of them twice, and each slot is
what it should be. -/
def Written (d : Document) (slots : List (Slot α)) (base : α) (n : Node) (e : α) : Prop :=
  ∃ fields, d.fields? n = some fields ∧ (∀ key ∈ fields.keys, key ∈ slots.map (·.name)) ∧ fields.keys.Nodup ∧
    ∀ slot ∈ slots, slot.Says fields base e

/-- **A node that fits the types of fields**: it names fields, none of them twice, and each has a value of the type that
its name has. -/
def Document.Fits (d : Document) (types : List (String × (Node → Prop))) (n : Node) : Prop :=
  ∃ fields, d.fields? n = some fields ∧ fields.keys.Nodup ∧
    ∀ field ∈ fields, ∃ type ∈ types, field.1 = type.1 ∧ type.2 field.2

/-- Slots that are the places of a record. -/
structure Places (slots : List (Slot α)) : Prop where
  names : (slots.map (·.name)).Nodup
  get_put : ∀ slot ∈ slots, ∀ e x, slot.get (slot.put e x) = x
  get_put_of_ne : ∀ slot ∈ slots, ∀ other ∈ slots, other.name ≠ slot.name → ∀ e x,
    other.get (slot.put e x) = other.get e
  ext : ∀ e e', (∀ slot ∈ slots, slot.get e = slot.get e') → e = e'

/-- A schema whose fields are set in slots. -/
structure Describes (d : Document) (schema : Schema α) (slots : List (Slot α)) : Prop extends Places slots where
  known : schema.known = slots.map (·.name)
  set : ∀ slot ∈ slots, ∀ way e n next, schema.set ⟨d, way⟩ e slot.name n = .ok next ↔
    ∃ x, slot.Reads n x ∧ slot.put e x = next

theorem Places.eq_of_name {slots : List (Slot α)} (h : Places slots) {slot other : Slot α} (hslot : slot ∈ slots)
    (hother : other ∈ slots) (hname : other.name = slot.name) : other = slot :=
  List.inj_on_of_nodup_map h.names hother hslot hname

/-- A field that is named first, and no more. -/
theorem says_cons_iff {slots : List (Slot α)} (h : Places slots) {slot : Slot α} (hslot : slot ∈ slots)
    {n : Node} {rest : Fields Node} (hnew : slot.name ∉ rest.keys) {base e : α} :
    (∀ other ∈ slots, other.Says ((slot.name, n) :: rest) base e) ↔
      ∃ x, slot.Reads n x ∧ ∀ other ∈ slots, other.Says rest (slot.put base x) e := by
  have hfirst : slot.Says ((slot.name, n) :: rest) base e ↔ slot.Reads n (slot.get e) := by
    rw [Slot.Says, Fields.get?_cons_self]
    rfl
  have hlater : ∀ x, slot.Says rest (slot.put base x) e ↔ slot.get e = x := by
    intro x
    rw [Slot.Says, Fields.get?_of_not_mem hnew, h.get_put slot hslot]
    rfl
  have hother : ∀ other ∈ slots, other.name ≠ slot.name → ∀ x,
      (other.Says ((slot.name, n) :: rest) base e ↔ other.Says rest (slot.put base x) e) := by
    intro other hmem hne x
    rw [Slot.Says, Slot.Says, Fields.get?_cons_of_ne hne.symm, h.get_put_of_ne slot hslot other hmem hne]
  constructor
  · intro htold
    refine ⟨slot.get e, hfirst.1 (htold slot hslot), fun other hmem => ?_⟩
    by_cases hname : other.name = slot.name
    · rw [h.eq_of_name hslot hmem hname]
      exact (hlater _).2 rfl
    · exact (hother other hmem hname _).1 (htold other hmem)
  · rintro ⟨x, hreads, htold⟩ other hmem
    by_cases hname : other.name = slot.name
    · rw [h.eq_of_name hslot hmem hname, hfirst, (hlater x).1 (htold slot hslot)]
      exact hreads
    · exact (hother other hmem hname x).2 (htold other hmem)

/-- Where no field is named, the record is the given one. -/
theorem says_nil_iff {slots : List (Slot α)} (h : Places slots) {base e : α} :
    (∀ slot ∈ slots, slot.Says [] base e) ↔ e = base :=
  ⟨fun htold => h.ext e base htold, fun heq _ _ => heq ▸ rfl⟩

/-- Slots for each of which something is read can be what they should be all at once. -/
theorem exists_record {slots : List (Slot α)} (h : Places slots) {fields : Fields Node} (base : α)
    (hread : ∀ slot ∈ slots, ∀ n, fields.get? slot.name = some n → ∃ x, slot.Reads n x) :
    ∃ e, ∀ slot ∈ slots, slot.Says fields base e := by
  -- slot by slot: those that were passed are what they should be, and the others are as they were
  have hpassed : ∀ passed ⊆ slots, (passed.map (·.name)).Nodup → ∃ e, (∀ slot ∈ passed, slot.Says fields base e) ∧
      ∀ slot ∈ slots, slot.name ∉ passed.map (·.name) → slot.get e = slot.get base := by
    intro passed hpassed hnames
    induction passed with
    | nil => exact ⟨base, nofun, fun _ _ _ => rfl⟩
    | cons slot rest ih =>
      obtain ⟨hslot, hrest⟩ := List.cons_subset.1 hpassed
      obtain ⟨hnew, hnames⟩ := List.nodup_cons.1 hnames
      obtain ⟨e, htold, hkeeps⟩ := ih hrest hnames
      cases hentry : fields.get? slot.name with
      | none =>
        have hfirst : slot.Says fields base e := by
          rw [Slot.Says, hentry]
          exact hkeeps slot hslot hnew
        exact ⟨e, List.forall_mem_cons.2 ⟨hfirst, htold⟩, fun other hother hne =>
          hkeeps other hother fun hmem => hne (List.mem_cons_of_mem _ hmem)⟩
      | some n =>
        obtain ⟨x, hx⟩ := hread slot hslot n hentry
        have hne : ∀ other ∈ slots, other.name ≠ slot.name → other.get (slot.put e x) = other.get e :=
          fun other hother hne => h.get_put_of_ne slot hslot other hother hne e x
        refine ⟨slot.put e x, List.forall_mem_cons.2 ⟨?_, fun other hother => ?_⟩, fun other hother hmem => ?_⟩
        · rw [Slot.Says, hentry, h.get_put slot hslot]
          exact hx
        · have hname : other.name ≠ slot.name := fun heq => hnew (List.mem_map.2 ⟨other, hother, heq⟩)
          rw [Slot.Says, hne other (hrest hother) hname]
          exact htold other hother
        · obtain ⟨hname, hmem⟩ := not_or.1 (mt List.mem_cons.2 hmem)
          rw [hne other hother hname]
          exact hkeeps other hother hmem
  obtain ⟨e, htold, _⟩ := hpassed slots (fun _ => id) h.names
  exact ⟨e, htold⟩

/-- **Some record is written** just when the node fits the types of the fields. -/
theorem exists_written_iff {d : Document} {slots : List (Slot α)} (h : Places slots) {base : α} {n : Node} :
    (∃ e, Written d slots base n e) ↔ d.Fits (slots.map fun slot => (slot.name, fun n => ∃ x, slot.Reads n x)) n := by
  have hread : ∀ {fields : Fields Node} {slot : Slot α}, slot ∈ slots → fields.keys.Nodup → ∀ field ∈ fields,
      field.1 = slot.name → fields.get? slot.name = some field.2 := by
    intro fields slot _ hnodup field hfield hname
    exact hname ▸ Fields.get?_of_mem hnodup hfield
  constructor
  · rintro ⟨e, fields, hfields, hknown, hnodup, htold⟩
    refine ⟨fields, hfields, hnodup, fun field hfield => ?_⟩
    obtain ⟨slot, hslot, hname⟩ := List.mem_map.1 (hknown field.1 (List.mem_map_of_mem hfield))
    have hfirst := htold slot hslot
    rw [Slot.Says, hread hslot hnodup field hfield hname.symm] at hfirst
    exact ⟨_, List.mem_map_of_mem hslot, hname.symm, _, hfirst⟩
  · rintro ⟨fields, hfields, hnodup, hfits⟩
    have hslots : ∀ field ∈ fields, ∃ slot ∈ slots, field.1 = slot.name ∧ ∃ x, slot.Reads field.2 x := by
      intro field hfield
      obtain ⟨type, htype, hname, hx⟩ := hfits field hfield
      obtain ⟨slot, hslot, rfl⟩ := List.mem_map.1 htype
      exact ⟨slot, hslot, hname, hx⟩
    obtain ⟨e, htold⟩ := exists_record h base fun slot hslot n hn => by
      obtain ⟨other, hother, hname, hx⟩ := hslots _ (Fields.mem_of_get? hn)
      exact h.eq_of_name hother hslot hname ▸ hx
    refine ⟨e, fields, hfields, fun key hkey => ?_, hnodup, htold⟩
    obtain ⟨field, hfield, rfl⟩ := List.mem_map.1 hkey
    obtain ⟨slot, hslot, hname, _⟩ := hslots field hfield
    exact hname ▸ List.mem_map_of_mem hslot

variable {d : Document} {schema : Schema α} {slots : List (Slot α)} (h : Describes d schema slots)
include h

/-- **Fields are set one after another** just when each is known and new, and the record is as they say. -/
theorem setFields_eq_ok_iff {way : List Step} {m : Mark} {seen : List String} {base e : α}
    {entries : List (Node × Node)} : setFields schema ⟨d, way⟩ m seen base entries = .ok e ↔
      ∃ fields, d.named? entries = some fields ∧ (∀ key ∈ fields.keys, key ∈ slots.map (·.name)) ∧
        fields.keys.Nodup ∧ (∀ key ∈ fields.keys, key ∉ seen) ∧ ∀ slot ∈ slots, slot.Says fields base e := by
  induction entries generalizing seen base with
  | nil =>
    rw [setFields, Except.ok.injEq]
    constructor
    · rintro rfl
      exact ⟨[], rfl, nofun, List.nodup_nil, nofun, (says_nil_iff h.toPlaces).2 rfl⟩
    · rintro ⟨fields, hfields, _, _, _, htold⟩
      cases hfields
      exact ((says_nil_iff h.toPlaces).1 htold).symm
  | cons entry rest ih =>
    obtain ⟨key, value⟩ := entry
    have hstep : setFields schema ⟨d, way⟩ m seen base ((key, value) :: rest) = .ok e ↔
        ∃ name, d.text? key = some name ∧ name ∈ schema.known ∧ name ∉ seen ∧
          ∃ next, schema.set (Site.step ⟨d, way⟩ (stepOf key)) base name value = .ok next ∧
            setFields schema ⟨d, way⟩ m (name :: seen) next rest = .ok e := by
      rw [setFields]
      cases hname : string ⟨d, way⟩ .fieldName key with
      | error f =>
        refine iff_of_false nofun ?_
        rintro ⟨name, htext, _⟩
        cases hname.symm.trans (string_eq_ok_iff.2 htext)
      | ok name =>
        rw [show d.text? key = some name from string_eq_ok_iff.1 hname]
        by_cases hknown : name ∈ schema.known
        · by_cases hseen : name ∈ seen
          · simp [hknown, hseen, Site.misfit]
          · cases hset : schema.set (Site.step ⟨d, way⟩ (stepOf key)) base name value <;> simp [hknown, hseen, hset]
        · simp [hknown, Site.misfit]
    rw [hstep]
    simp only [d.named?_cons, h.known]
    constructor
    · rintro ⟨name, htext, hknown, hseen, next, hset, hrest⟩
      obtain ⟨fields, hnamed, hnames, hnodup, hunseen, htold⟩ := ih.1 hrest
      have hnew : name ∉ fields.keys := fun hmem => hunseen name hmem List.mem_cons_self
      obtain ⟨slot, hslot, rfl⟩ := List.mem_map.1 hknown
      obtain ⟨x, hreads, rfl⟩ := (h.set slot hslot _ _ _ _).1 hset
      refine ⟨_, ⟨slot.name, fields, htext, hnamed, rfl⟩, List.forall_mem_cons.2 ⟨hknown, hnames⟩,
        List.nodup_cons.2 ⟨hnew, hnodup⟩, List.forall_mem_cons.2 ⟨hseen, fun k hk hmem => ?_⟩,
        (says_cons_iff h.toPlaces hslot hnew).2 ⟨x, hreads, htold⟩⟩
      exact hunseen k hk (List.mem_cons_of_mem _ hmem)
    · rintro ⟨_, ⟨name, fields, htext, hnamed, rfl⟩, hnames, hnodup, hunseen, htold⟩
      obtain ⟨hknown, hnames'⟩ := List.forall_mem_cons.1 hnames
      obtain ⟨hnew, hnodup'⟩ := List.nodup_cons.1 hnodup
      obtain ⟨hseen, hunseen'⟩ := List.forall_mem_cons.1 hunseen
      obtain ⟨slot, hslot, rfl⟩ := List.mem_map.1 hknown
      obtain ⟨x, hreads, hrest⟩ := (says_cons_iff h.toPlaces hslot hnew).1 htold
      refine ⟨slot.name, htext, hknown, hseen, slot.put base x, (h.set slot hslot _ _ _ _).2 ⟨x, hreads, rfl⟩,
        ih.2 ⟨fields, hnamed, hnames', hnodup', fun k hk hmem => ?_, hrest⟩⟩
      rcases List.mem_cons.1 hmem with rfl | hmem
      · exact hnew hk
      · exact hunseen' k hk hmem

/-- **A record is decoded from a node** just when the node writes it. -/
theorem record_eq_ok_iff {way : List Step} {base e : α} {n : Node} :
    record schema ⟨d, way⟩ base n = .ok e ↔ Written d slots base n e := by
  rw [record, target_eq, Written, Document.fields?]
  cases d.meant n with
  | mapping entries m =>
    simp only [setFields_eq_ok_iff h, List.not_mem_nil, not_false_eq_true, implies_true, true_and]
  | _ =>
    simp only
    split
    · simp only [Except.ok.injEq, Option.some.injEq, exists_eq_left']
      constructor
      · rintro rfl
        exact ⟨nofun, List.nodup_nil, (says_nil_iff h.toPlaces).2 rfl⟩
      · exact fun htold => ((says_nil_iff h.toPlaces).1 htold.2.2).symm
    · simp [unexpected_ne_ok]

end Slots

end RunAudit.Yaml
