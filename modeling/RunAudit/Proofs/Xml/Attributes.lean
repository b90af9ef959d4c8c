import RunAudit.Proofs.Audit
import RunAudit.Proofs.Fields
import RunAudit.Proofs.Xml.Reading

/-!
# Attributes have distinct keys

A key that is used again ends the reading of a tag, so the attributes of a tag have distinct keys
(`nodup_keys_attributes`), and so have those of every element of a document (`nodup_keys_of_parse`).
-/

namespace RunAudit.Xml

/-- A key that passes is none of those that were used. -/
theorem not_mem_of_checkUnused {seen : List (List Char × Nat)} {key : List Char} {place : Nat}
    (h : checkUnused seen key place = .ok ()) : ∀ entry ∈ seen, entry.1 ≠ key := by
  unfold checkUnused at h
  split at h
  · cases h
  · rename_i hfound
    exact fun entry hentry => by simpa using List.find?_eq_none.1 hfound entry hentry

/-- Attributes that are read behind others with distinct keys. -/
theorem nodup_keys_attributesFrom {total place : Nat} {seen : List (List Char × Nat)} {read : List (String × String)}
    {s : List Char} {fields : Fields String} (hseen : Fields.keys read = seen.map fun entry => String.ofList entry.1)
    (hread : (Fields.keys read).Nodup) (h : attributesFrom total seen read place s = .ok fields) :
    fields.keys.Nodup := by
  fun_induction attributesFrom total seen read place s with
  | case1 =>
    cases h
    rw [Fields.keys, List.map_reverse]
    exact List.pairwise_reverse.2 (hread.imp Ne.symm)
  | case6 seen read place s blanks first tail _ start key sign rest _ hunused raw after _ value _ ih =>
    have hnew : String.ofList key ∉ Fields.keys read := by
      rw [hseen]
      intro hmem
      obtain ⟨entry, hentry, hkey⟩ := List.mem_map.1 hmem
      exact not_mem_of_checkUnused hunused entry hentry (String.ofList_injective hkey)
    exact ih (congrArg (String.ofList key :: ·) hseen) (List.nodup_cons.2 ⟨hnew, hread⟩) h
  | _ => cases h

/-- **The attributes of a tag** have distinct keys. -/
theorem nodup_keys_attributes {content : List Char} {fields : Fields String} (h : attributes content = .ok fields) :
    fields.keys.Nodup :=
  @nodup_keys_attributesFrom _ _ [] [] _ _ rfl List.nodup_nil h

namespace Builder

/-- The attributes of every element have distinct keys. -/
def DistinctKeys (b : Builder) : Prop := ∀ e ∈ b.elements, e.attributes.keys.Nodup

theorem nodup_keys_element {content : List Char} {e : Element} (h : element content = .ok e) :
    e.attributes.keys.Nodup := by
  unfold element at h
  split at h
  · rename_i fields hfields
    cases h
    exact nodup_keys_attributes hfields
  · cases h

theorem DistinctKeys.attach {b b' : Builder} {e : Element} (hb : b.DistinctKeys) (he : e.attributes.keys.Nodup)
    (h : b.attach e = .ok b') : b'.DistinctKeys := by
  obtain ⟨elements, path, root⟩ := b
  intro e' he'
  cases path with
  | cons parent path =>
    cases h
    rcases Array.mem_push.1 he' with he' | rfl
    · -- a child more leaves the attributes as they are
      obtain ⟨i, hi, rfl⟩ := Array.getElem_of_mem he'
      have hat := hb _ (Array.getElem_mem (by simpa using hi : i < elements.size))
      rw [Array.getElem_modify]
      split <;> exact hat
    · exact he
  | nil =>
    cases root with
    | some root => cases h
    | none =>
      cases h
      rcases Array.mem_push.1 he' with he' | rfl
      · exact hb _ he'
      · exact he

/-- One event keeps the keys distinct. -/
theorem DistinctKeys.accept {b b' : Builder} {event : Event} (hb : b.DistinctKeys) (h : b.accept event = .ok b') :
    b'.DistinctKeys := by
  cases event with
  | start content =>
    simp only [Builder.accept] at h
    cases he : element content with
    | error f => simp [he] at h
    | ok e =>
      simp only [he] at h
      obtain ⟨b₁, hattach, rfl⟩ := map_eq_ok_iff.1 h
      exact (hb.attach (nodup_keys_element he) hattach : b₁.DistinctKeys)
  | empty content =>
    simp only [Builder.accept] at h
    cases he : element content with
    | error f => simp [he] at h
    | ok e =>
      simp only [he] at h
      exact hb.attach (nodup_keys_element he) h
  | stop name =>
    simp only [Builder.accept] at h
    split at h
    · cases h
    · cases h
      exact hb

/-- All events keep the keys distinct. -/
theorem DistinctKeys.acceptAll : ∀ {events : List Event} {b b' : Builder}, b.DistinctKeys →
    b.acceptAll events = .ok b' → b'.DistinctKeys
  | [], _, _, hb, h => by
    cases h
    exact hb
  | event :: events, b, _, hb, h => by
    rw [Builder.acceptAll] at h
    cases ha : b.accept event with
    | error f => simp [ha] at h
    | ok b₁ =>
      simp only [ha] at h
      exact (hb.accept ha).acceptAll h

end Builder

/-- **The attributes of every element of a document** have distinct keys. -/
theorem nodup_keys_of_parse {text : List Char} {d : Document} (h : Document.parse text = .ok d) :
    ∀ e ∈ d.elements, e.attributes.keys.Nodup := by
  obtain ⟨_, _, b, _, _, hb, hd⟩ := parse_eq_ok_iff.1 h
  have hempty : Builder.empty.DistinctKeys := fun e he => by simp [Builder.empty] at he
  rw [← (Builder.finish_eq_ok_iff.1 hd).2.2]
  exact hempty.acceptAll hb

end RunAudit.Xml
