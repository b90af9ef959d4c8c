import Mathlib.Data.List.Basic
import Mathlib.Data.List.Induction
import RunAudit.Value

/-!
# Fields that are put one after another

An entry that is put stays at the place of its key, or stands at the end when the key is new (`keys_put`), and is
what the key has from then on (`get?_put`). Pairs that are put one after another therefore leave each key at the place
where it came first, with the entry that came last (`ofPairs_eq`).
-/

namespace RunAudit.Fields

variable {α : Type}

theorem mem_keys_iff {fields : Fields α} {key : String} : key ∈ fields.keys ↔ fields.has key = true := by
  simp [keys, has]

theorem isSome_get? (fields : Fields α) (key : String) : (fields.get? key).isSome = fields.has key := by
  rw [Bool.eq_iff_iff]
  simp [get?, has]

theorem get?_cons_self (key : String) (value : α) (rest : Fields α) : get? ((key, value) :: rest) key = some value := by
  simp [get?]

theorem get?_cons_of_ne {k key : String} (h : k ≠ key) (value : α) (rest : Fields α) :
    get? ((k, value) :: rest) key = get? rest key := by simp [get?, h]

theorem get?_of_not_mem {fields : Fields α} {key : String} (h : key ∉ fields.keys) : fields.get? key = none := by
  rw [← Option.not_isSome_iff_eq_none, isSome_get?, ← mem_keys_iff]
  exact h

/-- What a key has is its entry. -/
theorem mem_of_get? {fields : Fields α} {key : String} {value : α} (h : fields.get? key = some value) :
    (key, value) ∈ fields := by
  obtain ⟨⟨k, v⟩, hfound, rfl⟩ := Option.map_eq_some_iff.1 h
  have hkey : k = key := by simpa using List.find?_some hfound
  exact hkey ▸ List.mem_of_find?_eq_some hfound

theorem keys_put (fields : Fields α) (key : String) (value : α) :
    (fields.put key value).keys = if key ∈ fields.keys then fields.keys else fields.keys ++ [key] := by
  induction fields with
  | nil => rfl
  | cons entry rest ih =>
    obtain ⟨k, v⟩ := entry
    unfold keys at ih ⊢
    by_cases h : k = key
    · subst h
      simp [put]
    · by_cases hm : key ∈ rest.map Prod.fst <;> simp [put, h, Ne.symm h, ih, hm]

theorem mem_put {fields : Fields α} {key : String} {value : α} {entry : String × α} (h : entry ∈ fields.put key value) :
    entry = (key, value) ∨ entry ∈ fields := by
  induction fields with
  | nil => exact .inl (List.mem_singleton.1 h)
  | cons first rest ih =>
    obtain ⟨k, v⟩ := first
    rw [put] at h
    split at h
    · exact (List.mem_cons.1 h).imp_right (List.mem_cons_of_mem _)
    · rcases List.mem_cons.1 h with rfl | h
      · exact .inr List.mem_cons_self
      · exact (ih h).imp_right (List.mem_cons_of_mem _)

/-- A key that comes once is not among those before it. -/
theorem not_mem_keys_of_nodup {before after : Fields α} {key : String} {value : α}
    (h : (keys (before ++ (key, value) :: after)).Nodup) : key ∉ before.keys := by
  intro hmem
  rw [keys, List.map_append, List.nodup_append] at h
  exact h.2.2 key hmem key (by simp) rfl

/-- A new key stands at the end. -/
theorem put_of_not_mem {fields : Fields α} {key : String} (h : key ∉ fields.keys) (value : α) :
    fields.put key value = fields ++ [(key, value)] := by
  induction fields with
  | nil => rfl
  | cons entry rest ih =>
    obtain ⟨k, v⟩ := entry
    obtain ⟨hk, hr⟩ := not_or.1 (mt List.mem_cons.2 h)
    rw [put, if_neg (by simpa using Ne.symm hk), ih hr]
    rfl

/-- An entry is what its key has, if no key comes twice. -/
theorem get?_of_mem {fields : Fields α} (h : fields.keys.Nodup) {key : String} {value : α}
    (hm : (key, value) ∈ fields) : fields.get? key = some value := by
  induction fields with
  | nil => cases hm
  | cons entry rest ih =>
    obtain ⟨hnew, hrest⟩ := List.nodup_cons.1 h
    rcases List.mem_cons.1 hm with rfl | hm
    · simp [get?]
    · have hne : entry.1 ≠ key := fun heq => hnew (heq ▸ List.mem_map_of_mem hm)
      have hget := ih hrest hm
      simpa [get?, hne] using hget

/-- A key has the same in fields that are rearranged, if no key comes twice. -/
theorem get?_perm {fields fields' : Fields α} (h : fields'.Perm fields) (hkeys : fields.keys.Nodup) (key : String) :
    get? fields' key = get? fields key := by
  have hkeys' : (keys fields').Nodup := (h.map _).nodup_iff.2 hkeys
  refine Option.ext fun v => ⟨fun hv => ?_, fun hv => ?_⟩
  · exact get?_of_mem hkeys (h.mem_iff.1 (mem_of_get? hv))
  · exact get?_of_mem hkeys' (h.mem_iff.2 (mem_of_get? hv))

theorem get?_put (fields : Fields α) (key : String) (value : α) (k : String) :
    (fields.put key value).get? k = if key = k then some value else fields.get? k := by
  induction fields with
  | nil => by_cases h : key = k <;> simp [put, get?, h]
  | cons entry rest ih =>
    obtain ⟨k', v⟩ := entry
    unfold get? at ih ⊢
    by_cases h : k' = key
    · subst h
      by_cases hk : k' = k <;> simp [put, hk]
    · by_cases hk : k' = k
      · subst hk
        simp [put, h, Ne.symm h]
      · simp [put, h, hk, ih]

/-- A key that is put keeps the keys distinct. -/
theorem nodup_keys_put {fields : Fields α} (h : fields.keys.Nodup) (key : String) (value : α) :
    (fields.put key value).keys.Nodup := by
  rw [keys_put]
  split
  · exact h
  · rename_i hk
    exact List.nodup_append.2 ⟨h, by simp, by rintro a ha b hb rfl; exact hk (List.mem_singleton.1 hb ▸ ha)⟩

/-- Fields with distinct keys are what their keys have. -/
theorem eq_filterMap_keys {fields : Fields α} (h : fields.keys.Nodup) :
    fields = fields.keys.filterMap fun key => (fields.get? key).map (key, ·) := by
  induction fields with
  | nil => rfl
  | cons entry rest ih =>
    obtain ⟨k, v⟩ := entry
    obtain ⟨hk, hr⟩ := List.nodup_cons.1 h
    -- the first key is none of the others, so these have what they have in the rest
    have hrest : ∀ key ∈ keys rest, get? ((k, v) :: rest) key = get? rest key := by
      intro key hm
      have : k ≠ key := by
        rintro rfl
        exact hk hm
      simp [get?, this]
    have hfirst : get? ((k, v) :: rest) k = some v := by simp [get?]
    show (k, v) :: rest = List.filterMap _ (k :: keys rest)
    rw [List.filterMap_cons, hfirst]
    have : (keys rest).filterMap (fun key => (get? ((k, v) :: rest) key).map (key, ·)) =
        (keys rest).filterMap (fun key => (get? rest key).map (key, ·)) :=
      List.filterMap_congr fun key hm => by rw [hrest key hm]
    rw [this, ← ih hr]
    rfl

/-- Pairs that are put one after another. -/
def ofPairs (pairs : List (String × α)) : Fields α := pairs.foldl (fun fields p => fields.put p.1 p.2) []

theorem ofPairs_concat (pairs : List (String × α)) (p : String × α) :
    ofPairs (pairs ++ [p]) = (ofPairs pairs).put p.1 p.2 := by simp [ofPairs]

theorem nodup_keys_ofPairs (pairs : List (String × α)) : (ofPairs pairs).keys.Nodup := by
  induction pairs using List.reverseRecOn with
  | nil => exact List.nodup_nil
  | append_singleton pairs p ih =>
    rw [ofPairs_concat]
    exact nodup_keys_put ih _ _

/-- Each key stands where it came first. -/
theorem keys_ofPairs (pairs : List (String × α)) : (ofPairs pairs).keys = (pairs.map Prod.fst).eraseDups := by
  induction pairs using List.reverseRecOn with
  | nil => rfl
  | append_singleton pairs p ih =>
    rw [ofPairs_concat, keys_put, ih, List.map_append, List.eraseDups_append]
    by_cases h : p.1 ∈ pairs.map Prod.fst
    · simp [h, List.removeAll, List.mem_eraseDups]
    · simp [h, List.removeAll, List.mem_eraseDups, List.eraseDups_cons]

/-- Each key has what was put last. -/
theorem get?_ofPairs (pairs : List (String × α)) (key : String) :
    (ofPairs pairs).get? key = get? pairs.reverse key := by
  induction pairs using List.reverseRecOn with
  | nil => rfl
  | append_singleton pairs p ih =>
    rw [ofPairs_concat, get?_put, ih, List.reverse_concat]
    by_cases h : p.1 = key <;> simp [get?, h]

/-- A key has what was put behind everything else of the same key. -/
theorem get?_ofPairs_last {before after : List (String × α)} {key : String} {value : α} (h : ∀ p ∈ after, p.1 ≠ key) :
    (ofPairs (before ++ (key, value) :: after)).get? key = some value := by
  have hafter : after.reverse.find? (·.1 == key) = none := by
    simpa [List.find?_eq_none] using h
  rw [get?_ofPairs, get?, List.reverse_append, List.reverse_cons, List.append_assoc, List.find?_append, hafter]
  simp

/-- The entries of pairs that are put one after another are pairs. -/
theorem mem_of_mem_ofPairs {pairs : List (String × α)} {entry : String × α} (h : entry ∈ ofPairs pairs) :
    entry ∈ pairs := by
  have hget := get?_of_mem (nodup_keys_ofPairs pairs) h
  rw [get?_ofPairs] at hget
  exact List.mem_reverse.1 (mem_of_get? hget)

/-- **Pairs that are put one after another** leave each key where it came first, with what came last. -/
theorem ofPairs_eq (pairs : List (String × α)) :
    ofPairs pairs = (pairs.map Prod.fst).eraseDups.filterMap fun key => (get? pairs.reverse key).map (key, ·) := by
  have h := eq_filterMap_keys (nodup_keys_ofPairs pairs)
  simpa only [keys_ofPairs, get?_ofPairs] using h

end RunAudit.Fields
