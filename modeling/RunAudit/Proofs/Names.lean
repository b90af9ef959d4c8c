import RunAudit.Comparison

/-!
# Comparing names

Sorted lists of names are equal just when each name is in both as often (`sortedNames_eq_iff`), and those of two lists
are merged into that of both (`sortedNames_append`); sets of names are equal just when they have the same members
(`NameSet.ext`).
-/

namespace RunAudit

/-- Sorting keeps each name as often as it is there. -/
theorem sortedNames_perm (names : List String) : (sortedNames names).Perm names := List.mergeSort_perm names _

theorem decide_le_trans (a b c : String) (hab : decide (a ≤ b) = true) (hbc : decide (b ≤ c) = true) :
    decide (a ≤ c) = true :=
  decide_eq_true (String.le_trans (of_decide_eq_true hab) (of_decide_eq_true hbc))

theorem decide_le_total (a b : String) : (decide (a ≤ b) || decide (b ≤ a)) = true := by
  rcases String.le_total a b with h | h <;> simp [h]

theorem pairwise_sortedNames (names : List String) : (sortedNames names).Pairwise (· ≤ ·) :=
  (List.pairwise_mergeSort decide_le_trans decide_le_total names).imp of_decide_eq_true

/-- **Sorted lists of names are equal** just when each name is in both as often. -/
theorem sortedNames_eq_iff {names names' : List String} :
    sortedNames names = sortedNames names' ↔ names.Perm names' := by
  constructor
  · intro h
    exact (sortedNames_perm names).symm.trans (h ▸ sortedNames_perm names')
  · intro h
    have hperm := (sortedNames_perm names).trans (h.trans (sortedNames_perm names').symm)
    exact List.Perm.eq_of_pairwise (fun _ _ _ _ => String.le_antisymm) (pairwise_sortedNames names)
      (pairwise_sortedNames names') hperm

/-- The names of two sorted lists in one sorted list. -/
def mergeNames (names names' : List String) : List String := names.merge names' fun a b => decide (a ≤ b)

theorem pairwise_mergeNames {names names' : List String} (h : names.Pairwise (· ≤ ·)) (h' : names'.Pairwise (· ≤ ·)) :
    (mergeNames names names').Pairwise (· ≤ ·) :=
  (List.pairwise_merge decide_le_trans decide_le_total names names' (h.imp decide_eq_true)
    (h'.imp decide_eq_true)).imp of_decide_eq_true

/-- **Names of two lists are sorted** by merging the sorted lists. -/
theorem sortedNames_append (names names' : List String) :
    sortedNames (names ++ names') = mergeNames (sortedNames names) (sortedNames names') := by
  have hmerge : (mergeNames (sortedNames names) (sortedNames names')).Perm (names ++ names') :=
    (List.merge_perm_append _).trans ((sortedNames_perm names).append (sortedNames_perm names'))
  exact List.Perm.eq_of_pairwise (fun _ _ _ _ => String.le_antisymm) (pairwise_sortedNames _)
    (pairwise_mergeNames (pairwise_sortedNames names) (pairwise_sortedNames names'))
    ((sortedNames_perm _).trans hmerge.symm)

namespace NameSet

theorem nodup_toList (names : NameSet) : names.toList.Nodup := by
  refine names.ascending.imp ?_
  rintro a _ h rfl
  exact String.lt_irrefl a h

/-- **Sets of names are equal** when they have the same members. -/
theorem ext {names names' : NameSet} (h : ∀ name, name ∈ names ↔ name ∈ names') : names = names' := by
  obtain ⟨l, hl⟩ := names
  obtain ⟨l', hl'⟩ := names'
  have hperm : l.Perm l' := (List.perm_ext_iff_of_nodup (nodup_toList ⟨l, hl⟩) (nodup_toList ⟨l', hl'⟩)).2 h
  have hanti : ∀ a b, a ∈ l → b ∈ l' → a < b → b < a → a = b := fun a _ _ _ hab hba =>
    absurd (String.lt_trans hab hba) (String.lt_irrefl a)
  have : l = l' := List.Perm.eq_of_pairwise hanti hl hl' hperm
  subst this
  rfl

theorem ext_iff {names names' : NameSet} : names = names' ↔ ∀ name, name ∈ names ↔ name ∈ names' := by
  constructor
  · rintro rfl name
    exact Iff.rfl
  · exact ext

end NameSet

end RunAudit
