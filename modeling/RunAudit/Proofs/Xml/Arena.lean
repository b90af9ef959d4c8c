import RunAudit.Proofs.Xml.Walk

/-!
# The order of a document's elements

The elements of a document are numbered in the order in which they are opened: the root comes first, and every other
element is the child of one element before it. `Document.InOrder` says so of the indices that a document keeps, and
every document of a tree has it (`inOrder_ofTree`).
-/

namespace RunAudit.Xml

namespace ElementTree

theorem size_pos (t : ElementTree) : 0 < t.size := by
  obtain ⟨tag, attributes, children⟩ := t
  simp [size]

/-- Trees stand from their place on. -/
theorem le_of_mem_roots {ts : List ElementTree} {base i : Nat} (h : i ∈ roots base ts) : base ≤ i := by
  induction ts generalizing base with
  | nil => cases h
  | cons t ts ih =>
    rcases List.mem_cons.1 h with rfl | h
    · exact Nat.le_refl _
    · exact Nat.le_trans (Nat.le_add_right _ _) (ih h)

/-- The roots of trees stand one behind the other. -/
theorem pairwise_roots (ts : List ElementTree) (base : Nat) : (roots base ts).Pairwise (· < ·) := by
  induction ts generalizing base with
  | nil => exact .nil
  | cons t ts ih =>
    refine .cons (fun i hi => ?_) (ih (base + t.size))
    have hle := le_of_mem_roots hi
    have hpos := t.size_pos
    omega

/-- The child indices in elements, one list after another. -/
def childIndices (elements : List Element) : List Nat := elements.flatMap (·.children.toList)

/-- **Every place of trees is a root or a child**, and only once. -/
theorem perm_childIndices : ∀ (base : Nat) (ts : List ElementTree),
    (roots base ts ++ childIndices (elementsAll base ts)).Perm (List.range' base (sizeAll ts))
  | _, [] => .refl _
  | base, ⟨tag, attributes, children⟩ :: ts => by
    have hc := perm_childIndices (base + 1) children
    have ht := perm_childIndices (base + (sizeAll children + 1)) ts
    rw [range'_sizeAll_cons]
    simp only [roots, elementsAll, ElementTree.elements, size, childIndices, List.cons_append, List.flatMap_cons,
      List.flatMap_append] at hc ht ⊢
    refine .cons base (.trans ?_ (hc.append ht))
    -- the children of the first root come before the roots behind it
    rw [← List.append_assoc (roots (base + 1) children)]
    exact List.perm_append_comm_assoc _ _ _

end ElementTree

open ElementTree

namespace Document

/-- **Elements in order**: the root comes first, the children of the elements are all others, each once, and each
comes behind its parent and behind the children in front of it. -/
structure InOrder (d : Document) : Prop where
  root : d.root = 0
  nonempty : 0 < d.elements.size
  once : (childIndices d.elements.toList).Perm (List.range' 1 (d.elements.size - 1))
  behind : ∀ {parent : Nat} {e : Element}, d.elements[parent]? = some e →
    ∀ child ∈ e.children, parent < child ∧ child < d.elements.size
  ascending : ∀ {parent : Nat} {e : Element}, d.elements[parent]? = some e → e.children.toList.Pairwise (· < ·)

variable {d : Document}

/-- A tree stands at each place of trees. -/
theorem Holds.exists_at : ∀ {base : Nat} {ts : List ElementTree}, d.Holds base ts → ∀ {i : Nat}, base ≤ i →
    i < base + sizeAll ts → ∃ t ts', d.Holds i (t :: ts')
  | base, [], _, i, hle, hlt => by
    simp only [sizeAll] at hlt
    omega
  | base, ⟨tag, attributes, children⟩ :: ts, h, i, hle, hlt => by
    simp only [sizeAll, size] at hlt
    rcases Nat.eq_or_lt_of_le hle with rfl | hle
    · exact ⟨_, _, h⟩
    · by_cases hi : i < base + 1 + sizeAll children
      · exact h.inner.exists_at hle hi
      · refine h.tail.exists_at ?_ ?_ <;> simp only [size] <;> omega

/-- The children of an element in the document of a tree are the roots of trees that stand behind it. -/
theorem children_ofTree {t : ElementTree} {parent : Nat} {e : Element}
    (h : (ofTree t).elements[parent]? = some e) :
    ∃ ts, e.children.toList = roots (parent + 1) ts := by
  obtain ⟨hlt, _⟩ := Array.getElem?_eq_some_iff.1 h
  rw [size_elements_ofTree] at hlt
  obtain ⟨t', ts', ht'⟩ := (holds_ofTree t).exists_at (Nat.zero_le parent) (by simpa [sizeAll] using hlt)
  rw [ht'.getElem?, Option.some.injEq] at h
  exact ⟨t'.children, by rw [← h]⟩

/-- **The document of a tree** has its elements in order. -/
theorem inOrder_ofTree (t : ElementTree) : (ofTree t).InOrder := by
  have honce : (childIndices (ofTree t).elements.toList).Perm (List.range' 1 ((ofTree t).elements.size - 1)) := by
    have hall := perm_childIndices 0 [t]
    obtain ⟨n, hn⟩ : ∃ n, t.size = n + 1 := ⟨t.size - 1, by have := t.size_pos; omega⟩
    simp only [roots, elementsAll, List.append_nil, sizeAll, hn, List.range'_succ, List.singleton_append,
      List.perm_cons] at hall
    simpa [size_elements_ofTree, ofTree, hn] using hall
  refine ⟨rfl, by rw [size_elements_ofTree]; exact t.size_pos, honce, ?_, ?_⟩
  · intro parent e h child hchild
    obtain ⟨ts, hts⟩ := children_ofTree h
    have hroot : child ∈ roots (parent + 1) ts := by rw [← hts]; simpa using hchild
    have hmem : child ∈ childIndices (ofTree t).elements.toList :=
      List.mem_flatMap.2 ⟨e, by simpa using Array.mem_of_getElem? h, by simpa using hchild⟩
    have hrange := List.mem_range'_1.1 (honce.mem_iff.1 hmem)
    exact ⟨le_of_mem_roots hroot, by omega⟩
  · intro parent e h
    obtain ⟨ts, hts⟩ := children_ofTree h
    rw [hts]
    exact pairwise_roots _ _

end Document

end RunAudit.Xml
