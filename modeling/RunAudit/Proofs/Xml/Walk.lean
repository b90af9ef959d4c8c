import RunAudit.Proofs.Xml.Tree

/-!
# Walks along documents

A document stands for trees from a place on when its elements there are theirs (`Document.Holds`). The element there
then has the roots of the children's trees as its children (`children_of_holds`), and a walk from the roots of the
trees visits their elements one after another (`walkFrom_roots`). So a walk along the document of a tree visits the
places in order, one with each step (`walkFrom_ofTree`); the whole walk visits each once (`walk_ofTree`), and what is
seen at the places is what the trees in the tree are, each before those in it (`map_walk_ofTree`).
-/

namespace RunAudit.Xml

namespace ElementTree

mutual

/-- A tree and all trees in it, each before those in it. -/
def preorder : ElementTree → List ElementTree
  | ⟨tag, attributes, children⟩ => ⟨tag, attributes, children⟩ :: preorderAll children

/-- Some trees and all trees in them, each before those in it. -/
def preorderAll : List ElementTree → List ElementTree
  | [] => []
  | t :: ts => t.preorder ++ preorderAll ts

end

/-- The places of trees: that of the first root, those of what is in it, and those of the other trees. -/
theorem range'_sizeAll_cons (base : Nat) (tag : String) (attributes : Fields String)
    (children ts : List ElementTree) :
    List.range' base (sizeAll (⟨tag, attributes, children⟩ :: ts)) =
      base :: (List.range' (base + 1) (sizeAll children) ++
        List.range' (base + (sizeAll children + 1)) (sizeAll ts)) := by
  rw [show base + (sizeAll children + 1) = base + 1 + sizeAll children by omega, List.range'_append_1]
  simp only [sizeAll, size]
  rw [show sizeAll children + 1 + sizeAll ts = sizeAll children + sizeAll ts + 1 by omega, List.range'_succ]

end ElementTree

open ElementTree

namespace Document

/-- The elements from a place on are those of some trees. -/
def Holds (d : Document) (base : Nat) (ts : List ElementTree) : Prop :=
  ∃ front back, d.elements.toList = front ++ elementsAll base ts ++ back ∧ front.length = base

variable {d : Document} {base : Nat} {tag : String} {attributes : Fields String} {children ts : List ElementTree}

theorem holds_ofTree (t : ElementTree) : (ofTree t).Holds 0 [t] := ⟨[], [], by simp [ofTree, elementsAll], rfl⟩

/-- The trees in the first tree. -/
theorem Holds.inner (h : d.Holds base (⟨tag, attributes, children⟩ :: ts)) : d.Holds (base + 1) children := by
  obtain ⟨front, back, he, hl⟩ := h
  refine ⟨front ++ [⟨tag, attributes, (roots (base + 1) children).toArray⟩],
    elementsAll (base + (sizeAll children + 1)) ts ++ back, ?_, by simp [hl]⟩
  simp [he, elementsAll, ElementTree.elements, size]

/-- The trees after the first tree. -/
theorem Holds.tail {t : ElementTree} (h : d.Holds base (t :: ts)) : d.Holds (base + t.size) ts := by
  obtain ⟨front, back, he, hl⟩ := h
  exact ⟨front ++ t.elements base, back, by simp [he, elementsAll], by simp [hl]⟩

/-- The root of the first tree. -/
theorem Holds.getElem? {t : ElementTree} (h : d.Holds base (t :: ts)) :
    d.elements[base]? = some ⟨t.tag, t.attributes, (roots (base + 1) t.children).toArray⟩ := by
  obtain ⟨tag, attributes, children⟩ := t
  obtain ⟨front, back, he, hl⟩ := h
  rw [← Array.getElem?_toList, he, ← hl]
  simp [elementsAll, ElementTree.elements]

/-- What the roots of trees hold. -/
theorem elements_of_holds : ∀ {base : Nat} {ts : List ElementTree}, d.Holds base ts →
    ((roots base ts).filterMap (d.elements[·]?)).map (fun e => (e.tag, e.attributes)) =
      ts.map fun t => (t.tag, t.attributes)
  | _, [], _ => rfl
  | base, ⟨tag, attributes, children⟩ :: ts, h => by
    simp only [roots, List.filterMap_cons, h.getElem?, List.map_cons, elements_of_holds h.tail]

/-- **The children of an element** are the roots of the trees in it. -/
theorem children_of_holds {t : ElementTree} (h : d.Holds base (t :: ts)) :
    (d.children base).map (fun e => (e.tag, e.attributes)) = t.children.map fun t => (t.tag, t.attributes) := by
  obtain ⟨tag, attributes, children⟩ := t
  simp only [Document.children, h.getElem?]
  exact elements_of_holds h.inner

/-- What is seen at the places of trees is what the trees are, one after another. -/
theorem map_range'_of_holds {β : Type} {see : Nat → β} {be : ElementTree → β}
    (hsee : ∀ {base : Nat} {t : ElementTree} {ts : List ElementTree}, d.Holds base (t :: ts) → see base = be t) :
    ∀ {base : Nat} {ts : List ElementTree}, d.Holds base ts →
      (List.range' base (sizeAll ts)).map see = (preorderAll ts).map be
  | _, [], _ => rfl
  | base, ⟨tag, attributes, children⟩ :: ts, h => by
    have hc := map_range'_of_holds hsee h.inner
    have ht := map_range'_of_holds hsee h.tail
    rw [size] at ht
    rw [range'_sizeAll_cons, List.map_cons, List.map_append, hc, ht, hsee h]
    simp [preorderAll, preorder]

/-! ## Steps of a walk -/

/-- The indices of the children of the element at an index. -/
def childrenAt (d : Document) (index : Nat) : List Nat := (d.elements[index]?.map (·.children.toList)).getD []

/-- **One step of a walk** takes the first pending index and puts the children of its element in its place. -/
theorem walkFrom_cons (d : Document) (visited : List Nat) (fuel index : Nat) (pending : List Nat) :
    d.walkFrom visited (fuel + 1) (index :: pending) =
      d.walkFrom (index :: visited) fuel (d.childrenAt index ++ pending) := by
  rw [walkFrom, childrenAt]
  cases d.elements[index]? <;> rfl

/-- What was visited before stands in front. -/
theorem walkFrom_eq_append (d : Document) (visited : List Nat) (fuel : Nat) (pending : List Nat) :
    d.walkFrom visited fuel pending = visited.reverse ++ d.walkFrom [] fuel pending := by
  induction fuel generalizing visited pending with
  | zero => simp [walkFrom]
  | succ fuel ih =>
    cases pending with
    | nil => simp [walkFrom]
    | cons index pending =>
      rw [walkFrom_cons, walkFrom_cons, ih, ih [index]]
      simp

/-- A walk that ends early is the front of a longer one. -/
theorem take_walkFrom (d : Document) (fuel more : Nat) (pending : List Nat) :
    (d.walkFrom [] (fuel + more) pending).take fuel = d.walkFrom [] fuel pending := by
  induction fuel generalizing pending with
  | zero => simp [walkFrom]
  | succ fuel ih =>
    rw [Nat.add_right_comm]
    cases pending with
    | nil => simp [walkFrom]
    | cons index pending =>
      rw [walkFrom_cons, walkFrom_cons, walkFrom_eq_append, walkFrom_eq_append _ _ fuel]
      simp [ih]

/-! ## Walks along trees -/

/-- The children of the root of the first tree. -/
theorem Holds.childrenAt (h : d.Holds base (⟨tag, attributes, children⟩ :: ts)) :
    d.childrenAt base = roots (base + 1) children := by
  rw [Document.childrenAt, h.getElem?]
  rfl

/-- **A walk from the roots of trees** visits their elements in order. -/
theorem walkFrom_roots : ∀ {base : Nat} {ts : List ElementTree}, d.Holds base ts →
    ∀ (visited : List Nat) (fuel : Nat) (pending : List Nat),
      d.walkFrom visited (sizeAll ts + fuel) (roots base ts ++ pending) =
        d.walkFrom ((List.range' base (sizeAll ts)).reverse ++ visited) fuel pending
  | _, [], _, visited, fuel, pending => by simp [sizeAll, roots]
  | base, ⟨tag, attributes, children⟩ :: ts, h, visited, fuel, pending => by
    have hf : sizeAll (⟨tag, attributes, children⟩ :: ts) + fuel = sizeAll children + (sizeAll ts + fuel) + 1 := by
      simp only [sizeAll, size]
      omega
    rw [hf, roots, List.cons_append, walkFrom_cons, h.childrenAt, walkFrom_roots h.inner, walkFrom_roots h.tail,
      range'_sizeAll_cons]
    simp [size]

theorem size_elements_ofTree (t : ElementTree) : (ofTree t).elements.size = t.size := by
  simp [ofTree]

/-- **A walk along the document of a tree** visits the places in order, one with each step, until none is left. -/
theorem walkFrom_ofTree (t : ElementTree) (fuel : Nat) :
    (ofTree t).walkFrom [] fuel [(ofTree t).root] = List.range (min fuel (ofTree t).elements.size) := by
  have hlong : (ofTree t).walkFrom [] (t.size + fuel) [0] = List.range t.size := by
    have h := walkFrom_roots (holds_ofTree t) [] fuel []
    simp only [roots, sizeAll, List.append_nil, Nat.add_zero] at h
    rw [h]
    cases fuel <;> simp [walkFrom, List.range_eq_range']
  have hshort := take_walkFrom (ofTree t) fuel t.size [0]
  rw [Nat.add_comm, hlong, List.take_range] at hshort
  rw [size_elements_ofTree]
  exact hshort.symm

/-- **The walk along the document of a tree** visits every place once and in order. -/
theorem walk_ofTree (t : ElementTree) : (ofTree t).walk = List.range t.size := by
  rw [walk, walkFrom_ofTree, Nat.min_self, size_elements_ofTree]

/-- **What is seen on the walk** along the document of a tree is what the trees in the tree are. -/
theorem map_walk_ofTree {β : Type} {t : ElementTree} (see : Nat → β) (be : ElementTree → β)
    (hsee : ∀ {base : Nat} {t' : ElementTree} {ts : List ElementTree},
      (ofTree t).Holds base (t' :: ts) → see base = be t') :
    (ofTree t).walk.map see = t.preorder.map be := by
  have h := map_range'_of_holds hsee (holds_ofTree t)
  rw [walk_ofTree, List.range_eq_range']
  simpa [sizeAll, preorderAll] using h

end Document

end RunAudit.Xml
