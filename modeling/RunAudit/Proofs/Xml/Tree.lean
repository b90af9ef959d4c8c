import RunAudit.Proofs.Xml.Reading

/-!
# Documents as trees

`ElementTree` is an element with the elements in it; the document of a tree lists its elements in document order, each
with the places of its children (`Document.ofTree`). `Spells es ts` says that events open, fill and close the trees
`ts` one after another. Events that spell a tree build its document (`acceptAll_of_spells_root`), and events that
build a document spell a tree (`exists_spells_of_finish`), so the documents that texts are read as are those of the
trees that their events spell (`parse_eq_ok_iff_spells`).
-/

namespace RunAudit.Xml

/-- An element: its tag, its attributes in order, and the elements in it. -/
structure ElementTree where
  tag : String
  attributes : Fields String
  children : List ElementTree
  deriving Repr

namespace ElementTree

mutual

/-- The number of elements of a tree. -/
def size : ElementTree → Nat
  | ⟨_, _, children⟩ => sizeAll children + 1

/-- The number of elements of some trees. -/
def sizeAll : List ElementTree → Nat
  | [] => 0
  | t :: ts => t.size + sizeAll ts

end

/-- The places of the roots of trees that stand from a place on. -/
def roots (base : Nat) : List ElementTree → List Nat
  | [] => []
  | t :: ts => base :: roots (base + t.size) ts

mutual

/-- The elements of a tree that stands from a place on, in document order. -/
def elements (base : Nat) : ElementTree → List Element
  | ⟨tag, attributes, children⟩ =>
    ⟨tag, attributes, (roots (base + 1) children).toArray⟩ :: elementsAll (base + 1) children

/-- The elements of trees that stand from a place on. -/
def elementsAll (base : Nat) : List ElementTree → List Element
  | [] => []
  | t :: ts => t.elements base ++ elementsAll (base + t.size) ts

end

mutual

@[simp]
theorem length_elements : ∀ (base : Nat) (t : ElementTree), (t.elements base).length = t.size
  | base, ⟨_, _, children⟩ => by simp only [elements, size, List.length_cons, length_elementsAll]

@[simp]
theorem length_elementsAll : ∀ (base : Nat) (ts : List ElementTree), (elementsAll base ts).length = sizeAll ts
  | _, [] => rfl
  | base, t :: ts => by simp only [elementsAll, sizeAll, List.length_append, length_elements, length_elementsAll]

end

end ElementTree

open ElementTree

/-- The document of a tree. -/
def Document.ofTree (t : ElementTree) : Document := ⟨(t.elements 0).toArray, 0⟩

/-- **Events that spell trees** one after another: each is opened, filled and closed, or has no content. -/
inductive Spells : List Event → List ElementTree → Prop
  | nil : Spells [] []
  | empty {content : List Char} {e : Element} {es : List Event} {ts : List ElementTree} :
      Builder.element content = .ok e → Spells es ts → Spells (.empty content :: es) (⟨e.tag, e.attributes, []⟩ :: ts)
  | nested {content name : List Char} {e : Element} {es es' : List Event} {children ts : List ElementTree} :
      Builder.element content = .ok e → Spells es children → Spells es' ts →
        Spells (.start content :: (es ++ .stop name :: es')) (⟨e.tag, e.attributes, children⟩ :: ts)

theorem Spells.append {es es' : List Event} {ts ts' : List ElementTree} (h : Spells es ts) (h' : Spells es' ts') :
    Spells (es ++ es') (ts ++ ts') := by
  induction h with
  | nil => exact h'
  | empty he _ ih => exact .empty he ih
  | nested he hc _ _ ih => simpa [List.append_assoc] using Spells.nested he hc ih

/-- Events that spell several trees spell the first of them first. -/
theorem Spells.split {es : List Event} {t : ElementTree} {ts : List ElementTree} (h : Spells es (t :: ts)) :
    ∃ es₁ es₂, es = es₁ ++ es₂ ∧ Spells es₁ [t] ∧ Spells es₂ ts := by
  cases h with
  | @empty content _ es _ he h => exact ⟨[.empty content], es, rfl, .empty he .nil, h⟩
  | @nested content name _ es es' _ _ he hc h =>
    exact ⟨.start content :: (es ++ [.stop name]), es', by simp, .nested he hc .nil, h⟩

/-- Events that spell no tree are none. -/
theorem Spells.eq_nil {es : List Event} (h : Spells es []) : es = [] := by
  cases h
  rfl

/-! ## Adding children -/

/-- Elements, one of which gets more children. -/
def addChildren (elements : Array Element) (parent : Nat) (indices : List Nat) : Array Element :=
  elements.modify parent fun p => { p with children := p.children ++ indices.toArray }

@[simp]
theorem size_addChildren (elements : Array Element) (parent : Nat) (indices : List Nat) :
    (addChildren elements parent indices).size = elements.size := by simp [addChildren]

theorem addChildren_nil (elements : Array Element) (parent : Nat) : addChildren elements parent [] = elements := by
  apply Array.ext_getElem?
  intro i
  simp only [addChildren, Array.getElem?_modify]
  split <;> simp

theorem addChildren_addChildren (elements : Array Element) (parent : Nat) (indices indices' : List Nat) :
    addChildren (addChildren elements parent indices) parent indices' =
      addChildren elements parent (indices ++ indices') := by
  apply Array.ext_getElem?
  intro i
  simp only [addChildren, Array.getElem?_modify]
  split <;> simp [Function.comp_def]

theorem addChildren_append {elements more : Array Element} {parent : Nat} (h : parent < elements.size)
    (indices : List Nat) :
    addChildren (elements ++ more) parent indices = addChildren elements parent indices ++ more := by
  apply Array.ext_getElem?
  intro i
  simp only [addChildren, Array.getElem?_modify, Array.getElem?_append, Array.size_modify]
  split
  · rename_i hi
    subst hi
    simp [h]
  · rfl

/-- The last element gets its first children. -/
theorem addChildren_push (elements : Array Element) (tag : String) (attributes : Fields String) (indices : List Nat) :
    addChildren (elements.push ⟨tag, attributes, #[]⟩) elements.size indices =
      elements.push ⟨tag, attributes, indices.toArray⟩ := by
  apply Array.ext_getElem?
  intro i
  simp only [addChildren, Array.getElem?_modify, Array.getElem?_push]
  split
  · rename_i hi
    subst hi
    simp
  · rename_i hi
    simp [Ne.symm hi]

/-! ## Events of trees build their documents -/

/-- An element is read from its tag without children. -/
theorem children_element {content : List Char} {e : Element} (h : Builder.element content = .ok e) :
    e = ⟨e.tag, e.attributes, #[]⟩ := by
  unfold Builder.element at h
  split at h
  · cases h
    rfl
  · cases h

theorem attach_child (elements : Array Element) (parent : Nat) (path : List Nat) (root : Option Nat) (e : Element) :
    Builder.attach ⟨elements, parent :: path, root⟩ e =
      .ok ⟨(addChildren elements parent [elements.size]).push e, parent :: path, root⟩ := by
  simp [Builder.attach, addChildren]

/-- An element that is entered becomes the innermost open one. -/
theorem accept_start {content : List Char} {e : Element} (he : Builder.element content = .ok e)
    (elements : Array Element) (parent : Nat) (path : List Nat) (root : Option Nat) :
    Builder.accept ⟨elements, parent :: path, root⟩ (.start content) =
      .ok ⟨(addChildren elements parent [elements.size]).push e, elements.size :: parent :: path, root⟩ := by
  simp [Builder.accept, he, attach_child, Except.map, Builder.enterLast]

/-- **Events that spell trees** add these to the innermost open element. -/
theorem acceptAll_of_spells {es : List Event} {ts : List ElementTree} (h : Spells es ts) :
    ∀ {elements : Array Element} {parent : Nat} (path : List Nat) (root : Option Nat), parent < elements.size →
      Builder.acceptAll ⟨elements, parent :: path, root⟩ es =
        .ok ⟨addChildren elements parent (roots elements.size ts) ++ (elementsAll elements.size ts).toArray,
          parent :: path, root⟩ := by
  induction h with
  | nil =>
    intro elements parent path root _
    simp [Builder.acceptAll, roots, elementsAll, addChildren_nil]
  | @empty content e es ts he _ ih =>
    intro elements parent path root hp
    have hs : (addChildren elements parent [elements.size] ++ #[e]).size = elements.size + 1 := by simp
    simp only [Builder.acceptAll, Builder.accept, he, attach_child, Array.push_eq_append]
    rw [ih path root (by simp; omega), hs, addChildren_append (by simpa using hp), addChildren_addChildren]
    rw [children_element he]
    simp [roots, elementsAll, ElementTree.elements, size, sizeAll]
  | @nested content name e es es' children ts he hc hs ihc ih =>
    intro elements parent path root hp
    -- what is open while the children are read, and what there is when they have been
    let opened := (addChildren elements parent [elements.size]).push ⟨e.tag, e.attributes, #[]⟩
    let filled := addChildren elements parent [elements.size] ++
      (ElementTree.elements elements.size ⟨e.tag, e.attributes, children⟩).toArray
    have hopened : opened.size = elements.size + 1 := by simp [opened]
    have hfilled : filled.size = elements.size + (sizeAll children + 1) := by simp [filled, size]
    have hchildren : addChildren opened elements.size (roots (elements.size + 1) children) ++
        (elementsAll (elements.size + 1) children).toArray = filled := by
      have := addChildren_push (addChildren elements parent [elements.size]) e.tag e.attributes
        (roots (elements.size + 1) children)
      rw [size_addChildren] at this
      simp only [opened, this, filled, ElementTree.elements]
      simp
    rw [Builder.acceptAll, accept_start he, children_element he]
    simp only
    rw [Builder.acceptAll_append, ihc (parent :: path) root (by simp), hopened, hchildren]
    simp only [Except.bind, Builder.acceptAll, Builder.accept]
    rw [ih path root (by omega), hfilled, addChildren_append (by simpa using hp), addChildren_addChildren]
    simp [roots, elementsAll, size]

/-- **Events that spell a tree** build its document. -/
theorem acceptAll_of_spells_root {es : List Event} {t : ElementTree} (h : Spells es [t]) :
    Builder.empty.acceptAll es = .ok ⟨(t.elements 0).toArray, [], some 0⟩ := by
  cases h with
  | @empty content e es _ he h =>
    cases h
    simp only [Builder.acceptAll, Builder.accept, he, Builder.empty, Builder.attach]
    rw [children_element he]
    simp [ElementTree.elements, roots, elementsAll]
  | @nested content name e es es' children _ he hc h =>
    cases h
    have hroot : Builder.empty.accept (.start content) = .ok ⟨#[⟨e.tag, e.attributes, #[]⟩], [0], some 0⟩ := by
      rw [← children_element he]
      simp [Builder.accept, he, Builder.empty, Builder.attach, Except.map, Builder.enterLast]
    have hpush := addChildren_push #[] e.tag e.attributes (roots 1 children)
    rw [Builder.acceptAll, hroot]
    simp only
    rw [Builder.acceptAll_append, acceptAll_of_spells hc [] (some 0) (by simp)]
    simp only [List.push_toArray, List.nil_append, List.size_toArray, List.length_nil] at hpush
    simp [Except.bind, Builder.acceptAll, Builder.accept, hpush, ElementTree.elements]

/-! ## Events that build documents spell trees -/

/-- Events that close a number of elements after some trees each, and spell some trees more. -/
inductive Closing : Nat → List Event → List ElementTree → Prop
  | done {es : List Event} {ts : List ElementTree} : Spells es ts → Closing 0 es ts
  | stop {n : Nat} {name : List Char} {es es' : List Event} {ts ts' : List ElementTree} :
      Spells es ts → Closing n es' ts' → Closing (n + 1) (es ++ .stop name :: es') ts

/-- Trees in front of what is closed first. -/
theorem Closing.cons {n : Nat} {es es' : List Event} {ts ts' : List ElementTree} (h : Spells es ts)
    (h' : Closing n es' ts') : Closing n (es ++ es') (ts ++ ts') := by
  cases h' with
  | done hs => exact .done (h.append hs)
  | stop hs hc =>
    rw [← List.append_assoc]
    exact .stop (h.append hs) hc

/-- An attached element leaves the same elements open. -/
theorem path_attach {b b' : Builder} {e : Element} (h : b.attach e = .ok b') : b'.path = b.path := by
  obtain ⟨elements, path, root⟩ := b
  cases path with
  | cons parent path =>
    cases h
    rfl
  | nil =>
    cases root with
    | none =>
      cases h
      rfl
    | some root => cases h

/-- **Events that leave nothing open** close every element that is open and spell trees in between. -/
theorem closing_of_acceptAll : ∀ {es : List Event} {b b' : Builder}, b.acceptAll es = .ok b' → b'.path = [] →
    ∃ ts, Closing b.path.length es ts
  | [], b, b', h, hp => by
    cases h
    exact ⟨[], by rw [hp]; exact .done .nil⟩
  | .empty content :: es, b, b', h, hp => by
    simp only [Builder.acceptAll, Builder.accept] at h
    cases he : Builder.element content with
    | error f => simp [he] at h
    | ok e =>
      cases ha : b.attach e with
      | error f => simp [he, ha] at h
      | ok b₁ =>
        simp only [he, ha] at h
        obtain ⟨ts, hc⟩ := closing_of_acceptAll h hp
        rw [path_attach ha] at hc
        exact ⟨_, Closing.cons (.empty he .nil) hc⟩
  | .start content :: es, b, b', h, hp => by
    simp only [Builder.acceptAll, Builder.accept] at h
    cases he : Builder.element content with
    | error f => simp [he] at h
    | ok e =>
      cases ha : b.attach e with
      | error f => simp [he, ha, Except.map] at h
      | ok b₁ =>
        simp only [he, ha, Except.map] at h
        obtain ⟨ts, hc⟩ := closing_of_acceptAll h hp
        simp only [Builder.enterLast, List.length_cons, path_attach ha] at hc
        cases hc with
        | @stop n name es₁ es₂ ts ts' hs hc =>
          have hn : Spells (.start content :: (es₁ ++ .stop name :: [])) [⟨e.tag, e.attributes, ts⟩] :=
            .nested he hs .nil
          have := Closing.cons hn hc
          exact ⟨_, by simpa using this⟩
  | .stop name :: es, b, b', h, hp => by
    obtain ⟨elements, path, root⟩ := b
    cases path with
    | nil => simp [Builder.acceptAll, Builder.accept] at h
    | cons parent path =>
      simp only [Builder.acceptAll, Builder.accept] at h
      obtain ⟨ts, hc⟩ := closing_of_acceptAll h hp
      exact ⟨[], Closing.stop .nil hc⟩

/-- Events that leave nothing open spell one tree, if there are any. -/
theorem eq_nil_or_spells {es : List Event} {b : Builder} (h : Builder.empty.acceptAll es = .ok b) (hp : b.path = []) :
    es = [] ∨ ∃ t, Spells es [t] := by
  obtain ⟨ts, hc⟩ := closing_of_acceptAll h hp
  cases hc with
  | done hs =>
    cases ts with
    | nil => exact .inl hs.eq_nil
    | cons t ts =>
      obtain ⟨es₁, es₂, rfl, h₁, h₂⟩ := hs.split
      rw [Builder.acceptAll_append, acceptAll_of_spells_root h₁] at h
      cases es₂ with
      | nil => exact .inr ⟨t, by rwa [List.append_nil]⟩
      | cons e es₂ =>
        -- the root is closed, so no further event is taken
        obtain ⟨f, he⟩ := Builder.accept_closed (b := ⟨(t.elements 0).toArray, [], some 0⟩) rfl rfl e
        simp [Except.bind, Builder.acceptAll, he] at h

/-- **Events that build a document** spell its tree. -/
theorem exists_spells_of_finish {es : List Event} {b : Builder} {d : Document}
    (h : Builder.empty.acceptAll es = .ok b) (hd : b.finish = .ok d) : ∃ t, Spells es [t] := by
  obtain ⟨hp, hr, _⟩ := Builder.finish_eq_ok_iff.1 hd
  rcases eq_nil_or_spells h hp with rfl | hs
  · cases h
    cases hr
  · exact hs

/-- **The documents that texts are read as** are those of the trees that their events spell. -/
theorem parse_eq_ok_iff_spells {text : List Char} {d : Document} :
    Document.parse text = .ok d ↔ ∃ es o t, (scan text).fault = none ∧ Reads [] (scan text).items es o ∧
      Spells es [t] ∧ d = .ofTree t := by
  rw [parse_eq_ok_iff]
  constructor
  · rintro ⟨es, o, b, hf, hr, ha, hd⟩
    obtain ⟨t, ht⟩ := exists_spells_of_finish ha hd
    rw [acceptAll_of_spells_root ht] at ha
    cases ha
    cases hd
    exact ⟨es, o, t, hf, hr, ht, rfl⟩
  · rintro ⟨es, o, t, hf, hr, ht, rfl⟩
    exact ⟨es, o, _, hf, hr, acceptAll_of_spells_root ht, rfl⟩

/-- Every document that a text is read as is that of a tree. -/
theorem exists_eq_ofTree {text : List Char} {d : Document} (h : Document.parse text = .ok d) :
    ∃ t, d = .ofTree t := by
  obtain ⟨_, _, t, _, _, _, hd⟩ := parse_eq_ok_iff_spells.1 h
  exact ⟨t, hd⟩

end RunAudit.Xml
