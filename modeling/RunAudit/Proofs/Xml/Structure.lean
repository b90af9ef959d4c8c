import Mathlib.Data.List.Forall2
import RunAudit.Proofs.Xml.Tree

/-!
# Which tags form a document

`Balanced` says that events open and close elements in pairs, `Whole` that they are one such element, and `openAfter`
which elements are open after them. Of a text whose tags can be read, the events are one whole element just when the
text is a document; else they have exactly one fault (`Diagnosis`), and this is the one that is found
(`parse_verdict`).

The builder keeps the elements that are open as indices. `Builder.Tracks` ties these to the names that the reader keeps;
every event preserves it, up to a second root (`Builder.Tracks.acceptAll`).
-/

namespace RunAudit.Xml

/-- The content of the tag of an element that an event opens or stands for. -/
def Event.content? : Event → Option (List Char)
  | .start content => some content
  | .empty content => some content
  | .stop _ => none

/-- **Balanced events**: every element that is opened is closed under its own name, in order. -/
inductive Balanced : List Event → Prop
  | nil : Balanced []
  | empty {content : List Char} {es : List Event} : Balanced es → Balanced (.empty content :: es)
  | nested {content : List Char} {es es' : List Event} : Balanced es → Balanced es' →
      Balanced (.start content :: (es ++ .stop (nameOf content) :: es'))

/-- **Events that are one element**: one without content, or its opening, balanced events, and its closing. -/
inductive Whole : List Event → Prop
  | empty (content : List Char) : Whole [.empty content]
  | nested (content : List Char) {es : List Event} : Balanced es →
      Whole (.start content :: (es ++ [.stop (nameOf content)]))

/-- The names of the elements that are open after events, the innermost first, when those of `o` are open before
them; none if an event closes another element than the innermost. -/
def openAfter (o : List (List Char)) : List Event → Option (List (List Char))
  | [] => some o
  | .start content :: es => openAfter (nameOf content :: o) es
  | .empty _ :: es => openAfter o es
  | .stop name :: es =>
    match o with
    | [] => none
    | innermost :: o => if name = innermost then openAfter o es else none

/-- After a whole element, the next event opens or stands for an element with a tag. -/
def SecondRoot (es : List Event) (tag : String) : Prop :=
  ∃ first e rest content, es = first ++ e :: rest ∧ Whole first ∧ e.content? = some content ∧
    tag = String.ofList (nameOf content)

/-- **What is wrong with events** that are no document, and how it is worded. A second root comes first, then the
innermost element that stays open. -/
inductive Diagnosis (es : List Event) : StructureFault → String → Prop
  | secondRoot {tag : String} : SecondRoot es tag →
      Diagnosis es (.secondRoot tag) ("second root element <" ++ tag ++ "> after the document root")
  | neverClosed {name : List Char} {outer : List (List Char)} : (∀ tag, ¬ SecondRoot es tag) →
      openAfter [] es = some (name :: outer) →
      Diagnosis es (.neverClosed (String.ofList name)) ("element <" ++ String.ofList name ++ "> is never closed")
  | noRoot : es = [] → Diagnosis es .noRoot "document has no root element"

/-- The attributes of every tag of events can be read. -/
def Decodes (es : List Event) : Prop :=
  ∀ e ∈ es, ∀ content, e.content? = some content → ∃ fields, attributes content = .ok fields

/-- A text whose tags can be read to the end, with their attributes. -/
structure Legible (text : List Char) : Prop where
  markup : (events text).fault = none
  decodes : Decodes (events text).events

theorem Decodes.append {es es' : List Event} (h : Decodes (es ++ es')) : Decodes es ∧ Decodes es' :=
  ⟨fun e he => h e (List.mem_append_left _ he), fun e he => h e (List.mem_append_right _ he)⟩

theorem Decodes.cons {e : Event} {es : List Event} (h : Decodes (e :: es)) :
    (∀ content, e.content? = some content → ∃ fields, attributes content = .ok fields) ∧ Decodes es :=
  ⟨h e List.mem_cons_self, fun e' he => h e' (List.mem_cons_of_mem _ he)⟩

/-- The element of a tag whose attributes can be read. -/
theorem element_of_attributes {content : List Char} (h : ∃ fields, attributes content = .ok fields) :
    ∃ e, Builder.element content = .ok e ∧ e.tag = String.ofList (nameOf content) := by
  obtain ⟨fields, h⟩ := h
  exact ⟨⟨String.ofList (nameOf content), fields, #[]⟩, by simp only [Builder.element, h], rfl⟩

/-! ## The elements that are open -/

theorem openAfter_append : ∀ (o : List (List Char)) (es es' : List Event),
    openAfter o (es ++ es') = (openAfter o es).bind (openAfter · es')
  | _, [], _ => rfl
  | o, .start content :: es, es' => openAfter_append (nameOf content :: o) es es'
  | o, .empty _ :: es, es' => openAfter_append o es es'
  | [], .stop _ :: _, _ => rfl
  | innermost :: o, .stop name :: es, es' => by
    simp only [List.cons_append, openAfter]
    split
    · exact openAfter_append o es es'
    · rfl

/-- The reader and its events agree on the elements that are open. -/
theorem openAfter_of_reads {o o' : List (List Char)} {items : List Item} {es : List Event}
    (h : Reads o items es o') : openAfter o es = some o' := by
  induction h with
  | nil o => rfl
  | @cons o o₁ o' i e items es hr _ ih =>
    cases i with
    | opening content =>
      cases hr
      exact ih
    | empty content =>
      cases hr
      exact ih
    | closing name =>
      cases o with
      | nil => simp [readItem] at hr
      | cons innermost o =>
        simp only [readItem] at hr
        split at hr
        · cases hr
          simpa [openAfter] using ih
        · cases hr

theorem Legible.openAfter {text : List Char} (h : Legible text) :
    ∃ o, openAfter [] (events text).events = some o := by
  obtain ⟨_, es, o, hr⟩ := reads_of_eventsFrom h.markup
  exact ⟨o, by simpa [events, eventsFrom_of_reads hr] using openAfter_of_reads hr⟩

/-! ## Balanced events spell trees -/

theorem Balanced.exists_spells {es : List Event} (h : Balanced es) : Decodes es → ∃ ts, Spells es ts := by
  induction h with
  | nil => exact fun _ => ⟨[], .nil⟩
  | empty _ ih =>
    intro hd
    obtain ⟨he, hd⟩ := hd.cons
    obtain ⟨e, he, _⟩ := element_of_attributes (he _ rfl)
    obtain ⟨ts, hs⟩ := ih hd
    exact ⟨_, .empty he hs⟩
  | nested _ _ ih ih' =>
    intro hd
    obtain ⟨he, hd⟩ := hd.cons
    obtain ⟨e, he, _⟩ := element_of_attributes (he _ rfl)
    obtain ⟨children, hc⟩ := ih hd.append.1
    obtain ⟨ts, hs⟩ := ih' hd.append.2.cons.2
    exact ⟨_, .nested he hc hs⟩

theorem Whole.exists_spells {es : List Event} (h : Whole es) (hd : Decodes es) : ∃ t, Spells es [t] := by
  cases h with
  | empty content =>
    obtain ⟨e, he, _⟩ := element_of_attributes (hd.cons.1 content rfl)
    exact ⟨_, .empty he .nil⟩
  | nested content hb =>
    obtain ⟨he, hd⟩ := hd.cons
    obtain ⟨e, he, _⟩ := element_of_attributes (he content rfl)
    obtain ⟨children, hc⟩ := hb.exists_spells hd.append.1
    exact ⟨_, .nested he hc .nil⟩

/-- An element whose content leaves nothing open is closed under its own name. -/
theorem openAfter_nested {o o' : List (List Char)} {content name : List Char} {es es' : List Event}
    (hes : ∀ o₁, openAfter (nameOf content :: o) es = some o₁ → o₁ = nameOf content :: o)
    (ho : openAfter o (.start content :: (es ++ .stop name :: es')) = some o') :
    (∃ o₁, openAfter (nameOf content :: o) es = some o₁) ∧ name = nameOf content ∧ openAfter o es' = some o' := by
  rw [openAfter, openAfter_append, Option.bind_eq_some_iff] at ho
  obtain ⟨o₁, h₁, ho⟩ := ho
  obtain rfl := hes o₁ h₁
  simp only [openAfter] at ho
  split at ho
  · rename_i hname
    exact ⟨⟨_, h₁⟩, hname, ho⟩
  · cases ho

/-- Events that spell trees are balanced where every closing has the innermost name. -/
theorem Spells.balanced {es : List Event} {ts : List ElementTree} (h : Spells es ts) :
    ∀ {o o' : List (List Char)}, openAfter o es = some o' → Balanced es ∧ o' = o := by
  induction h with
  | nil =>
    intro o o' ho
    cases ho
    exact ⟨.nil, rfl⟩
  | empty _ _ ih =>
    intro o o' ho
    obtain ⟨hb, rfl⟩ := ih ho
    exact ⟨.empty hb, rfl⟩
  | nested _ _ _ ih ih' =>
    intro o o' ho
    obtain ⟨⟨o₁, h₁⟩, rfl, hrest⟩ := openAfter_nested (fun _ h => (ih h).2) ho
    obtain ⟨hb, rfl⟩ := ih' hrest
    exact ⟨.nested (ih h₁).1 hb, rfl⟩

/-- Events that spell one tree are one element. -/
theorem Spells.whole {es : List Event} {t : ElementTree} (h : Spells es [t]) {o o' : List (List Char)}
    (ho : openAfter o es = some o') : Whole es := by
  cases h with
  | empty _ h =>
    cases h
    exact .empty _
  | nested _ hc h =>
    cases h
    obtain ⟨⟨o₁, h₁⟩, rfl, _⟩ := openAfter_nested (fun _ h => (hc.balanced h).2) ho
    exact .nested _ (hc.balanced h₁).1

/-! ## The builder and the elements that are open -/

/-- The open elements of a builder have the names that are open in the text. -/
def Builder.Tracks (b : Builder) (o : List (List Char)) : Prop :=
  List.Forall₂ (fun i name => b.elements[i]?.map (·.tag) = some (String.ofList name)) b.path o

/-- More children and one more element leave the tags of the elements as they are. -/
theorem tag_push_addChildren {elements : Array Element} {parent : Nat} {indices : List Nat} {e : Element} {i : Nat}
    {tag : String} (h : elements[i]?.map (·.tag) = some tag) :
    ((addChildren elements parent indices).push e)[i]?.map (·.tag) = some tag := by
  obtain ⟨p, hp, rfl⟩ := Option.map_eq_some_iff.1 h
  have hi : i < elements.size := (Array.getElem?_eq_some_iff.1 hp).1
  rw [Array.getElem?_push, if_neg (by simp; omega), addChildren, Array.getElem?_modify]
  split <;> simp [hp]

/-- An element is attached with the same elements open, or is a second root. -/
theorem Builder.Tracks.attach {b : Builder} {o : List (List Char)} (h : b.Tracks o) (e : Element) :
    (∃ b', b.attach e = .ok b' ∧ b'.Tracks o ∧ b'.elements.back? = some e) ∨
      (b.path = [] ∧ b.root ≠ none ∧ b.attach e = .error (.structural (.secondRoot e.tag))) := by
  obtain ⟨elements, path, root⟩ := b
  cases path with
  | cons parent path =>
    refine .inl ⟨_, attach_child elements parent path root e, ?_, by simp⟩
    exact List.Forall₂.imp (fun _ _ => tag_push_addChildren) h
  | nil =>
    cases root with
    | none => exact .inl ⟨_, rfl, by cases h; exact .nil, by simp⟩
    | some root => exact .inr ⟨rfl, by simp, rfl⟩

theorem Builder.Tracks.enterLast {b : Builder} {o : List (List Char)} {e : Element} {name : List Char}
    (h : b.Tracks o) (hb : b.elements.back? = some e) (ht : e.tag = String.ofList name) :
    b.enterLast.Tracks (name :: o) := by
  refine .cons ?_ h
  rw [Array.back?] at hb
  simp [Builder.enterLast, hb, ht]

/-- An event that opens or stands for an element is refused, in front of the events that follow, as a second root. -/
def Builder.Refuses (b : Builder) (e : Event) : Prop :=
  b.path = [] ∧ b.root ≠ none ∧ ∃ content, e.content? = some content ∧
    b.accept e = .error (.structural (.secondRoot (String.ofList (nameOf content))))

/-- **One event**: it is taken and the open elements stay tracked, or it is a second root. -/
theorem Builder.Tracks.accept {b : Builder} {o o' : List (List Char)} {e : Event} (h : b.Tracks o)
    (hd : ∀ content, e.content? = some content → ∃ fields, attributes content = .ok fields)
    (ho : openAfter o [e] = some o') : (∃ b', b.accept e = .ok b' ∧ b'.Tracks o') ∨ b.Refuses e := by
  cases e with
  | start content =>
    cases ho
    obtain ⟨e, he, ht⟩ := element_of_attributes (hd content rfl)
    rcases h.attach e with ⟨b', ha, hb, hl⟩ | ⟨hp, hr, ha⟩
    · exact .inl ⟨b'.enterLast, by simp only [Builder.accept, he, ha, Except.map], hb.enterLast hl ht⟩
    · exact .inr ⟨hp, hr, content, rfl, by simp only [Builder.accept, he, ha, Except.map, ht]⟩
  | empty content =>
    cases ho
    obtain ⟨e, he, ht⟩ := element_of_attributes (hd content rfl)
    rcases h.attach e with ⟨b', ha, hb, _⟩ | ⟨hp, hr, ha⟩
    · exact .inl ⟨b', by simp only [Builder.accept, he, ha], hb⟩
    · exact .inr ⟨hp, hr, content, rfl, by simp only [Builder.accept, he, ha, ht]⟩
  | stop name =>
    obtain ⟨elements, path, root⟩ := b
    cases h with
    | nil => cases ho
    | @cons i innermost path o _ h =>
      simp only [openAfter] at ho
      split at ho
      · cases ho
        exact .inl ⟨_, rfl, h⟩
      · cases ho

/-- **All events**: they are taken and the open elements stay tracked, or the first that is not taken is a second
root. -/
theorem Builder.Tracks.acceptAll : ∀ {es : List Event} {b : Builder} {o o' : List (List Char)}, b.Tracks o →
    Decodes es → openAfter o es = some o' → (∃ b', b.acceptAll es = .ok b' ∧ b'.Tracks o') ∨
      ∃ first e rest b', es = first ++ e :: rest ∧ b.acceptAll first = .ok b' ∧ b'.Refuses e
  | [], b, o, o', h, _, ho => by
    cases ho
    exact .inl ⟨b, rfl, h⟩
  | e :: es, b, o, o', h, hd, ho => by
    rw [← List.singleton_append, openAfter_append, Option.bind_eq_some_iff] at ho
    obtain ⟨o₁, h₁, ho⟩ := ho
    rcases h.accept hd.cons.1 h₁ with ⟨b₁, ha, hb⟩ | hr
    · rcases hb.acceptAll hd.cons.2 ho with ⟨b', ha', hb'⟩ | ⟨first, e', rest, b', rfl, ha', hr⟩
      · exact .inl ⟨b', by simp only [Builder.acceptAll, ha, ha'], hb'⟩
      · exact .inr ⟨e :: first, e', rest, b', rfl, by simp only [Builder.acceptAll, ha, ha'], hr⟩
    · exact .inr ⟨[], e, es, b, rfl, rfl, hr⟩

theorem Builder.tracks_empty : Builder.empty.Tracks [] := .nil

/-! ## What becomes of a text -/

/-- A text without a fault in its markup becomes what the builder makes of its events. -/
theorem Legible.parse {text : List Char} (h : Legible text) :
    Document.parse text = (Builder.empty.acceptAll (events text).events).bind Builder.finish := by
  simp only [Document.parse, h.markup]
  cases Builder.empty.acceptAll (events text).events <;> rfl

theorem Legible.parse_of_whole {text : List Char} (h : Legible text) (hw : Whole (events text).events) :
    ∃ d, Document.parse text = .ok d := by
  obtain ⟨t, ht⟩ := hw.exists_spells h.decodes
  exact ⟨_, by rw [h.parse, acceptAll_of_spells_root ht]; rfl⟩

theorem acceptAll_of_secondRoot {es : List Event} {tag : String} (h : SecondRoot es tag) (hd : Decodes es) :
    Builder.empty.acceptAll es = .error (.structural (.secondRoot tag)) := by
  obtain ⟨first, e, rest, content, rfl, hw, hc, rfl⟩ := h
  obtain ⟨t, ht⟩ := hw.exists_spells hd.append.1
  obtain ⟨el, hel, htag⟩ := element_of_attributes (hd.append.2.cons.1 content hc)
  rw [Builder.acceptAll_append, acceptAll_of_spells_root ht]
  cases e with
  | start content' =>
    cases hc
    simp only [Except.bind, Builder.acceptAll, Builder.accept, hel, Builder.attach, Except.map, htag]
  | empty content' =>
    cases hc
    simp only [Except.bind, Builder.acceptAll, Builder.accept, hel, Builder.attach, htag]
  | stop name => cases hc

/-- What stays open at the end of the events is the fault of a text that has no second root. -/
theorem Builder.Tracks.finish {b : Builder} {name : List Char} {outer : List (List Char)}
    (h : b.Tracks (name :: outer)) : b.finish = .error (.structural (.neverClosed (String.ofList name))) := by
  obtain ⟨elements, path, root⟩ := b
  cases h with
  | cons hi _ => simp [Builder.finish, hi]

/-- Events that are not taken to the end have a second root. -/
theorem secondRoot_of_refuses {first : List Event} {e : Event} (rest : List Event) {b : Builder}
    {o : List (List Char)} (ha : Builder.empty.acceptAll first = .ok b) (hr : b.Refuses e)
    (ho : openAfter [] (first ++ e :: rest) = some o) : ∃ tag, SecondRoot (first ++ e :: rest) tag := by
  obtain ⟨hp, hroot, content, hc, _⟩ := hr
  -- nothing is open in front of it, but there is a root, so the events before it are one element
  rw [openAfter_append, Option.bind_eq_some_iff] at ho
  obtain ⟨o₁, ho, _⟩ := ho
  rcases eq_nil_or_spells ha hp with rfl | ⟨t, ht⟩
  · cases ha
    exact absurd rfl hroot
  · exact ⟨_, first, e, rest, content, rfl, ht.whole ho, hc, rfl⟩

/-- **The events of a text** are one element or have a fault. -/
theorem Legible.whole_or_diagnosis {text : List Char} (h : Legible text) :
    Whole (events text).events ∨ ∃ s, Diagnosis (events text).events s s.message := by
  obtain ⟨o, ho⟩ := h.openAfter
  rcases Builder.tracks_empty.acceptAll h.decodes ho with ⟨b, ha, hb⟩ | ⟨first, e, rest, b, hes, ha, hr⟩
  · -- every event is taken, so what is open at the end decides
    cases o with
    | nil =>
      have hp : b.path = [] := by
        rw [Builder.Tracks, List.forall₂_nil_right_iff] at hb
        exact hb
      rcases eq_nil_or_spells ha hp with hnil | ⟨t, ht⟩
      · exact .inr ⟨_, .noRoot hnil⟩
      · exact .inl (ht.whole ho)
    | cons name outer =>
      refine .inr ⟨_, .neverClosed (fun tag hs => ?_) ho⟩
      rw [acceptAll_of_secondRoot hs h.decodes] at ha
      cases ha
  · rw [hes] at ho ⊢
    obtain ⟨tag, hs⟩ := secondRoot_of_refuses rest ha hr ho
    exact .inr ⟨_, .secondRoot hs⟩

theorem Legible.parse_of_diagnosis {text : List Char} (h : Legible text) {s : StructureFault} {message : String}
    (hs : Diagnosis (events text).events s message) : Document.parse text = .error (.structural s) := by
  rw [h.parse]
  cases hs with
  | secondRoot hs =>
    rw [acceptAll_of_secondRoot hs h.decodes]
    rfl
  | noRoot hnil =>
    rw [hnil]
    rfl
  | neverClosed hno ho =>
    -- an event that is not taken would be the second root that there is none of
    rcases Builder.tracks_empty.acceptAll h.decodes ho with ⟨b, ha, hb⟩ | ⟨first, e, rest, b, hes, ha, hr⟩
    · rw [ha]
      exact hb.finish
    · rw [hes] at ho hno
      obtain ⟨tag, hs⟩ := secondRoot_of_refuses rest ha hr ho
      exact absurd hs (hno tag)

/-- **What becomes of a text** whose tags and attributes can be read: it is a document just when its events are exactly
one element, and else is refused with the one fault that its events have, in its wording. -/
theorem parse_verdict {text : List Char} (h : Legible text) :
    ((∃ d, Document.parse text = .ok d) ↔ Whole (events text).events) ∧
      ∀ f, Document.parse text = .error f ↔ ∃ s, f = .structural s ∧ Diagnosis (events text).events s s.message := by
  rcases h.whole_or_diagnosis with hw | ⟨s, hs⟩
  · obtain ⟨d, hd⟩ := h.parse_of_whole hw
    refine ⟨⟨fun _ => hw, fun _ => ⟨d, hd⟩⟩, fun f => ⟨fun hf => ?_, ?_⟩⟩
    · rw [hd] at hf
      cases hf
    · rintro ⟨s, rfl, hs⟩
      exact h.parse_of_diagnosis hs
  · have hf := h.parse_of_diagnosis hs
    refine ⟨⟨?_, h.parse_of_whole⟩, fun f => ⟨fun hf' => ?_, ?_⟩⟩
    · rintro ⟨d, hd⟩
      rw [hf] at hd
      cases hd
    · rw [hf] at hf'
      cases hf'
      exact ⟨s, rfl, hs⟩
    · rintro ⟨s, rfl, hs⟩
      exact h.parse_of_diagnosis hs

/-- Behind one element, another is refused, though it stays open itself. -/
theorem parse_verdict_second :
    Document.parse "<a><b/></a><c>".toList = .error (.structural (.secondRoot "c")) := by
  have hes : events "<a><b/></a><c>".toList =
      ⟨[.start ['a'], .empty ['b'], .stop ['a'], .start ['c']], none⟩ := by decide +kernel
  have hd : ∀ content ∈ (events "<a><b/></a><c>".toList).events.filterMap Event.content?,
      attributes content = .ok [] := by decide +kernel
  have h : Legible "<a><b/></a><c>".toList :=
    ⟨by rw [hes], fun e he content hc => ⟨[], hd content (List.mem_filterMap.2 ⟨e, he, hc⟩)⟩⟩
  have hs : SecondRoot (events "<a><b/></a><c>".toList).events "c" := by
    rw [hes]
    exact ⟨_, .start ['c'], [], ['c'], rfl, .nested ['a'] (.empty .nil), rfl, by decide⟩
  exact ((parse_verdict h).2 _).2 ⟨_, rfl, .secondRoot hs⟩

end RunAudit.Xml
