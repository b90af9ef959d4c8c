import RunAudit.Proofs.Xml.Front
import RunAudit.Xml.Document

/-!
# Documents that are read to the end

`Reads o items es o'` says that tags in front of which the elements `o` are open do `es` and leave `o'` open. A text
is a document just when its tags are read to the end, the builder takes what they do, and nothing is left open
(`parse_eq_ok_iff`).
-/

namespace RunAudit.Xml

/-- **Tags that are read to the end**, with what they do and the names open before and after them. -/
inductive Reads : List (List Char) → List Item → List Event → List (List Char) → Prop
  | nil (o : List (List Char)) : Reads o [] [] o
  | cons {o o₁ o' : List (List Char)} {i : Item} {e : Event} {items : List Item} {es : List Event} :
      readItem o i = .ok (o₁, e) → Reads o₁ items es o' → Reads o (i :: items) (e :: es) o'

/-- A closing tag that is read closes the innermost element. -/
theorem readItem_closing {o o₁ : List (List Char)} {name : List Char} {e : Event}
    (h : readItem o (.closing name) = .ok (o₁, e)) : e = .stop (o.headD []) := by
  cases o with
  | nil => simp [readItem] at h
  | cons innermost o =>
    simp only [readItem] at h
    split at h
    · cases h
      rfl
    · cases h

/-- Reading on. -/
theorem Reads.append {o o₁ o' : List (List Char)} {items items' : List Item} {es es' : List Event}
    (h : Reads o items es o₁) (h' : Reads o₁ items' es' o') : Reads o (items ++ items') (es ++ es') o' := by
  induction h with
  | nil _ => exact h'
  | cons hr _ ih => exact .cons hr (ih h')

/-- Tags that are read to the end give all of their events, and the fault of the text if it has one. -/
theorem eventsFrom_of_reads {o o' : List (List Char)} {items : List Item} {es : List Event}
    (h : Reads o items es o') : ∀ (read : List Event) (last : Option Fault),
      eventsFrom o read last items = ⟨read.reverse ++ es, last⟩ := by
  induction h with
  | nil _ => intro read last; simp [eventsFrom]
  | cons hr _ ih => intro read last; simp [eventsFrom, hr, ih]

/-- Events without a fault are those of tags that are read to the end. -/
theorem reads_of_eventsFrom : ∀ {items : List Item} {o : List (List Char)} {read : List Event} {last : Option Fault},
    (eventsFrom o read last items).fault = none → last = none ∧ ∃ es o', Reads o items es o'
  | [], o, _, _, h => ⟨h, [], o, .nil o⟩
  | i :: items, o, read, last, h => by
    cases hr : readItem o i with
    | error f => simp [eventsFrom, hr] at h
    | ok p =>
      simp only [eventsFrom, hr] at h
      obtain ⟨hl, es, o', hes⟩ := reads_of_eventsFrom h
      exact ⟨hl, p.2 :: es, o', .cons hr hes⟩

/-! ## The builder -/

/-- Taking events in two parts. -/
theorem Builder.acceptAll_append : ∀ (b : Builder) (es es' : List Event),
    b.acceptAll (es ++ es') = (b.acceptAll es).bind (·.acceptAll es')
  | _, [], _ => rfl
  | b, e :: es, es' => by
    simp only [List.cons_append, Builder.acceptAll]
    cases b.accept e with
    | error f => rfl
    | ok b' => exact acceptAll_append b' es es'

/-- A document that has its root takes no more events once nothing is open. -/
theorem Builder.accept_closed {b : Builder} {root : Nat} (hp : b.path = []) (hr : b.root = some root) (e : Event) :
    ∃ f, b.accept e = .error f := by
  obtain ⟨elements, path, root'⟩ := b
  subst hp hr
  cases e with
  | start content =>
    simp only [accept]
    cases element content <;> simp [attach, Except.map]
  | empty content =>
    simp only [accept]
    cases element content <;> simp [attach]
  | stop name => exact ⟨_, rfl⟩

/-- What finishing a document says of the builder. -/
theorem Builder.finish_eq_ok_iff {b : Builder} {d : Document} :
    b.finish = .ok d ↔ b.path = [] ∧ b.root = some d.root ∧ b.elements = d.elements := by
  obtain ⟨elements, path, root⟩ := b
  obtain ⟨elements', root'⟩ := d
  cases path <;> cases root <;> simp [finish, and_comm]

/-! ## Documents -/

/-- **A text is a document just when** its tags are read to the end and the builder takes and finishes them. -/
theorem parse_eq_ok_iff {text : List Char} {d : Document} :
    Document.parse text = .ok d ↔ ∃ es o b, (scan text).fault = none ∧ Reads [] (scan text).items es o ∧
      Builder.empty.acceptAll es = .ok b ∧ b.finish = .ok d := by
  constructor
  · intro h
    unfold Document.parse at h
    cases hb : Builder.empty.acceptAll (events text).events with
    | error f => simp [hb] at h
    | ok b =>
      cases hf : (events text).fault with
      | some f => simp [hb, hf] at h
      | none =>
        simp only [hb, hf] at h
        obtain ⟨hl, es, o, hes⟩ := reads_of_eventsFrom hf
        have he : (events text).events = es := by simp [events, eventsFrom_of_reads hes]
        exact ⟨es, o, b, hl, hes, he ▸ hb, h⟩
  · rintro ⟨es, o, b, hl, hes, hb, hd⟩
    have he : events text = ⟨es, none⟩ := by simp [events, eventsFrom_of_reads hes, hl]
    simp [Document.parse, he, hb, hd]

end RunAudit.Xml
