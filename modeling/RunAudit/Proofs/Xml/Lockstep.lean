import Mathlib.Logic.Relation
import RunAudit.Proofs.Xml.Structure

/-!
# The reader and the builder in lockstep

The elements that are open are kept twice: by the reader as names and by the builder as indices. `Progress` is what both
keep after some of a text, and `Progress.step` lets the reader find the next markup and the builder take it at once. A
text becomes what these steps end in (`parse_eq_iff_reaches`), so what they preserve holds throughout: the builder keeps
the elements that have the names which the reader keeps (`Progress.Reaches.tracks`). So whatever closing tag the reader
lets pass closes an element of its name, and none is left for the builder to refuse (`parse_lockstep`).
-/

namespace RunAudit.Xml

open Relation (ReflTransGen)

/-- **How far a text has been read**: what is left of it, the names that the reader keeps, the innermost first, and what
has been built. -/
structure Progress where
  rest : List Char
  opened : List (List Char)
  builder : Builder
  deriving DecidableEq, Repr

/-- What one markup leads to: reading goes on, or something has become of the text. -/
inductive Turn where
  | on (p : Progress)
  | ends (outcome : Except DocumentFault Document)
  deriving DecidableEq

namespace Progress

/-- Nothing read. -/
def start (text : List Char) : Progress := ⟨text, [], .empty⟩

/-- A tag in front of the rest: the reader makes an event of it, and the builder takes the event. -/
def take (p : Progress) (i : Item) (rest : List Char) : Turn :=
  match readItem p.opened i with
  | .error f => .ends (.error (.markup f))
  | .ok (opened, e) =>
    match p.builder.accept e with
    | .error f => .ends (.error f)
    | .ok builder => .on ⟨rest, opened, builder⟩

/-- The next markup. -/
def step (p : Progress) : Turn :=
  match (front p.rest).next with
  | .done => .ends p.builder.finish
  | .fault f => .ends (.error (.markup f))
  | .ignored rest => .on { p with rest := rest }
  | .item i rest => p.take i rest

/-- Some steps. -/
def Reaches : Progress → Progress → Prop := ReflTransGen fun p q => p.step = .on q

variable {p q : Progress}

theorem step_item {i : Item} {rest : List Char} (h : (front p.rest).next = .item i rest) : p.step = p.take i rest := by
  rw [step, h]

/-- A tag that is taken was read by the reader and accepted by the builder. -/
theorem take_eq_on {i : Item} {rest : List Char} (h : p.take i rest = .on q) :
    ∃ e, readItem p.opened i = .ok (q.opened, e) ∧ p.builder.accept e = .ok q.builder ∧ q.rest = rest := by
  unfold take at h
  split at h
  · cases h
  · rename_i opened e hread
    split at h
    · cases h
    · rename_i builder haccept
      cases h
      exact ⟨e, hread, haccept, rfl⟩

/-- **What a step can do**: it passes over markup that says nothing about elements, or takes a tag. -/
theorem step_eq_on (h : p.step = .on q) :
    (∃ rest, (front p.rest).next = .ignored rest ∧ q = { p with rest := rest }) ∨
      ∃ i e, (front p.rest).next = .item i q.rest ∧ readItem p.opened i = .ok (q.opened, e) ∧
        p.builder.accept e = .ok q.builder := by
  unfold step at h
  split at h
  · cases h
  · cases h
  · rename_i rest hnext
    cases h
    exact .inl ⟨rest, hnext, rfl⟩
  · rename_i i rest hnext
    obtain ⟨e, hread, haccept, rfl⟩ := take_eq_on h
    exact .inr ⟨i, e, hnext, hread, haccept⟩

end Progress

/-! ## What the steps end in -/

/-- What the builder makes of events, and of the fault that ended them. -/
def Events.build (found : Events) (b : Builder) : Except DocumentFault Document :=
  match b.acceptAll found.events with
  | .error f => .error f
  | .ok b =>
    match found.fault with
    | some f => .error (.markup f)
    | none => b.finish

theorem Events.build_cons (e : Event) (es : List Event) (fault : Option Fault) (b : Builder) :
    (⟨e :: es, fault⟩ : Events).build b =
      match b.accept e with
      | .error f => .error f
      | .ok b => (⟨es, fault⟩ : Events).build b := by
  simp only [build, Builder.acceptAll]
  cases b.accept e <;> rfl

/-- The events read before only stand in front. -/
theorem eventsFrom_eq : ∀ (items : List Item) (o : List (List Char)) (read : List Event) (last : Option Fault),
    eventsFrom o read last items =
      ⟨read.reverse ++ (eventsFrom o [] last items).events, (eventsFrom o [] last items).fault⟩
  | [], o, read, last => by simp [eventsFrom]
  | i :: items, o, read, last => by
    simp only [eventsFrom]
    cases readItem o i with
    | error f => simp
    | ok r =>
      obtain ⟨o', e⟩ := r
      simp only [eventsFrom_eq items o' (e :: read) last, eventsFrom_eq items o' [e] last]
      simp

/-- A tag behind which others are read: its event comes first, unless the reader refuses it. -/
theorem build_eventsFrom_cons (o : List (List Char)) (last : Option Fault) (i : Item) (items : List Item)
    (b : Builder) :
    (eventsFrom o [] last (i :: items)).build b =
      match readItem o i with
      | .error f => .error (.markup f)
      | .ok (o', e) =>
        match b.accept e with
        | .error f => .error f
        | .ok b => (eventsFrom o' [] last items).build b := by
  rw [eventsFrom]
  cases readItem o i with
  | error f => rfl
  | ok r =>
    obtain ⟨o', e⟩ := r
    simp only
    rw [eventsFrom_eq items o' [e] last]
    exact Events.build_cons e _ _ b

namespace Progress

variable {p q : Progress}

/-- What becomes of the text if all that is left is read before the builder takes any of it. -/
def outcome (p : Progress) : Except DocumentFault Document :=
  (eventsFrom p.opened [] (scan p.rest).fault (scan p.rest).items).build p.builder

theorem outcome_start (text : List Char) : (start text).outcome = Document.parse text := rfl

/-- **Nothing is gained by reading ahead**: one step leaves the outcome as it is, or ends in it. -/
theorem outcome_eq (p : Progress) :
    p.outcome = match p.step with
      | .on q => q.outcome
      | .ends outcome => outcome := by
  rw [outcome, step, scan_eq]
  cases (front p.rest).next with
  | done => rfl
  | fault f => rfl
  | ignored rest => rfl
  | item i rest =>
    simp only [Next.scan, Scan.after, List.singleton_append, build_eventsFrom_cons, take]
    cases readItem p.opened i with
    | error f => rfl
    | ok r =>
      obtain ⟨o, e⟩ := r
      simp only
      cases p.builder.accept e <;> rfl

/-- Each step reads some of the text. -/
theorem length_rest_lt (h : p.step = .on q) : q.rest.length < p.rest.length := by
  rcases step_eq_on h with ⟨rest, hnext, rfl⟩ | ⟨i, e, hnext, _⟩
  · exact (front p.rest).length_lt (.inl hnext)
  · exact (front p.rest).length_lt (.inr ⟨i, hnext⟩)

theorem Reaches.outcome_eq (h : p.Reaches q) : p.outcome = q.outcome := by
  induction h with
  | refl => rfl
  | tail _ hstep ih => rw [ih, Progress.outcome_eq, hstep]

/-- Steps come to an end, since each reads some of the text. -/
theorem exists_ends (p : Progress) : ∃ q outcome, p.Reaches q ∧ q.step = .ends outcome := by
  induction hn : p.rest.length using Nat.strongRecOn generalizing p with
  | _ n ih =>
    cases hstep : p.step with
    | ends outcome => exact ⟨p, outcome, .refl, hstep⟩
    | on q =>
      obtain ⟨q', outcome, hreaches, hends⟩ := ih q.rest.length (hn ▸ length_rest_lt hstep) q rfl
      exact ⟨q', outcome, .head hstep hreaches, hends⟩

end Progress

/-- **A text becomes what the steps end in.** -/
theorem parse_eq_iff_reaches {text : List Char} {outcome : Except DocumentFault Document} :
    Document.parse text = outcome ↔ ∃ p, (Progress.start text).Reaches p ∧ p.step = .ends outcome := by
  have hends : ∀ {p : Progress} {outcome'}, (Progress.start text).Reaches p → p.step = .ends outcome' →
      Document.parse text = outcome' := by
    intro p outcome' hreaches hstep
    rw [← Progress.outcome_start, hreaches.outcome_eq, Progress.outcome_eq, hstep]
  constructor
  · rintro rfl
    obtain ⟨p, outcome', hreaches, hstep⟩ := (Progress.start text).exists_ends
    exact ⟨p, hreaches, hends hreaches hstep ▸ hstep⟩
  · rintro ⟨p, hreaches, hstep⟩
    exact hends hreaches hstep

/-! ## In lockstep -/

/-- An event of a tag whose attributes cannot be read is refused. -/
theorem Builder.accept_of_illegible (b : Builder) {e : Event} {content : List Char} {f : Fault}
    (hc : e.content? = some content) (hf : attributes content = .error f) : b.accept e = .error (.markup f) := by
  cases e with
  | start _ | empty _ =>
    cases hc
    simp only [accept, element, hf]
  | stop _ => cases hc

/-- **An event that the reader lets pass**: the builder takes it and stays in lockstep, or refuses it for its attributes
or as a second root. -/
theorem Builder.Tracks.accept_read {b : Builder} {o o' : List (List Char)} {i : Item} {e : Event} (h : b.Tracks o)
    (hread : readItem o i = .ok (o', e)) :
    (∃ b', b.accept e = .ok b' ∧ b'.Tracks o') ∨ (∃ f, b.accept e = .error (.markup f)) ∨
      ∃ tag, b.accept e = .error (.structural (.secondRoot tag)) := by
  by_cases hd : ∀ content, e.content? = some content → ∃ fields, attributes content = .ok fields
  · rcases h.accept hd (openAfter_of_reads (.cons hread (.nil _))) with htaken | ⟨_, _, content, _, hrefused⟩
    · exact .inl htaken
    · exact .inr (.inr ⟨_, hrefused⟩)
  · obtain ⟨content, hd⟩ := Classical.not_forall.1 hd
    obtain ⟨hc, hd⟩ := Classical.not_imp.1 hd
    cases hf : attributes content with
    | ok fields => exact absurd ⟨fields, hf⟩ hd
    | error f => exact .inr (.inl ⟨f, b.accept_of_illegible hc hf⟩)

theorem Builder.finish_ne_strayClose (b : Builder) (name : String) :
    b.finish ≠ .error (.structural (.strayClose name)) := by
  intro h
  unfold finish at h
  split at h <;> cases h

namespace Progress

variable {p q : Progress}

/-- **A step keeps the reader and the builder in lockstep.** -/
theorem tracks_of_step (h : p.builder.Tracks p.opened) (hstep : p.step = .on q) : q.builder.Tracks q.opened := by
  rcases step_eq_on hstep with ⟨rest, _, rfl⟩ | ⟨i, e, _, hread, haccept⟩
  · exact h
  · rcases h.accept_read hread with ⟨b, hb, htracks⟩ | ⟨f, hf⟩ | ⟨tag, htag⟩
    · rw [haccept] at hb
      cases hb
      exact htracks
    · rw [haccept] at hf
      cases hf
    · rw [haccept] at htag
      cases htag

/-- **All the way through a text**, the reader and the builder are in lockstep. -/
theorem Reaches.tracks {text : List Char} (h : (start text).Reaches p) : p.builder.Tracks p.opened := by
  induction h with
  | refl => exact Builder.tracks_empty
  | tail _ hstep ih => exact tracks_of_step ih hstep

/-- In lockstep, nothing ends in a closing tag that the builder has no element for. -/
theorem step_ne_strayClose (h : p.builder.Tracks p.opened) (name : String) :
    p.step ≠ .ends (.error (.structural (.strayClose name))) := by
  intro hstep
  unfold step at hstep
  split at hstep
  · exact p.builder.finish_ne_strayClose name (Turn.ends.inj hstep)
  · cases hstep
  · cases hstep
  · unfold take at hstep
    split at hstep
    · cases hstep
    · rename_i hread
      rcases h.accept_read hread with ⟨b, hb, _⟩ | ⟨f, hf⟩ | ⟨tag, htag⟩
      · rw [hb] at hstep
        cases hstep
      · rw [hf] at hstep
        cases hstep
      · rw [htag] at hstep
        cases hstep

/-- **What becomes of a closing tag**: the innermost element has its name and is closed, in the reader and in the
builder; or the reader refuses it, because the innermost element has another name or because none is open. -/
inductive Closes (p : Progress) (name rest : List Char) : Prop
  | closed {outer : List (List Char)} {index : Nat} {path : List Nat} : p.opened = closingName name :: outer →
      p.builder.path = index :: path →
      p.builder.elements[index]?.map (·.tag) = some (String.ofList (closingName name)) →
      p.step = .on ⟨rest, outer, { p.builder with path := path }⟩ → Closes p name rest
  | mismatched {innermost : List Char} {outer : List (List Char)} : p.opened = innermost :: outer →
      closingName name ≠ innermost →
      p.step = .ends
        (.error (.markup (.mismatchedClose (String.ofList innermost) (String.ofList (closingName name))))) →
      Closes p name rest
  | stray : p.opened = [] → p.step = .ends (.error (.markup (.mismatchedClose "" (String.ofList name)))) →
      Closes p name rest

theorem closes_of_tracks {name rest : List Char} (h : p.builder.Tracks p.opened)
    (hnext : (front p.rest).next = .item (.closing name) rest) : p.Closes name rest := by
  have hstep := step_item hnext
  obtain ⟨s, opened, elements, path, root⟩ := p
  cases h with
  | nil => exact .stray rfl hstep
  | @cons index innermost path outer htag htracks =>
    by_cases hname : closingName name = innermost
    · subst hname
      refine .closed rfl rfl htag (hstep.trans ?_)
      simp only [take, readItem, if_pos, Builder.accept]
    · refine .mismatched rfl hname (hstep.trans ?_)
      simp only [take, readItem, if_neg hname]

end Progress

/-- Only a stray closing tag is worded as one: no other wording begins with its first letter. -/
theorem StructureFault.eq_strayClose_of_message {fault : StructureFault} {name : String}
    (h : fault.message = "closing tag </" ++ name ++ "> without an opening tag") : ∃ tag, fault = .strayClose tag := by
  have hfirst : fault.message.toList.head? = some 'c' := by
    rw [h]
    simp
  cases fault with
  | secondRoot tag =>
    change ("second root element <" ++ tag ++ "> after the document root").toList.head? = _ at hfirst
    simp at hfirst
  | neverClosed tag =>
    change ("element <" ++ tag ++ "> is never closed").toList.head? = _ at hfirst
    simp at hfirst
  | noRoot =>
    change "document has no root element".toList.head? = _ at hfirst
    simp at hfirst
  | strayClose tag => exact ⟨tag, rfl⟩

/-- **A stray closing tag never reaches the builder.** At every step through a text, the builder keeps open the elements
with the names that the reader keeps, in the same order. So a closing tag closes the innermost element, under its name,
or is refused by the reader; and no text becomes the fault of a closing tag without an opening tag. -/
theorem parse_lockstep (text : List Char) :
    (∀ outcome, Document.parse text = outcome ↔
        ∃ p, (Progress.start text).Reaches p ∧ p.step = .ends outcome) ∧
      (∀ p, (Progress.start text).Reaches p → p.builder.Tracks p.opened ∧
        ∀ name rest, (front p.rest).next = .item (.closing name) rest → p.Closes name rest) ∧
      ∀ fault name, Document.parse text = .error (.structural fault) →
        fault.message ≠ "closing tag </" ++ name ++ "> without an opening tag" := by
  refine ⟨fun _ => parse_eq_iff_reaches, fun p hreaches => ⟨hreaches.tracks, ?_⟩, ?_⟩
  · intro name rest hnext
    exact Progress.closes_of_tracks hreaches.tracks hnext
  · intro fault name hparse hmessage
    obtain ⟨tag, rfl⟩ := StructureFault.eq_strayClose_of_message hmessage
    obtain ⟨p, hreaches, hstep⟩ := parse_eq_iff_reaches.1 hparse
    exact Progress.step_ne_strayClose hreaches.tracks tag hstep

/-- Behind an element of the same name, the closing tag of another is refused by the reader. -/
theorem parse_lockstep_mismatched :
    ∃ p, (Progress.start "<a><a></a></b>".toList).Reaches p ∧ p.opened = [['a']] ∧ p.builder.path = [0] ∧
      p.builder.Tracks p.opened ∧ p.Closes ['b'] [] ∧
      Document.parse "<a><a></a></b>".toList = .error (.markup (.mismatchedClose "a" "b")) := by
  let outer : Progress := ⟨"<a></a></b>".toList, [['a']], ⟨#[⟨"a", [], #[]⟩], [0], some 0⟩⟩
  let inner : Progress := ⟨"</a></b>".toList, [['a'], ['a']], ⟨#[⟨"a", [], #[1]⟩, ⟨"a", [], #[]⟩], [1, 0], some 0⟩⟩
  let behind : Progress := ⟨"</b>".toList, [['a']], ⟨#[⟨"a", [], #[1]⟩, ⟨"a", [], #[]⟩], [0], some 0⟩⟩
  have houter : (Progress.start "<a><a></a></b>".toList).step = .on outer := by decide +kernel
  have hinner : outer.step = .on inner := by decide +kernel
  have hbehind : inner.step = .on behind := by decide +kernel
  have hends : behind.step = .ends (.error (.markup (.mismatchedClose "a" "b"))) := by decide +kernel
  have hreaches : (Progress.start "<a><a></a></b>".toList).Reaches behind :=
    .tail (.tail (.single houter) hinner) hbehind
  obtain ⟨hparse, hlockstep, _⟩ := parse_lockstep "<a><a></a></b>".toList
  obtain ⟨htracks, hcloses⟩ := hlockstep behind hreaches
  exact ⟨behind, hreaches, rfl, rfl, htracks, hcloses ['b'] [] (by decide +kernel),
    (hparse _).2 ⟨behind, hreaches, hends⟩⟩

end RunAudit.Xml
