import Mathlib.Data.List.Forall2
import RunAudit.Event.Buckets
import RunAudit.Proofs.Audit

/-!
# Logs by type

A value is an event in one way at most: `Means v e` says which event it is, and `Refused index v error` why it is none,
where it stands at an index of its log. A log is read just when each of its values is an event; it is then apart by
type, each kind in order and nothing lost (`Partitions`). Otherwise its error is that of the first value that is no
event, whatever stands behind it (`classify_partition`). Three of the four errors name the index of the value; that of
a testing result that does not decode does not (`classify_undecodable`).
-/

namespace RunAudit.Event

/-! ## One value -/

/-- The type that a value names if it is an object. -/
def typeNamed? : Value → Option String
  | .object fields => typeOf? fields
  | _ => none

/-- The testing result that a value holds if it is an object. -/
def resultIn? : Value → Option TestingResult
  | .object fields => (Fields.get? fields "testingResult").bind fun v => (TestingResult.ofValue v).toOption
  | _ => none

/-- **A value that is an event**: an object that names its type by a text, with a testing result that decodes if its type
is that of such events. -/
def Acceptable (v : Value) : Prop :=
  ∃ (fields : Fields Value) (t : String), v = .object fields ∧ fields.get? "eventType" = some (.string t) ∧
    (t = resultType → ∃ w r, fields.get? "testingResult" = some w ∧ TestingResult.ofValue w = .ok r)

/-- The event that a value is. -/
inductive Means : Value → Event → Prop
  | result {fields : Fields Value} {w : Value} {r : TestingResult} : typeOf? fields = some resultType →
      fields.get? "testingResult" = some w → TestingResult.ofValue w = .ok r → Means (.object fields) (.result r)
  | tearDown {fields : Fields Value} : typeOf? fields = some tearDownType → Means (.object fields) (.tearDown fields)
  | unknown {fields : Fields Value} {t : String} : typeOf? fields = some t → t ≠ resultType → t ≠ tearDownType →
      Means (.object fields) (.unknown fields)

/-- **Why a value at an index of a log is no event.** -/
inductive Refused (index : Nat) : Value → Error → Prop
  | noObject {v : Value} : (∀ fields, v ≠ .object fields) →
      Refused index v (.malformed (.eventNotObject index (String.ofList (Json.compact v))))
  | noType {fields : Fields Value} : typeOf? fields = none →
      Refused index (.object fields) (.malformed (.eventWithoutType index))
  | noResult {fields : Fields Value} : typeOf? fields = some resultType → fields.get? "testingResult" = none →
      Refused index (.object fields) (.malformed (.eventWithoutResult index))
  | undecodable {fields : Fields Value} {w : Value} {f : DecodeFault} : typeOf? fields = some resultType →
      fields.get? "testingResult" = some w → TestingResult.ofValue w = .error f →
        Refused index (.object fields) (.json (.decoding f))

theorem typeOf?_eq_some_iff {fields : Fields Value} {t : String} :
    typeOf? fields = some t ↔ fields.get? "eventType" = some (.string t) := by
  unfold typeOf?
  split
  · rename_i h
    simp [h]
  · rename_i h
    simp only [reduceCtorEq, false_iff]
    exact h t

theorem acceptable_of_means {v : Value} {e : Event} (h : Means v e) : Acceptable v := by
  cases h with
  | @result fields w r ht hw hr => exact ⟨fields, _, rfl, typeOf?_eq_some_iff.1 ht, fun _ => ⟨w, r, hw, hr⟩⟩
  | @tearDown fields ht => exact ⟨fields, _, rfl, typeOf?_eq_some_iff.1 ht, fun h => absurd h (by decide)⟩
  | @unknown fields t ht hr _ => exact ⟨fields, t, rfl, typeOf?_eq_some_iff.1 ht, fun h => absurd h hr⟩

theorem not_acceptable_of_refused {index : Nat} {v : Value} {error : Error} (h : Refused index v error) :
    ¬Acceptable v := by
  rintro ⟨fields, t, rfl, ht, hresult⟩
  rw [← typeOf?_eq_some_iff] at ht
  cases h with
  | noObject hv => exact hv fields rfl
  | noType hn => simp [hn] at ht
  | noResult hr hw =>
    obtain ⟨w, r, hw', _⟩ := hresult (Option.some.inj (ht.symm.trans hr))
    simp [hw] at hw'
  | undecodable hr hw hf =>
    obtain ⟨w, r, hw', hd⟩ := hresult (Option.some.inj (ht.symm.trans hr))
    rw [hw, Option.some.injEq] at hw'
    subst hw'
    simp [hf] at hd

/-- A value that is an event is read as this event, wherever it stands. -/
theorem ofValue_of_means {v : Value} {e : Event} (h : Means v e) (index : Nat) : ofValue index v = .ok e := by
  cases h with
  | result ht hw hr => simp [ofValue, ofFields, ht, resultOf, hw, hr, Except.map, Except.mapError]
  | tearDown ht => simp [ofValue, ofFields, ht, tearDownType, resultType]
  | unknown ht hr hd => simp [ofValue, ofFields, ht, hr, hd]

/-- **A value at an index is read as the event that it is, or refused.** -/
theorem ofValue_cases (index : Nat) (v : Value) :
    (∃ e, ofValue index v = .ok e ∧ Means v e) ∨ ∃ error, ofValue index v = .error error ∧ Refused index v error := by
  by_cases hv : ∃ fields, v = .object fields
  · obtain ⟨fields, rfl⟩ := hv
    show (∃ e, ofFields index fields = .ok e ∧ _) ∨ ∃ error, ofFields index fields = .error error ∧ _
    cases ht : typeOf? fields with
    | none => exact .inr ⟨_, by simp [ofFields, ht], .noType ht⟩
    | some t =>
      by_cases hr : t = resultType
      · subst hr
        cases hw : Fields.get? fields "testingResult" with
        | none => exact .inr ⟨_, by simp [ofFields, ht, resultOf, hw, Except.map], .noResult ht hw⟩
        | some w =>
          cases hd : TestingResult.ofValue w with
          | error f =>
            exact .inr ⟨_, by simp [ofFields, ht, resultOf, hw, hd, Except.map, Except.mapError], .undecodable ht hw hd⟩
          | ok r =>
            exact .inl ⟨_, by simp [ofFields, ht, resultOf, hw, hd, Except.map, Except.mapError], .result ht hw hd⟩
      · by_cases hd : t = tearDownType
        · subst hd
          exact .inl ⟨_, by simp [ofFields, ht, hr], .tearDown ht⟩
        · exact .inl ⟨_, by simp [ofFields, ht, hr, hd], .unknown ht hr hd⟩
  · have hv' : ∀ fields, v ≠ .object fields := fun fields h => hv ⟨fields, h⟩
    refine .inr ⟨_, ?_, .noObject hv'⟩
    cases v with
    | object fields => exact absurd rfl (hv' fields)
    | _ => rfl

theorem exists_means_of_acceptable {v : Value} (h : Acceptable v) (index : Nat) :
    ∃ e, ofValue index v = .ok e ∧ Means v e :=
  (ofValue_cases index v).resolve_right fun ⟨_, _, hr⟩ => not_acceptable_of_refused hr h

theorem means_of_ofValue {index : Nat} {v : Value} {e : Event} (h : ofValue index v = .ok e) : Means v e := by
  rcases ofValue_cases index v with ⟨e', he', hm⟩ | ⟨error, he', _⟩
  · rw [h, Except.ok.injEq] at he'
    exact he' ▸ hm
  · rw [h] at he'
    cases he'

theorem exists_refused_of_not_acceptable {v : Value} (h : ¬Acceptable v) (index : Nat) :
    ∃ error, ofValue index v = .error error ∧ Refused index v error :=
  (ofValue_cases index v).resolve_left fun ⟨_, _, hm⟩ => h (acceptable_of_means hm)

/-! ## Logs -/

/-- The events that values are from an index of their log on. -/
def eventsAt (index : Nat) (values : List Value) : Except Error (List Event) :=
  (values.zipIdx index).mapM fun (v, index) => ofValue index v

theorem eventsAt_cons (index : Nat) (v : Value) (rest : List Value) :
    eventsAt index (v :: rest) = (ofValue index v).bind fun e => (eventsAt (index + 1) rest).map (e :: ·) := by
  rw [eventsAt, List.zipIdx_cons, List.mapM_cons]
  rfl

/-- The events of values with more values behind them. -/
theorem eventsAt_append (index : Nat) (values more : List Value) :
    eventsAt index (values ++ more) =
      (eventsAt index values).bind fun es => (eventsAt (index + values.length) more).map (es ++ ·) := by
  induction values generalizing index with
  | nil =>
    show eventsAt index more = (eventsAt index more).map fun es => es
    cases eventsAt index more <;> rfl
  | cons v rest ih =>
    rw [List.cons_append, eventsAt_cons, eventsAt_cons, ih, List.length_cons, Nat.add_right_comm, Nat.add_assoc]
    cases ofValue index v with
    | error e => rfl
    | ok e =>
      simp only [Except.bind]
      cases eventsAt (index + 1) rest with
      | error f => rfl
      | ok es =>
        simp only [Except.map]
        cases eventsAt (index + (rest.length + 1)) more <;> rfl

/-- **Values are read as events** just when they are these events, wherever they stand in the log. -/
theorem eventsAt_eq_ok_iff {values : List Value} : ∀ {index : Nat} {events : List Event},
    eventsAt index values = .ok events ↔ List.Forall₂ Means values events := by
  induction values with
  | nil =>
    intro index events
    show Except.ok [] = Except.ok events ↔ _
    rw [List.forall₂_nil_left_iff, Except.ok.injEq, eq_comm]
  | cons v rest ih =>
    intro index events
    rw [eventsAt_cons, bind_eq_ok_iff, List.forall₂_cons_left_iff]
    constructor
    · rintro ⟨e, he, h⟩
      obtain ⟨es, hes, rfl⟩ := map_eq_ok_iff.1 h
      exact ⟨e, es, means_of_ofValue he, ih.1 hes, rfl⟩
    · rintro ⟨e, es, hm, hes, rfl⟩
      exact ⟨e, ofValue_of_means hm index, by rw [ih.2 hes]; rfl⟩

theorem classify_eq_ok_iff {values : List Value} {b : Buckets} :
    classify values = .ok b ↔ ∃ events, List.Forall₂ Means values events ∧ .ofEvents events = b := by
  rw [classify, map_eq_ok_iff]
  exact exists_congr fun events => and_congr_left fun _ => eventsAt_eq_ok_iff

/-- Values that are events each are some list of events. -/
theorem exists_forall₂_means {values : List Value} (h : ∀ v ∈ values, Acceptable v) :
    ∃ events, List.Forall₂ Means values events := by
  induction values with
  | nil => exact ⟨[], .nil⟩
  | cons v rest ih =>
    obtain ⟨hv, hrest⟩ := List.forall_mem_cons.1 h
    obtain ⟨e, _, he⟩ := exists_means_of_acceptable hv 0
    obtain ⟨es, hes⟩ := ih hrest
    exact ⟨e :: es, .cons he hes⟩

theorem acceptable_of_forall₂ {values : List Value} {events : List Event} (h : List.Forall₂ Means values events) :
    ∀ v ∈ values, Acceptable v := by
  induction h with
  | nil => exact fun _ h => by cases h
  | cons he _ ih => exact List.forall_mem_cons.2 ⟨acceptable_of_means he, ih⟩

/-- **The first value that is no event** is the error of its log, whatever stands behind it. -/
theorem classify_refused {before : List Value} (h : ∀ u ∈ before, Acceptable u) {v : Value} {error : Error}
    (hv : ofValue before.length v = .error error) (after : List Value) :
    classify (before ++ v :: after) = .error error := by
  obtain ⟨events, hevents⟩ := exists_forall₂_means h
  have hlog : eventsAt 0 (before ++ v :: after) = .error error := by
    rw [eventsAt_append, eventsAt_eq_ok_iff.2 hevents, Nat.zero_add]
    simp only [Except.bind, eventsAt_cons, hv, Except.map]
  show (eventsAt 0 _).map _ = _
  rw [hlog]
  rfl

/-! ## Buckets -/

namespace Buckets

/-- Two logs' buckets, each kind one behind the other. -/
def append (b b' : Buckets) : Buckets :=
  ⟨b.results ++ b'.results, b.tearDowns ++ b'.tearDowns, b.unknown ++ b'.unknown⟩

theorem ofEvents_append (events more : List Event) :
    ofEvents (events ++ more) = (ofEvents events).append (ofEvents more) := by
  simp only [ofEvents, append, List.filterMap_append]

/-- Each event is in one bucket. -/
theorem length_ofEvents (events : List Event) :
    (ofEvents events).results.length + (ofEvents events).tearDowns.length + (ofEvents events).unknown.length =
      events.length := by
  induction events with
  | nil => rfl
  | cons e rest ih =>
    rw [List.length_cons, ← ih]
    cases e <;> simp only [ofEvents, List.filterMap_cons, List.length_cons] <;> omega

end Buckets

/-- Whether a value names a type. -/
def hasType (t : String) (v : Value) : Bool := typeNamed? v == some t

/-- Whether a value names a type of events that are not decoded and do not end a run. -/
def hasOtherType (v : Value) : Bool := !hasType resultType v && !hasType tearDownType v

/-- **Values apart by type**: the testing results of those with their type, the tear downs, and all others, each kind
in order and the last two as they are; each value is in one of them. -/
structure Partitions (values : List Value) (b : Buckets) : Prop where
  results : b.results.map some = (values.filter (hasType resultType)).map resultIn?
  tearDowns : b.tearDowns.map Value.object = values.filter (hasType tearDownType)
  unknown : b.unknown.map Value.object = values.filter hasOtherType
  length : b.results.length + b.tearDowns.length + b.unknown.length = values.length

/-- What is kept of events and what is kept of the values that are these events. -/
theorem map_filterMap_of_forall₂ {α β : Type} {keep : Event → Option α} {view : α → β} {keepValue : Value → Option β}
    (hkeep : ∀ {v e}, Means v e → (keep e).map view = keepValue v) {values : List Value} {events : List Event}
    (h : List.Forall₂ Means values events) : (events.filterMap keep).map view = values.filterMap keepValue := by
  induction h with
  | nil => rfl
  | @cons v e values events he _ ih =>
    rw [List.filterMap_cons, List.filterMap_cons, ← hkeep he]
    cases keep e with
    | none => exact ih
    | some a => rw [List.map_cons, ih]; rfl

/-- What type a value has that is an event. -/
theorem hasType_of_means {v : Value} {e : Event} (h : Means v e) :
    hasType resultType v = (match e with | .result _ => true | _ => false) ∧
      hasType tearDownType v = (match e with | .tearDown _ => true | _ => false) := by
  have hdiffer : resultType ≠ tearDownType := by decide
  cases h with
  | result ht _ _ => simp [hasType, typeNamed?, ht, hdiffer]
  | tearDown ht => simp [hasType, typeNamed?, ht, hdiffer.symm]
  | unknown ht hr hd => simp [hasType, typeNamed?, ht, hr, hd]

/-- **Values are apart by type** once they are read as events. -/
theorem partitions_ofEvents {values : List Value} {events : List Event} (h : List.Forall₂ Means values events) :
    Partitions values (.ofEvents events) := by
  refine ⟨?_, ?_, ?_, ?_⟩
  · rw [← List.filterMap_eq_filter, List.map_filterMap]
    refine map_filterMap_of_forall₂ (fun {v e} hm => ?_) h
    rw [Option.guard, (hasType_of_means hm).1]
    cases hm with
    | result _ hw hr => simp [resultIn?, hw, hr, Except.toOption]
    | tearDown _ => rfl
    | unknown _ _ _ => rfl
  · rw [← List.filterMap_eq_filter]
    refine map_filterMap_of_forall₂ (fun {v e} hm => ?_) h
    rw [Option.guard, (hasType_of_means hm).2]
    cases hm <;> rfl
  · rw [← List.filterMap_eq_filter]
    refine map_filterMap_of_forall₂ (fun {v e} hm => ?_) h
    rw [Option.guard, hasOtherType, (hasType_of_means hm).1, (hasType_of_means hm).2]
    cases hm <;> rfl
  · rw [Buckets.length_ofEvents, h.length_eq]

/-! ## Reading a log -/

/-- **A log is read** just when each of its values is an event. It is then apart by type, and so is it with another log
behind it, bucket by bucket. The first value that is no event refuses the log, whatever stands behind it. -/
theorem classify_partition (values : List Value) :
    ((∃ b, classify values = .ok b) ↔ ∀ v ∈ values, Acceptable v) ∧
      (∀ b, classify values = .ok b → Partitions values b) ∧
      (∀ more b b', classify values = .ok b → classify more = .ok b' → classify (values ++ more) = .ok (b.append b')) ∧
      ∀ v, (∀ u ∈ values, Acceptable u) → ¬Acceptable v →
        ∃ error, Refused values.length v error ∧ ∀ after, classify (values ++ v :: after) = .error error := by
  refine ⟨⟨?_, ?_⟩, ?_, ?_, ?_⟩
  · rintro ⟨b, hb⟩
    obtain ⟨events, hevents, _⟩ := classify_eq_ok_iff.1 hb
    exact acceptable_of_forall₂ hevents
  · intro h
    obtain ⟨events, hevents⟩ := exists_forall₂_means h
    exact ⟨.ofEvents events, classify_eq_ok_iff.2 ⟨events, hevents, rfl⟩⟩
  · intro b hb
    obtain ⟨events, hevents, rfl⟩ := classify_eq_ok_iff.1 hb
    exact partitions_ofEvents hevents
  · intro more b b' hb hb'
    obtain ⟨events, hevents, rfl⟩ := classify_eq_ok_iff.1 hb
    obtain ⟨events', hevents', rfl⟩ := classify_eq_ok_iff.1 hb'
    exact classify_eq_ok_iff.2 ⟨events ++ events', List.rel_append hevents hevents', Buckets.ofEvents_append _ _⟩
  · intro v hvalues hv
    obtain ⟨error, he, hrefused⟩ := exists_refused_of_not_acceptable hv values.length
    exact ⟨error, hrefused, classify_refused hvalues he⟩

/-- A testing result that does not decode is refused without its index: the error is the same for the first value of a
log and for the second. -/
theorem classify_undecodable :
    let tearDown := Value.object [("eventType", .string "tearDown")]
    let undecodable := Value.object [("eventType", .string "didObtainTestingResult"), ("testingResult", .object [])]
    let error := Error.json (.decoding (.missingField "bucket"))
    classify [undecodable] = .error error ∧ classify [tearDown, undecodable] = .error error ∧
      error.message = "Error parsing JSON document missing field `bucket`" := by
  refine ⟨rfl, rfl, rfl⟩

end RunAudit.Event
