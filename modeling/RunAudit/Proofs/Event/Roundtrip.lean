import RunAudit.Proofs.Event.Buckets

/-!
# Buckets as a log

What a testing result is written as decodes to this testing result (`TestingResult.ofValue_toValue`), and buckets are a
log again, one kind of events behind the other (`Buckets.toValues`). Such a log is read as the buckets it was made of
if each event is in the bucket of its type (`classify_toValues_of_typed`), and so it is in all buckets that a log was
read as (`typed_of_classify`): what is read, written and read again does not change (`classify_toValues`).
-/

namespace RunAudit.Event

/-! ## Records -/

/-- **Items that are written one by one** are decoded one by one. -/
theorem list_map {α : Type} {read : Value → Decoded α} {write : α → Value} (h : ∀ a, read (write a) = .ok a)
    (as : List α) : list read (.list (as.map write)) = .ok as := by
  show (as.map write).mapM read = .ok as
  induction as with
  | nil => rfl
  | cons a as ih =>
    rw [List.map_cons, List.mapM_cons, h, ih]
    rfl

/-- Two keys are found in the fields that are written for them. -/
theorem twoFields_pair {α β : Type} {key₁ key₂ : String} {read₁ : Value → Decoded α} {read₂ : Value → Decoded β}
    (hne : key₁ ≠ key₂) {v w : Value} {a : α} {b : β} (ha : read₁ v = .ok a) (hb : read₂ w = .ok b) :
    twoFields key₁ read₁ key₂ read₂ none none [(key₁, v), (key₂, w)] = .ok (some a, some b) := by
  simp only [twoFields, if_true, ha, if_neg hne.symm, hb]

/-- A test is decoded from its object, whether its class is left out or not. -/
theorem TestEntry.ofValue_toValue (e : TestEntry) : TestEntry.ofValue e.toValue = .ok e := by
  obtain ⟨m, _ | c⟩ := e <;> rfl

theorem Bucket.ofValue_toValue (b : Bucket) : Bucket.ofValue b.toValue = .ok b := by
  show ((list TestEntry.ofValue (.list (b.testEntries.map TestEntry.toValue))).map some).bind _ = _
  rw [list_map TestEntry.ofValue_toValue]
  rfl

theorem TestRun.ofValue_toValue (r : TestRun) : TestRun.ofValue r.toValue = .ok r := by
  have hfields := twoFields_pair (show "succeeded" ≠ "testEntry" by decide)
    (show truthValue (.bool r.succeeded) = .ok r.succeeded from rfl) (TestEntry.ofValue_toValue r.testEntry)
  show (twoFields _ _ _ _ none none _).bind _ = _
  rw [hfields]
  rfl

/-- **A testing result is decoded** from its object. -/
theorem TestingResult.ofValue_toValue (r : TestingResult) : TestingResult.ofValue r.toValue = .ok r := by
  have hfields := twoFields_pair (show "bucket" ≠ "unfilteredTestRuns" by decide) (Bucket.ofValue_toValue r.bucket)
    (list_map TestRun.ofValue_toValue r.unfilteredTestRuns)
  show (twoFields _ _ _ _ none none _).bind _ = _
  rw [hfields]
  rfl

/-! ## Logs -/

/-- The event that carries a testing result. -/
def TestingResult.toEvent (r : TestingResult) : Value :=
  .object [("eventType", .string resultType), ("testingResult", r.toValue)]

theorem TestingResult.means_toEvent (r : TestingResult) : Means r.toEvent (.result r) :=
  .result rfl rfl (ofValue_toValue r)

namespace Buckets

/-- **Buckets as a log**: the testing results, then the tear downs as they are, then the unknown events as they are. -/
def toValues (b : Buckets) : List Value :=
  b.results.map TestingResult.toEvent ++ b.tearDowns.map Value.object ++ b.unknown.map Value.object

/-- The events of buckets, one kind behind the other. -/
def toEvents (b : Buckets) : List Event :=
  b.results.map .result ++ b.tearDowns.map .tearDown ++ b.unknown.map .unknown

/-- **Each event is in the bucket of its type.** -/
structure Typed (b : Buckets) : Prop where
  tearDowns : ∀ fields ∈ b.tearDowns, typeOf? fields = some tearDownType
  unknown : ∀ fields ∈ b.unknown, ∃ t, typeOf? fields = some t ∧ t ≠ resultType ∧ t ≠ tearDownType

theorem ofEvents_toEvents (b : Buckets) : ofEvents b.toEvents = b := by
  simp [toEvents, ofEvents, List.filterMap_append, List.filterMap_map]

/-- Values that are made one by one are the events that are made one by one. -/
theorem forall₂_means_map {α : Type} {value : α → Value} {event : α → Event} {as : List α}
    (h : ∀ a ∈ as, Means (value a) (event a)) : List.Forall₂ Means (as.map value) (as.map event) := by
  rw [List.forall₂_map_left_iff, List.forall₂_map_right_iff, List.forall₂_same]
  exact h

/-- The values of typed buckets are their events. -/
theorem Typed.means {b : Buckets} (h : b.Typed) : List.Forall₂ Means b.toValues b.toEvents := by
  refine List.rel_append (List.rel_append ?_ ?_) ?_
  · exact forall₂_means_map fun r _ => r.means_toEvent
  · exact forall₂_means_map fun fields hf => .tearDown (h.tearDowns fields hf)
  · refine forall₂_means_map fun fields hf => ?_
    obtain ⟨t, ht, hr, hd⟩ := h.unknown fields hf
    exact .unknown ht hr hd

end Buckets

/-- An event of a log is what one of its values is. -/
theorem exists_means_of_mem {values : List Value} {events : List Event} (h : List.Forall₂ Means values events) :
    ∀ e ∈ events, ∃ v, Means v e := by
  induction h with
  | nil => exact nofun
  | cons hm _ ih => exact List.forall_mem_cons.2 ⟨⟨_, hm⟩, ih⟩

/-- **What a log is read as** has each event in the bucket of its type. -/
theorem typed_of_classify {values : List Value} {b : Buckets} (h : classify values = .ok b) : b.Typed := by
  obtain ⟨events, hevents, rfl⟩ := classify_eq_ok_iff.1 h
  constructor
  · intro fields hf
    obtain ⟨e, he, hkept⟩ := List.mem_filterMap.1 hf
    obtain ⟨v, hv⟩ := exists_means_of_mem hevents e he
    cases hv with
    | tearDown ht => exact Option.some.inj hkept ▸ ht
    | result | unknown => cases hkept
  · intro fields hf
    obtain ⟨e, he, hkept⟩ := List.mem_filterMap.1 hf
    obtain ⟨v, hv⟩ := exists_means_of_mem hevents e he
    cases hv with
    | unknown ht hr hd => exact ⟨_, Option.some.inj hkept ▸ ht, hr, hd⟩
    | result | tearDown => cases hkept

/-- **Typed buckets are read again** from their log. -/
theorem classify_toValues_of_typed {b : Buckets} (h : b.Typed) : classify b.toValues = .ok b :=
  classify_eq_ok_iff.2 ⟨b.toEvents, h.means, b.ofEvents_toEvents⟩

/-- **What is read, written and read again does not change**: the buckets that a log is read as are what their own log
is read as, and every testing result is decoded from what it is written as. -/
theorem classify_toValues {values : List Value} {b : Buckets} (h : classify values = .ok b) :
    classify b.toValues = .ok b ∧ ∀ r : TestingResult, TestingResult.ofValue r.toValue = .ok r :=
  ⟨classify_toValues_of_typed (typed_of_classify h), TestingResult.ofValue_toValue⟩

/-- A log in which an unknown event stands first, a test names its class by null and its run is a list: its buckets as a
log have the testing result first, with the class left out and the run as an object. -/
theorem classify_toValues_rewritten :
    let unknown : Fields Value := [("pid", .ofNat 7), ("eventType", .string "didBeginTest")]
    let test := Value.object [("className", .null), ("methodName", .string "a")]
    let run := Value.list [.bool false, .list [.string "a", .string "c"]]
    let b : Buckets := ⟨[⟨⟨[⟨"a", none⟩]⟩, [⟨false, ⟨"a", some "c"⟩⟩]⟩], [], [unknown]⟩
    classify [.object unknown, .object [("eventType", .string "didObtainTestingResult"), ("testingResult",
      .object [("bucket", .object [("testEntries", .list [test])]), ("unfilteredTestRuns", .list [run])])]] = .ok b ∧
      classify b.toValues = .ok b := by
  intro unknown test run b
  have h : classify [.object unknown, .object [("eventType", .string "didObtainTestingResult"), ("testingResult",
      .object [("bucket", .object [("testEntries", .list [test])]), ("unfilteredTestRuns", .list [run])])]] =
        .ok b := rfl
  exact ⟨h, (classify_toValues h).1⟩

end RunAudit.Event
