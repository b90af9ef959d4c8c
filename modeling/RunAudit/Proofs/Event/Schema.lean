import RunAudit.Proofs.Event.Buckets
import RunAudit.Proofs.Json.Keys

/-!
# How testing results are written

Each record of a testing result is written in one of two ways: as an object that has its fields, whatever else it has
and in whatever order, or as a list of its fields in order. `TestEntry.Written`, `Bucket.Written`, `TestRun.Written` and
`TestingResult.Written` say so of each record, and a value is decoded as a record just when it is written as this record
(`TestingResult.ofValue_eq_ok_iff`). So an event that carries a testing result is taken just when it has one that is
written so (`classify_result_iff`), and a list may stand where the names of the fields would suggest an object
(`classify_listed`). All this is about values in which every object has each key once, as it is in all that a log holds
(`keysOnce_of_readLog`).
-/

namespace RunAudit

namespace Event

variable {α β : Type}

/-! ## How each record is written -/

/-- A class that may be left out: by null, or by nothing at all. -/
inductive ClassWritten : Option Value → Option String → Prop
  | absent : ClassWritten none none
  | null : ClassWritten (some .null) none
  | text (c : String) : ClassWritten (some (.string c)) (some c)

/-- **How a test is written.** -/
inductive TestEntry.Written : Value → TestEntry → Prop
  | object {fields : Fields Value} {m : String} {c : Option String} : fields.get? "methodName" = some (.string m) →
      ClassWritten (fields.get? "className") c → Written (.object fields) ⟨m, c⟩
  | list {m : String} {last : Option Value} {c : Option String} : ClassWritten last c →
      Written (.list (.string m :: last.toList)) ⟨m, c⟩

/-- **How the tests of a target are written.** -/
inductive Bucket.Written : Value → Bucket → Prop
  | object {fields : Fields Value} {items : List Value} {entries : List TestEntry} :
      fields.get? "testEntries" = some (.list items) → List.Forall₂ TestEntry.Written items entries →
        Written (.object fields) ⟨entries⟩
  | list {items : List Value} {entries : List TestEntry} : List.Forall₂ TestEntry.Written items entries →
      Written (.list [.list items]) ⟨entries⟩

/-- **How a run is written.** -/
inductive TestRun.Written : Value → TestRun → Prop
  | object {fields : Fields Value} {b : Bool} {v : Value} {e : TestEntry} : fields.get? "succeeded" = some (.bool b) →
      fields.get? "testEntry" = some v → TestEntry.Written v e → Written (.object fields) ⟨b, e⟩
  | list {b : Bool} {v : Value} {e : TestEntry} : TestEntry.Written v e → Written (.list [.bool b, v]) ⟨b, e⟩

/-- **How a testing result is written.** -/
inductive TestingResult.Written : Value → TestingResult → Prop
  | object {fields : Fields Value} {v : Value} {b : Bucket} {items : List Value} {runs : List TestRun} :
      fields.get? "bucket" = some v → Bucket.Written v b → fields.get? "unfilteredTestRuns" = some (.list items) →
        List.Forall₂ TestRun.Written items runs → Written (.object fields) ⟨b, runs⟩
  | list {v : Value} {b : Bucket} {items : List Value} {runs : List TestRun} : Bucket.Written v b →
      List.Forall₂ TestRun.Written items runs → Written (.list [v, .list items]) ⟨b, runs⟩

/-! ## Values that are no records -/

theorem text_eq_ok_iff {v : Value} {s : String} : text v = .ok s ↔ v = .string s := by
  cases v <;> simp [text]

theorem truthValue_eq_ok_iff {v : Value} {b : Bool} : truthValue v = .ok b ↔ v = .bool b := by
  cases v <;> simp [truthValue]

/-- A class is decoded from what is there. -/
theorem optionalText_eq_ok_iff {v : Value} {c : Option String} : optionalText v = .ok c ↔ ClassWritten (some v) c := by
  constructor
  · intro h
    cases v with
    | null => cases h; exact .null
    | string s => cases h; exact .text s
    | bool | number | list | object => cases h
  · intro h
    cases h <;> rfl

/-- **Items are decoded one by one**, each as it is written. -/
theorem list_eq_ok_iff {read : Value → Decoded α} {Written : Value → α → Prop}
    (h : ∀ v, v.KeysOnce → ∀ a, read v = .ok a ↔ Written v a) {v : Value} (hv : v.KeysOnce) {as : List α} :
    list read v = .ok as ↔ ∃ items, v = .list items ∧ List.Forall₂ Written items as := by
  cases hv with
  | @list items hitems =>
    simp only [list, Value.list.injEq, exists_eq_left']
    induction items generalizing as with
    | nil =>
      rw [List.forall₂_nil_left_iff, List.mapM_nil]
      exact ⟨fun h => by cases h; rfl, fun h => by rw [h]; rfl⟩
    | cons w items ih =>
      obtain ⟨hw, hrest⟩ := List.forall_mem_cons.1 hitems
      rw [List.mapM_cons, List.forall₂_cons_left_iff]
      show (read w).bind (fun a => (items.mapM read).bind fun as => .ok (a :: as)) = .ok as ↔ _
      simp only [bind_eq_ok_iff, Except.ok.injEq, h w hw, ih hrest]
      constructor
      · rintro ⟨a, ha, rest, hrest, rfl⟩
        exact ⟨a, rest, ha, hrest, rfl⟩
      · rintro ⟨a, rest, ha, hrest, rfl⟩
        exact ⟨a, ha, rest, hrest, rfl⟩
  | null | bool | number | string | object => simp [list]

/-! ## Fields -/

/-- What is found for a key after fields in which it has an entry or none, besides what was found before. -/
def Finds (read : Value → Decoded α) (entry : Option Value) (before after : Option α) : Prop :=
  match entry with
  | some v => ∃ a, read v = .ok a ∧ after = some a
  | none => after = before

theorem finds_none_iff {read : Value → Decoded α} {entry : Option Value} {a : α} :
    Finds read entry none (some a) ↔ ∃ v, entry = some v ∧ read v = .ok a := by
  cases entry with
  | none => simp [Finds]
  | some v => simp [Finds]

/-- **Two keys are found** in fields that have each key once, in whatever order these stand. -/
theorem twoFields_eq_ok_iff {key₁ key₂ : String} {read₁ : Value → Decoded α} {read₂ : Value → Decoded β}
    (hne : key₁ ≠ key₂) {fields : Fields Value} (h : fields.keys.Nodup) {found₁ a : Option α} {found₂ b : Option β} :
    twoFields key₁ read₁ key₂ read₂ found₁ found₂ fields = .ok (a, b) ↔
      Finds read₁ (fields.get? key₁) found₁ a ∧ Finds read₂ (fields.get? key₂) found₂ b := by
  induction fields generalizing found₁ found₂ with
  | nil =>
    rw [twoFields, Except.ok.injEq, Prod.mk.injEq]
    exact ⟨fun h => ⟨h.1.symm, h.2.symm⟩, fun h => ⟨h.1.symm, h.2.symm⟩⟩
  | cons field rest ih =>
    obtain ⟨key, v⟩ := field
    obtain ⟨hnew, hrest⟩ := List.nodup_cons.1 h
    rw [twoFields]
    by_cases h₁ : key = key₁
    · subst h₁
      rw [if_pos rfl, Fields.get?_cons_self, Fields.get?_cons_of_ne hne]
      cases hread : read₁ v with
      | error f => simp [Finds, hread]
      | ok x =>
        -- the rest has no entry for the key that was found
        rw [ih hrest, Fields.get?_of_not_mem hnew]
        simp [Finds, hread]
    · rw [if_neg h₁, Fields.get?_cons_of_ne h₁]
      by_cases h₂ : key = key₂
      · subst h₂
        rw [if_pos rfl, Fields.get?_cons_self]
        cases hread : read₂ v with
        | error f => simp [Finds, hread]
        | ok x =>
          rw [ih hrest, Fields.get?_of_not_mem hnew]
          simp [Finds, hread]
      · rw [if_neg h₂, Fields.get?_cons_of_ne h₂, ih hrest]

theorem oneField_eq_ok_iff {key : String} {read : Value → Decoded α} {fields : Fields Value} {a : α} :
    oneField key read fields = .ok (some a) ↔ ∃ v, fields.get? key = some v ∧ read v = .ok a := by
  rw [oneField]
  cases fields.get? key with
  | none => simp
  | some v => simp [map_eq_ok_iff]

/-- A class is found, or nothing at all. -/
theorem finds_optionalText_iff {entry : Option Value} {c : Option String} :
    (∃ found, Finds optionalText entry none found ∧ found.join = c) ↔ ClassWritten entry c := by
  cases entry with
  | none =>
    constructor
    · rintro ⟨_, rfl, rfl⟩
      exact .absent
    · intro h
      cases h
      exact ⟨none, rfl, rfl⟩
  | some v =>
    rw [← optionalText_eq_ok_iff]
    constructor
    · rintro ⟨_, ⟨c, hc, rfl⟩, rfl⟩
      exact hc
    · intro hc
      exact ⟨some c, ⟨c, hc, rfl⟩, rfl⟩

theorem required_eq_ok_iff {key : String} {found : Option α} {a : α} : required key found = .ok a ↔ found = some a := by
  cases found <;> simp [required]

/-- **A record of two fields** from an object. -/
theorem object_eq_ok_iff {γ : Type} {key₁ key₂ : String} {read₁ : Value → Decoded α} {read₂ : Value → Decoded β}
    (hne : key₁ ≠ key₂) {fields : Fields Value} (h : fields.keys.Nodup) {make : α → β → γ} {c : γ} :
    ((twoFields key₁ read₁ key₂ read₂ none none fields).bind fun found => (required key₁ found.1).bind fun a =>
      (required key₂ found.2).bind fun b => .ok (make a b)) = .ok c ↔
        ∃ v w a b, fields.get? key₁ = some v ∧ read₁ v = .ok a ∧ fields.get? key₂ = some w ∧ read₂ w = .ok b ∧
          make a b = c := by
  simp only [bind_eq_ok_iff, Prod.exists, twoFields_eq_ok_iff hne h, required_eq_ok_iff, Except.ok.injEq]
  constructor
  · rintro ⟨_, _, ⟨hv, hw⟩, a, rfl, b, rfl, hmake⟩
    obtain ⟨v, hv, ha⟩ := finds_none_iff.1 hv
    obtain ⟨w, hw, hb⟩ := finds_none_iff.1 hw
    exact ⟨v, w, a, b, hv, ha, hw, hb, hmake⟩
  · rintro ⟨v, w, a, b, hv, ha, hw, hb, hmake⟩
    exact ⟨_, _, ⟨finds_none_iff.2 ⟨v, hv, ha⟩, finds_none_iff.2 ⟨w, hw, hb⟩⟩, a, rfl, b, rfl, hmake⟩

/-- **A record of two fields** from a list. -/
theorem items_eq_ok_iff {γ : Type} {read₁ : Value → Decoded α} {read₂ : Value → Decoded β} {expected : String}
    {items : List Value} {make : α → β → γ} {c : γ} :
    ((itemAt items 0 read₁ expected).bind fun a => (itemAt items 1 read₂ expected).bind fun b =>
      (atMost items 2).bind fun _ => .ok (make a b)) = .ok c ↔
        ∃ v w a b, items = [v, w] ∧ read₁ v = .ok a ∧ read₂ w = .ok b ∧ make a b = c := by
  match items with
  | [] => simp [itemAt, Except.bind]
  | [v] => simp [itemAt, bind_eq_ok_iff]
  | [v, w] => simp [itemAt, atMost, bind_eq_ok_iff]
  | v :: w :: x :: rest => simp [itemAt, atMost, bind_eq_ok_iff]

/-! ## Each record is decoded as it is written -/

theorem TestEntry.ofValue_eq_ok_iff {v : Value} (h : v.KeysOnce) {e : TestEntry} :
    TestEntry.ofValue v = .ok e ↔ TestEntry.Written v e := by
  obtain ⟨m, c⟩ := e
  cases h with
  | @object fields hkeys _ =>
    show ((twoFields "methodName" text "className" optionalText none none fields).bind fun found =>
      (required "methodName" found.1).bind fun m => .ok (TestEntry.mk m found.2.join)) = .ok ⟨m, c⟩ ↔ _
    simp only [bind_eq_ok_iff, Prod.exists, twoFields_eq_ok_iff (show "methodName" ≠ "className" by decide) hkeys,
      required_eq_ok_iff, Except.ok.injEq, TestEntry.mk.injEq]
    constructor
    · rintro ⟨_, found, ⟨hm, hfound⟩, _, rfl, rfl, hc⟩
      obtain ⟨v, hv, hm⟩ := finds_none_iff.1 hm
      obtain rfl := text_eq_ok_iff.1 hm
      exact .object hv (finds_optionalText_iff.1 ⟨found, hfound, hc⟩)
    · rintro (⟨hm, hc⟩ | _)
      obtain ⟨found, hfound, hc⟩ := finds_optionalText_iff.2 hc
      exact ⟨some m, found, ⟨finds_none_iff.2 ⟨_, hm, rfl⟩, hfound⟩, m, rfl, rfl, hc⟩
  | @list items _ =>
    show ((itemAt items 0 text expected).bind fun m =>
      (match items[1]? with | some v => optionalText v | none => .ok none).bind fun c =>
        (atMost items 2).bind fun _ => .ok (TestEntry.mk m c)) = .ok ⟨m, c⟩ ↔ _
    constructor
    · match items with
      | [] => exact fun h => by cases h
      | [v] =>
        simp only [bind_eq_ok_iff, Except.ok.injEq, TestEntry.mk.injEq]
        rintro ⟨_, hm, _, hc, _, _, rfl, rfl⟩
        obtain rfl := text_eq_ok_iff.1 hm
        cases hc
        exact @TestEntry.Written.list _ none _ .absent
      | [v, w] =>
        simp only [bind_eq_ok_iff, Except.ok.injEq, TestEntry.mk.injEq]
        rintro ⟨_, hm, _, hc, _, _, rfl, rfl⟩
        obtain rfl := text_eq_ok_iff.1 hm
        exact @TestEntry.Written.list _ (some w) _ (optionalText_eq_ok_iff.1 hc)
      | v :: w :: x :: rest =>
        simp only [bind_eq_ok_iff, Except.ok.injEq, TestEntry.mk.injEq]
        rintro ⟨_, _, _, _, _, hlength, _⟩
        simp [atMost] at hlength
    · rintro (_ | @⟨_, last, _, hc⟩)
      cases last with
      | none => cases hc; rfl
      | some v =>
        have := optionalText_eq_ok_iff.2 hc
        simp [itemAt, this, bind_eq_ok_iff, atMost, text]
  | null | bool | number | string => exact ⟨nofun, nofun⟩

theorem Bucket.ofValue_eq_ok_iff {v : Value} (h : v.KeysOnce) {b : Bucket} :
    Bucket.ofValue v = .ok b ↔ Bucket.Written v b := by
  obtain ⟨entries⟩ := b
  have hentries {w : Value} (hw : w.KeysOnce) : list TestEntry.ofValue w = .ok entries ↔
      ∃ items, w = .list items ∧ List.Forall₂ TestEntry.Written items entries :=
    list_eq_ok_iff (fun _ hv _ => TestEntry.ofValue_eq_ok_iff hv) hw
  cases h with
  | @object fields hkeys hfields =>
    show ((oneField "testEntries" (list TestEntry.ofValue) fields).bind fun found =>
      (required "testEntries" found).bind fun entries => .ok (Bucket.mk entries)) = .ok ⟨entries⟩ ↔ _
    simp only [bind_eq_ok_iff, required_eq_ok_iff, Except.ok.injEq, Bucket.mk.injEq]
    constructor
    · rintro ⟨_, hfound, _, rfl, rfl⟩
      obtain ⟨v, hv, hlist⟩ := oneField_eq_ok_iff.1 hfound
      obtain ⟨items, rfl, hitems⟩ := (hentries (hfields _ (Fields.mem_of_get? hv))).1 hlist
      exact .object hv hitems
    · rintro (⟨hv, hitems⟩ | _)
      refine ⟨some entries, oneField_eq_ok_iff.2 ⟨_, hv, ?_⟩, entries, rfl, rfl⟩
      exact (hentries (hfields _ (Fields.mem_of_get? hv))).2 ⟨_, rfl, hitems⟩
  | @list items hitems =>
    show ((itemAt items 0 (list TestEntry.ofValue) _).bind fun entries => (atMost items 1).bind fun _ =>
      .ok (Bucket.mk entries)) = .ok ⟨entries⟩ ↔ _
    simp only [bind_eq_ok_iff, Except.ok.injEq, Bucket.mk.injEq]
    constructor
    · rintro ⟨_, hread, _, hlength, rfl⟩
      match items with
      | [] => cases hread
      | [v] =>
        obtain ⟨items, rfl, hwritten⟩ := (hentries (hitems v (by simp))).1 hread
        exact .list hwritten
      | _ :: _ :: _ => simp [atMost] at hlength
    · rintro (_ | hwritten)
      exact ⟨entries, (hentries (hitems _ (by simp))).2 ⟨_, rfl, hwritten⟩, (), rfl, rfl⟩
  | null | bool | number | string => exact ⟨nofun, nofun⟩

theorem TestRun.ofValue_eq_ok_iff {v : Value} (h : v.KeysOnce) {r : TestRun} :
    TestRun.ofValue v = .ok r ↔ TestRun.Written v r := by
  cases h with
  | @object fields hkeys hfields =>
    refine (object_eq_ok_iff (by decide) hkeys).trans ⟨?_, ?_⟩
    · rintro ⟨v, w, b, e, hv, hb, hw, he, rfl⟩
      obtain rfl := truthValue_eq_ok_iff.1 hb
      exact .object hv hw ((TestEntry.ofValue_eq_ok_iff (hfields _ (Fields.mem_of_get? hw))).1 he)
    · rintro (⟨hv, hw, he⟩ | _)
      exact ⟨_, _, _, _, hv, rfl, hw, (TestEntry.ofValue_eq_ok_iff (hfields _ (Fields.mem_of_get? hw))).2 he, rfl⟩
  | @list items hitems =>
    refine items_eq_ok_iff.trans ⟨?_, ?_⟩
    · rintro ⟨v, w, b, e, rfl, hb, he, rfl⟩
      obtain rfl := truthValue_eq_ok_iff.1 hb
      exact .list ((TestEntry.ofValue_eq_ok_iff (hitems w (by simp))).1 he)
    · rintro (_ | he)
      exact ⟨_, _, _, _, rfl, rfl, (TestEntry.ofValue_eq_ok_iff (hitems _ (by simp))).2 he, rfl⟩
  | null | bool | number | string => exact ⟨nofun, nofun⟩

/-- **A value is decoded as a testing result** just when it is written as this one. -/
theorem TestingResult.ofValue_eq_ok_iff {v : Value} (h : v.KeysOnce) {r : TestingResult} :
    TestingResult.ofValue v = .ok r ↔ TestingResult.Written v r := by
  obtain ⟨bucket, runs⟩ := r
  have hruns {w : Value} (hw : w.KeysOnce) : list TestRun.ofValue w = .ok runs ↔
      ∃ items, w = .list items ∧ List.Forall₂ TestRun.Written items runs :=
    list_eq_ok_iff (fun _ hv _ => TestRun.ofValue_eq_ok_iff hv) hw
  cases h with
  | @object fields hkeys hfields =>
    refine (object_eq_ok_iff (by decide) hkeys).trans ⟨?_, ?_⟩
    · rintro ⟨v, w, b, rs, hv, hb, hw, hrs, hmake⟩
      cases hmake
      obtain ⟨items, rfl, hitems⟩ := (hruns (hfields _ (Fields.mem_of_get? hw))).1 hrs
      exact .object hv ((Bucket.ofValue_eq_ok_iff (hfields _ (Fields.mem_of_get? hv))).1 hb) hw hitems
    · rintro (⟨hv, hb, hw, hitems⟩ | _)
      exact ⟨_, _, _, _, hv, (Bucket.ofValue_eq_ok_iff (hfields _ (Fields.mem_of_get? hv))).2 hb, hw,
        (hruns (hfields _ (Fields.mem_of_get? hw))).2 ⟨_, rfl, hitems⟩, rfl⟩
  | @list items hvs =>
    refine items_eq_ok_iff.trans ⟨?_, ?_⟩
    · rintro ⟨v, w, b, rs, rfl, hb, hrs, hmake⟩
      cases hmake
      obtain ⟨items, rfl, hitems⟩ := (hruns (hvs w (by simp))).1 hrs
      exact .list ((Bucket.ofValue_eq_ok_iff (hvs v (by simp))).1 hb) hitems
    · rintro (_ | ⟨hb, hitems⟩)
      exact ⟨_, _, _, _, rfl, (Bucket.ofValue_eq_ok_iff (hvs _ (by simp))).2 hb,
        (hruns (hvs _ (by simp))).2 ⟨_, rfl, hitems⟩, rfl⟩
  | null | bool | number | string => exact ⟨nofun, nofun⟩

/-! ## Events with a testing result -/

/-- **An event that is to carry a testing result** is read just when it has one that is written as such. -/
theorem ofValue_eq_ok_iff_written {fields : Fields Value} (hkeys : (Value.object fields).KeysOnce)
    (htype : typeOf? fields = some resultType) {index : Nat} {event : Event} :
    ofValue index (.object fields) = .ok event ↔
      ∃ v r, fields.get? "testingResult" = some v ∧ TestingResult.Written v r ∧ event = .result r := by
  have hfields : ∀ f ∈ fields, f.2.KeysOnce := by
    cases hkeys with
    | object _ hfields => exact hfields
  show ofFields index fields = .ok event ↔ _
  simp only [ofFields, htype, if_pos, resultOf, map_eq_ok_iff]
  constructor
  · rintro ⟨r, hr, rfl⟩
    split at hr
    · cases hr
    · rename_i v hv
      have hdecoded := (TestingResult.ofValue_eq_ok_iff (hfields _ (Fields.mem_of_get? hv))).1 (mapError_eq_ok_iff.1 hr)
      exact ⟨v, r, hv, hdecoded, rfl⟩
  · rintro ⟨v, r, hv, hwritten, rfl⟩
    refine ⟨r, ?_, rfl⟩
    rw [hv]
    exact mapError_eq_ok_iff.2 ((TestingResult.ofValue_eq_ok_iff (hfields _ (Fields.mem_of_get? hv))).2 hwritten)

/-- **In all that a log holds**, every object has each key once. -/
theorem keysOnce_of_readLog {text : String} {values : List Value} (h : readLog text = .ok values) :
    ∀ v ∈ values, v.KeysOnce :=
  Json.keysOnce_of_readList (mapError_eq_ok_iff.1 h)

/-- What a log comes to with one more value in it. -/
theorem classify_insert {before after : List Value} {b b' : Buckets} (hb : classify before = .ok b)
    (ha : classify after = .ok b') (v : Value) : classify (before ++ v :: after) =
      (ofValue before.length v).map fun event => (b.append (.ofEvents [event])).append b' := by
  obtain ⟨events, hevents, rfl⟩ := classify_eq_ok_iff.1 hb
  obtain ⟨events', hevents', rfl⟩ := classify_eq_ok_iff.1 ha
  show (eventsAt 0 (before ++ v :: after)).map _ = _
  rw [eventsAt_append, eventsAt_eq_ok_iff.2 hevents, eventsAt_cons, eventsAt_eq_ok_iff.2 hevents', Nat.zero_add]
  cases ofValue before.length v with
  | error e => rfl
  | ok event =>
    show Except.ok (Buckets.ofEvents (events ++ event :: events')) = _
    rw [← List.singleton_append, ← List.append_assoc, Buckets.ofEvents_append, Buckets.ofEvents_append]
    rfl

/-- **An event that is to carry a testing result** is taken, wherever it stands in a log, just when it has one that is
written as such, and it is then classified as this one. -/
theorem classify_result_iff {fields : Fields Value} (hkeys : (Value.object fields).KeysOnce)
    (htype : fields.get? "eventType" = some (.string "didObtainTestingResult")) :
    (∀ index event, ofValue index (.object fields) = .ok event ↔
      ∃ v r, fields.get? "testingResult" = some v ∧ TestingResult.Written v r ∧ event = .result r) ∧
      ∀ before after b b' c, classify before = .ok b → classify after = .ok b' →
        (classify (before ++ .object fields :: after) = .ok c ↔
          ∃ v r, fields.get? "testingResult" = some v ∧ TestingResult.Written v r ∧
            c = (b.append ⟨[r], [], []⟩).append b') := by
  have hread {index : Nat} {event : Event} := @ofValue_eq_ok_iff_written fields hkeys (typeOf?_eq_some_iff.2 htype)
    index event
  refine ⟨fun _ _ => hread, fun before after b b' c hb ha => ?_⟩
  rw [classify_insert hb ha, map_eq_ok_iff]
  constructor
  · rintro ⟨event, hevent, rfl⟩
    obtain ⟨v, r, hv, hwritten, rfl⟩ := hread.1 hevent
    exact ⟨v, r, hv, hwritten, rfl⟩
  · rintro ⟨v, r, hv, hwritten, rfl⟩
    exact ⟨.result r, hread.2 ⟨v, r, hv, hwritten, rfl⟩, rfl⟩

/-- An event with more fields than are asked for, in whose testing result a test is written as an object and its run as
a list. -/
theorem classify_result_iff_mixed :
    let test := Value.object [("target", .null), ("methodName", .string "a"), ("className", .null)]
    let run := Value.list [.bool true, .list [.string "a", .string "c"]]
    classify [.object [("testingResult", .object [("unfilteredTestRuns", .list [run]),
      ("bucket", .object [("testEntries", .list [test])])]), ("eventType", .string "didObtainTestingResult")]] =
        .ok ⟨[⟨⟨[⟨"a", none⟩]⟩, [⟨true, ⟨"a", some "c"⟩⟩]⟩], [], []⟩ := by
  intro test run
  have htest : test.KeysOnce := .object (by decide) <| by
    simp only [List.forall_mem_cons]
    exact ⟨.null, .string _, .null, nofun⟩
  have hentry : (Value.list [.string "a", .string "c"]).KeysOnce := .list <| by
    simp only [List.forall_mem_cons]
    exact ⟨.string _, .string _, nofun⟩
  have hrun : run.KeysOnce := .list <| by
    simp only [List.forall_mem_cons]
    exact ⟨.bool _, hentry, nofun⟩
  have hbucket : (Value.object [("testEntries", .list [test])]).KeysOnce := .object (by decide) <| by
    simp only [List.forall_mem_cons]
    exact ⟨.list (List.forall_mem_singleton.2 htest), nofun⟩
  have hresult : (Value.object [("unfilteredTestRuns", .list [run]),
      ("bucket", .object [("testEntries", .list [test])])]).KeysOnce := .object (by decide) <| by
    simp only [List.forall_mem_cons]
    exact ⟨.list (List.forall_mem_singleton.2 hrun), hbucket, nofun⟩
  have hevent : (Value.object [("testingResult", .object [("unfilteredTestRuns", .list [run]),
      ("bucket", .object [("testEntries", .list [test])])]),
      ("eventType", .string "didObtainTestingResult")]).KeysOnce := .object (by decide) <| by
    simp only [List.forall_mem_cons]
    exact ⟨hresult, .string _, nofun⟩
  have hwritten : List.Forall₂ TestEntry.Written [test] [⟨"a", none⟩] := .cons (.object rfl .null) .nil
  have hruns : List.Forall₂ TestRun.Written [run] [⟨true, ⟨"a", some "c"⟩⟩] :=
    .cons (.list (@TestEntry.Written.list _ (some (.string "c")) _ (.text "c"))) .nil
  exact ((classify_result_iff hevent rfl).2 [] [] ⟨[], [], []⟩ ⟨[], [], []⟩ _ rfl rfl).2
    ⟨_, _, rfl, .object rfl (.object rfl hwritten) rfl hruns, rfl⟩

/-- **A list in place of an object** is taken as a testing result. -/
theorem classify_listed :
    let listed := Value.list [.list [.list []], .list []]
    (∀ fields, listed ≠ .object fields) ∧
      classify [.object [("eventType", .string "didObtainTestingResult"), ("testingResult", listed)]] =
        .ok ⟨[⟨⟨[]⟩, []⟩], [], []⟩ := by
  refine ⟨nofun, rfl⟩

end Event

end RunAudit
