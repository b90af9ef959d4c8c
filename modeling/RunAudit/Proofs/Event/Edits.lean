import Mathlib.Logic.Relation
import RunAudit.Check.PluginOutput
import RunAudit.Event.Summary
import RunAudit.Proofs.Event.Schema

/-!
# Edits that do not matter

A `Shape` tells which fields a record has, at every level of a value. An `Edit` of a value changes nothing that its
shape names: at one level it puts in a field of a key that is not named there, whatever its value, or rearranges the
fields. What the edited value has for the keys of a record is what it had, edited at most (`Edit.of_object`,
`Edit.of_list`). So a value that is written as a record still is after an edit (`TestingResult.keeps`), an event that
carries a testing result still carries it (`means_of_edit`), and a log that is edited in such events, as often as one
likes, is read as the same buckets (`classify_edits`).
-/

namespace RunAudit.Event

open Relation (ReflGen ReflTransGen)

/-- **The shape of a value**: what is taken as it is, a list of items of one shape, or a record of named fields. -/
inductive Shape where
  | leaf
  | list (item : Shape)
  | record (slots : List (String × Shape))

/-- **An edit that a shape does not see.** At the level of a record, a field of another key is put in, or the fields
are rearranged; deeper, the entry of a named key is edited, or an item. A record may also be a list of its entries. -/
inductive Edit : Shape → Value → Value → Prop
  | put {slots : Fields Shape} {fields : Fields Value} {key : String} {v : Value} : key ∉ slots.keys → v.KeysOnce →
      Edit (.record slots) (.object fields) (.object (fields.put key v))
  | rearrange {slots : Fields Shape} {fields fields' : Fields Value} : fields'.Perm fields →
      Edit (.record slots) (.object fields) (.object fields')
  | field {slots : Fields Shape} {before after : Fields Value} {key : String} {s : Shape} {v w : Value} :
      slots.get? key = some s → Edit s v w →
        Edit (.record slots) (.object (before ++ (key, v) :: after)) (.object (before ++ (key, w) :: after))
  | place {slots : Fields Shape} {before after : List Value} {key : String} {s : Shape} {v w : Value} :
      slots[before.length]? = some (key, s) → Edit s v w →
        Edit (.record slots) (.list (before ++ v :: after)) (.list (before ++ w :: after))
  | item {s : Shape} {before after : List Value} {v w : Value} : Edit s v w →
      Edit (.list s) (.list (before ++ v :: after)) (.list (before ++ w :: after))

/-! ## One item in the place of another -/

section Replace

variable {α β : Type} {before after : List α} {v w : α}

theorem forall_mem_replace {p : α → Prop} (h : p v → p w) (hall : ∀ a ∈ before ++ v :: after, p a) :
    ∀ a ∈ before ++ w :: after, p a := by
  rw [List.forall_mem_append, List.forall_mem_cons] at hall ⊢
  exact ⟨hall.1, h hall.2.1, hall.2.2⟩

theorem forall₂_replace {R : α → β → Prop} (h : ∀ b, R v b → R w b) {bs : List β}
    (hall : List.Forall₂ R (before ++ v :: after) bs) : List.Forall₂ R (before ++ w :: after) bs := by
  induction before generalizing bs with
  | nil =>
    obtain ⟨b, rest, hb, hrest, rfl⟩ := List.forall₂_cons_left_iff.1 hall
    exact .cons (h b hb) hrest
  | cons u before ih =>
    obtain ⟨b, rest, hb, hrest, rfl⟩ := List.forall₂_cons_left_iff.1 hall
    exact .cons hb (ih hrest)

end Replace

/-! ## What an edit leaves -/

namespace Edit

/-- What is taken as it is cannot be edited. -/
theorem eq_of_leaf {v w : Value} (h : ReflGen (Edit .leaf) v w) : w = v := by
  cases h with
  | refl => rfl
  | single h => cases h

/-- What is not edited. -/
theorem rel_refl {s : Shape} : ∀ entry : Option Value, Option.Rel (ReflGen (Edit s)) entry entry
  | none => .none
  | some _ => .some .refl

/-- **An edit leaves each key of an object once.** -/
theorem keysOnce {s : Shape} {v w : Value} (h : Edit s v w) (hv : v.KeysOnce) : w.KeysOnce := by
  induction h with
  | put _ hnew => exact hv.put hnew _
  | rearrange hp =>
    cases hv with
    | object hkeys hfields => exact .object ((hp.map _).nodup_iff.2 hkeys) fun f hf => hfields f (hp.mem_iff.1 hf)
  | field _ _ ih =>
    cases hv with
    | object hkeys hfields =>
      rw [Fields.keys, List.map_append, List.map_cons] at hkeys
      exact .object (by rwa [Fields.keys, List.map_append, List.map_cons]) (forall_mem_replace ih hfields)
  | place _ _ ih | item _ ih =>
    cases hv with
    | list hitems => exact .list (forall_mem_replace ih hitems)

/-- **What an edited object has** for the keys that are named: what it had, edited at most. -/
theorem of_object {slots : Fields Shape} {fields : Fields Value} {w : Value}
    (h : Edit (.record slots) (.object fields) w) (hkeys : fields.keys.Nodup) :
    ∃ fields' : Fields Value, w = .object fields' ∧ ∀ key s, slots.get? key = some s →
      Option.Rel (ReflGen (Edit s)) (fields.get? key) (fields'.get? key) := by
  generalize hv : Value.object fields = v at h
  cases h with
  | @put _ fields key v hkey _ =>
    cases hv
    refine ⟨_, rfl, fun k s hs => ?_⟩
    have hne : key ≠ k := by
      rintro rfl
      exact hkey (Fields.mem_keys_iff.2 (by rw [← Fields.isSome_get?, hs]; rfl))
    rw [Fields.get?_put, if_neg hne]
    exact rel_refl _
  | rearrange hp =>
    cases hv
    refine ⟨_, rfl, fun k s _ => ?_⟩
    rw [Fields.get?_perm hp hkeys]
    exact rel_refl _
  | @field _ before after key s v w hs he =>
    cases hv
    have hkeys' : (Fields.keys (before ++ (key, w) :: after)).Nodup := by
      rw [Fields.keys, List.map_append, List.map_cons] at hkeys ⊢
      exact hkeys
    refine ⟨_, rfl, fun k s' hs' => ?_⟩
    by_cases hk : key = k
    · subst hk
      obtain rfl := Option.some.inj (hs.symm.trans hs')
      rw [Fields.get?_of_mem hkeys (List.mem_append_right _ List.mem_cons_self),
        Fields.get?_of_mem hkeys' (List.mem_append_right _ List.mem_cons_self)]
      exact .some (.single he)
    · have hother : Fields.get? (before ++ (key, w) :: after) k = Fields.get? (before ++ (key, v) :: after) k := by
        simp [Fields.get?, hk]
      rw [hother]
      exact rel_refl _
  | place => cases hv

/-- **What an edited list of entries has** at the places that are named: what it had, edited at most. -/
theorem of_list {slots : Fields Shape} {items : List Value} {w : Value} (h : Edit (.record slots) (.list items) w) :
    ∃ items' : List Value, w = .list items' ∧ items'.length = items.length ∧ ∀ (i : Nat) key s,
      slots[i]? = some (key, s) → Option.Rel (ReflGen (Edit s)) items[i]? items'[i]? := by
  generalize hv : Value.list items = v at h
  cases h with
  | @place _ before after key s v w hs he =>
    cases hv
    refine ⟨_, rfl, by simp, fun i key' s' hs' => ?_⟩
    have hset : before ++ w :: after = (before ++ v :: after).set before.length w := by simp
    rw [hset, List.getElem?_set]
    split
    · rename_i hi
      subst hi
      obtain ⟨rfl, rfl⟩ := Prod.mk.inj (Option.some.inj (hs.symm.trans hs'))
      simpa using Option.Rel.some (ReflGen.single he)
    · exact rel_refl _
  | put | rearrange | field => cases hv

/-- An edited list of one entry. -/
theorem of_single {slots : Fields Shape} {key : String} {s : Shape} {v w : Value}
    (h : Edit (.record ((key, s) :: slots)) (.list [v]) w) : ∃ v', w = .list [v'] ∧ ReflGen (Edit s) v v' := by
  obtain ⟨items, rfl, hlength, hsame⟩ := h.of_list
  obtain ⟨v', rfl⟩ := List.length_eq_one_iff.1 hlength
  exact ⟨v', rfl, Option.rel_some_some.1 (hsame 0 _ _ rfl)⟩

/-- An edited list of two entries. -/
theorem of_pair {slots : Fields Shape} {key₁ key₂ : String} {s₁ s₂ : Shape} {v₁ v₂ w : Value}
    (h : Edit (.record ((key₁, s₁) :: (key₂, s₂) :: slots)) (.list [v₁, v₂]) w) :
    ∃ w₁ w₂, w = .list [w₁, w₂] ∧ ReflGen (Edit s₁) v₁ w₁ ∧ ReflGen (Edit s₂) v₂ w₂ := by
  obtain ⟨items, rfl, hlength, hsame⟩ := h.of_list
  obtain ⟨w₁, w₂, rfl⟩ := List.length_eq_two.1 hlength
  exact ⟨w₁, w₂, rfl, Option.rel_some_some.1 (hsame 0 _ _ rfl), Option.rel_some_some.1 (hsame 1 _ _ rfl)⟩

end Edit

/-! ## Records are still written as they were -/

variable {α : Type} {s : Shape} {Written : Value → α → Prop}

/-- **Edits keep what a value is written as.** -/
def Keeps (s : Shape) (Written : Value → α → Prop) : Prop :=
  ∀ ⦃v w : Value⦄ ⦃a : α⦄, v.KeysOnce → Edit s v w → Written v a → Written w a

/-- A value that is edited at most. -/
theorem Keeps.reflGen (h : Keeps s Written) {v w : Value} {a : α} (hv : v.KeysOnce) (he : ReflGen (Edit s) v w)
    (ha : Written v a) : Written w a := by
  cases he with
  | refl => exact ha
  | single he => exact h hv he ha

/-- **Items are kept** where each item is. -/
theorem Keeps.list (h : Keeps s Written) :
    Keeps (.list s) fun v (as : List α) => ∃ items, v = .list items ∧ List.Forall₂ Written items as := by
  rintro v w as hv he ⟨items, rfl, hitems⟩
  generalize hl : Value.list items = v at he
  cases he with
  | @item _ before after v w he =>
    cases hl
    cases hv with
    | list hkeys =>
      have hv : v.KeysOnce := hkeys v (by simp)
      exact ⟨_, rfl, forall₂_replace (fun a ha => h hv he ha) hitems⟩

/-- What tests are decoded from. -/
def TestEntry.shape : Shape := .record [("methodName", .leaf), ("className", .leaf)]

/-- What the tests of a target are decoded from. -/
def Bucket.shape : Shape := .record [("testEntries", .list TestEntry.shape)]

/-- What runs are decoded from. -/
def TestRun.shape : Shape := .record [("succeeded", .leaf), ("testEntry", TestEntry.shape)]

/-- What testing results are decoded from. -/
def TestingResult.shape : Shape :=
  .record [("bucket", Bucket.shape), ("unfilteredTestRuns", .list TestRun.shape)]

/-- What events with a testing result are read from. -/
def resultShape : Shape := .record [("eventType", .leaf), ("testingResult", TestingResult.shape)]

/-- A key that is taken as it is has what it had. -/
theorem eq_of_rel_leaf {entry entry' : Option Value} (h : Option.Rel (ReflGen (Edit .leaf)) entry entry') :
    entry' = entry := by
  cases h with
  | none => rfl
  | some h => rw [Edit.eq_of_leaf h]

/-- A key that has an entry still has one, edited at most. -/
theorem exists_of_rel {entry' : Option Value} {v : Value} (h : Option.Rel (ReflGen (Edit s)) (some v) entry') :
    ∃ w, entry' = some w ∧ ReflGen (Edit s) v w := by
  cases h with
  | some h => exact ⟨_, rfl, h⟩

theorem TestEntry.keeps : Keeps TestEntry.shape TestEntry.Written := by
  intro v w e hv he hwritten
  cases hwritten with
  | @object fields m c hm hc =>
    cases hv with
    | object hkeys _ =>
      obtain ⟨fields', rfl, hsame⟩ := he.of_object hkeys
      have hmethod := eq_of_rel_leaf (hsame "methodName" .leaf rfl)
      have hclass := eq_of_rel_leaf (hsame "className" .leaf rfl)
      exact .object (hmethod.trans hm) (hclass ▸ hc)
  | @list m last c hc =>
    cases last with
    | none =>
      obtain ⟨m', rfl, hm⟩ := he.of_single
      obtain rfl := Edit.eq_of_leaf hm
      exact .list hc
    | some v =>
      obtain ⟨m', v', rfl, hm, hv⟩ := he.of_pair
      obtain rfl := Edit.eq_of_leaf hm
      obtain rfl := Edit.eq_of_leaf hv
      exact .list hc

theorem Bucket.keeps : Keeps Bucket.shape Bucket.Written := by
  intro v w b hv he hwritten
  have hentries := TestEntry.keeps.list
  cases hwritten with
  | @object fields items entries htests hitems =>
    cases hv with
    | object hkeys hfields =>
      obtain ⟨fields', rfl, hsame⟩ := he.of_object hkeys
      obtain ⟨v', hv', hedit⟩ := exists_of_rel (htests ▸ hsame "testEntries" _ rfl)
      obtain ⟨items', rfl, hitems'⟩ := hentries.reflGen (hfields _ (Fields.mem_of_get? htests)) hedit ⟨_, rfl, hitems⟩
      exact .object hv' hitems'
  | @list items entries hitems =>
    cases hv with
    | list hkeys =>
      obtain ⟨v', rfl, hedit⟩ := he.of_single
      obtain ⟨items', rfl, hitems'⟩ := hentries.reflGen (hkeys _ (by simp)) hedit ⟨_, rfl, hitems⟩
      exact .list hitems'

theorem TestRun.keeps : Keeps TestRun.shape TestRun.Written := by
  intro v w r hv he hwritten
  cases hwritten with
  | @object fields b entry e hb hentry hwritten =>
    cases hv with
    | object hkeys hfields =>
      obtain ⟨fields', rfl, hsame⟩ := he.of_object hkeys
      have hb' := eq_of_rel_leaf (hsame "succeeded" .leaf rfl)
      obtain ⟨entry', hentry', hedit⟩ := exists_of_rel (hentry ▸ hsame "testEntry" _ rfl)
      exact .object (hb'.trans hb) hentry'
        (TestEntry.keeps.reflGen (hfields _ (Fields.mem_of_get? hentry)) hedit hwritten)
  | @list b entry e hwritten =>
    cases hv with
    | list hkeys =>
      obtain ⟨b', entry', rfl, hb, hedit⟩ := he.of_pair
      obtain rfl := Edit.eq_of_leaf hb
      exact .list (TestEntry.keeps.reflGen (hkeys _ (by simp)) hedit hwritten)

/-- **A testing result is written** as it was, whatever edits its shape does not see. -/
theorem TestingResult.keeps : Keeps TestingResult.shape TestingResult.Written := by
  intro v w r hv he hwritten
  have hlist := TestRun.keeps.list
  cases hwritten with
  | @object fields bucket b items runs hbucket hb hruns hitems =>
    cases hv with
    | object hkeys hfields =>
      obtain ⟨fields', rfl, hsame⟩ := he.of_object hkeys
      obtain ⟨bucket', hbucket', hedit⟩ := exists_of_rel (hbucket ▸ hsame "bucket" _ rfl)
      obtain ⟨runs', hruns', hedits⟩ := exists_of_rel (hruns ▸ hsame "unfilteredTestRuns" _ rfl)
      have hb' := Bucket.keeps.reflGen (hfields _ (Fields.mem_of_get? hbucket)) hedit hb
      obtain ⟨items', rfl, hitems'⟩ := hlist.reflGen (hfields _ (Fields.mem_of_get? hruns)) hedits ⟨_, rfl, hitems⟩
      exact .object hbucket' hb' hruns' hitems'
  | @list bucket b items runs hb hitems =>
    cases hv with
    | list hkeys =>
      obtain ⟨bucket', runs', rfl, hedit, hedits⟩ := he.of_pair
      have hb' := Bucket.keeps.reflGen (hkeys _ (by simp)) hedit hb
      obtain ⟨items', rfl, hitems'⟩ := hlist.reflGen (hkeys _ (by simp)) hedits ⟨_, rfl, hitems⟩
      exact .list hb' hitems'

/-! ## Logs -/

/-- **An event with a testing result** is this event after an edit that its shape does not see. -/
theorem means_of_edit {v w : Value} {e : Event} (hv : v.KeysOnce) (htype : typeNamed? v = some resultType)
    (he : Edit resultShape v w) (h : Means v e) : Means w e := by
  cases hv with
  | @object fields hkeys hfields =>
    obtain ⟨fields', rfl, hsame⟩ := he.of_object hkeys
    have hevent := ofValue_of_means h 0
    obtain ⟨t, r, ht, hr, rfl⟩ := (ofValue_eq_ok_iff_written (.object hkeys hfields) htype).1 hevent
    have htype' : Fields.get? fields' "eventType" = some (.string resultType) :=
      (eq_of_rel_leaf (hsame "eventType" .leaf rfl)).trans (typeOf?_eq_some_iff.1 htype)
    obtain ⟨t', ht', hedit⟩ := exists_of_rel (ht ▸ hsame "testingResult" _ rfl)
    have hr' := TestingResult.keeps.reflGen (hfields _ (Fields.mem_of_get? ht)) hedit hr
    have hevent' : ofValue 0 (.object fields') = .ok (.result r) :=
      (ofValue_eq_ok_iff_written (he.keysOnce (.object hkeys hfields)) (typeOf?_eq_some_iff.2 htype')).2
        ⟨t', r, ht', hr', rfl⟩
    exact means_of_ofValue hevent'
  | null | bool | number | string | list => cases htype

/-- **An edit of a log**: of one event that carries a testing result. -/
inductive LogEdit : List Value → List Value → Prop
  | result {before after : List Value} {v w : Value} : typeNamed? v = some resultType → Edit resultShape v w →
      LogEdit (before ++ v :: after) (before ++ w :: after)

/-- An edit leaves the keys of a log's objects and the events that its values are. -/
theorem LogEdit.keeps {values values' : List Value} (h : LogEdit values values') (hkeys : ∀ v ∈ values, v.KeysOnce)
    {events : List Event} (hevents : List.Forall₂ Means values events) :
    (∀ v ∈ values', v.KeysOnce) ∧ List.Forall₂ Means values' events := by
  obtain @⟨before, after, v, w, htype, he⟩ := h
  have hv : v.KeysOnce := hkeys v (by simp)
  exact ⟨forall_mem_replace he.keysOnce hkeys, forall₂_replace (fun e hm => means_of_edit hv htype he hm) hevents⟩

/-- Edits one after another leave what a log is read as. -/
theorem classify_of_edits {values values' : List Value} (h : ReflTransGen LogEdit values values')
    (hkeys : ∀ v ∈ values, v.KeysOnce) {b : Buckets} (hb : classify values = .ok b) :
    (∀ v ∈ values', v.KeysOnce) ∧ classify values' = .ok b := by
  obtain ⟨events, hevents, rfl⟩ := classify_eq_ok_iff.1 hb
  have hkept : (∀ v ∈ values', v.KeysOnce) ∧ List.Forall₂ Means values' events := by
    induction h with
    | refl => exact ⟨hkeys, hevents⟩
    | tail _ hedit ih => exact hedit.keeps ih.1 ih.2
  exact ⟨hkept.1, classify_eq_ok_iff.2 ⟨events, hkept.2, rfl⟩⟩

/-- **Edits that the shape of testing results does not see do not matter**: a log that is read as buckets is read as
the same buckets after any number of them, so each comparison with what is expected comes out the same and the summary
is the same. -/
theorem classify_edits {values values' : List Value} (hkeys : ∀ v ∈ values, v.KeysOnce)
    (h : ReflTransGen LogEdit values values') {b : Buckets} (hb : classify values = .ok b) :
    classify values' = .ok b ∧
      (∀ expected : PluginExpectations,
        ((classify values').bind fun c => Check.compareResults c expected) = Check.compareResults b expected ∧
        ((classify values').bind fun c => Check.compareTearDowns c expected) = Check.compareTearDowns b expected ∧
        ((classify values').bind fun c => Check.compareUnknown c expected) = Check.compareUnknown b expected) ∧
      (classify values').map Summary.ofBuckets = .ok (.ofBuckets b) := by
  have hb' := (classify_of_edits h hkeys hb).2
  rw [hb']
  exact ⟨rfl, fun _ => ⟨rfl, rfl, rfl⟩, rfl⟩

/-- A test that is given a `succeeded` as if it were a run, a run that is given a `methodName` as if it were a test, and
an event whose fields change places: the log is read as before. -/
theorem classify_edits_misplaced :
    let test : Fields Value := [("methodName", .string "a")]
    let run : Fields Value := [("succeeded", .bool true), ("testEntry", .object test)]
    let test' : Fields Value := [("methodName", .string "a"), ("succeeded", .bool false)]
    let run' : Fields Value := run ++ [("methodName", .string "b")]
    let result (test run : Fields Value) : Value :=
      .object [("bucket", .object [("testEntries", .list [.object test])]), ("unfilteredTestRuns", .list [.object run])]
    let type : String × Value := ("eventType", .string "didObtainTestingResult")
    let b : Buckets := ⟨[⟨⟨[⟨"a", none⟩]⟩, [⟨true, ⟨"a", none⟩⟩]⟩], [], []⟩
    classify [.object [type, ("testingResult", result test run)]] = .ok b ∧
      classify [.object [("testingResult", result test' run'), type]] = .ok b := by
  intro test run test' run' result type b
  have htest : (Value.object test).KeysOnce := .object (by decide) <| by
    simp only [test, List.forall_mem_cons]
    exact ⟨.string _, nofun⟩
  have hrun : (Value.object run).KeysOnce := .object (by decide) <| by
    simp only [run, List.forall_mem_cons]
    exact ⟨.bool _, htest, nofun⟩
  have hbucket : (Value.object [("testEntries", .list [.object test])]).KeysOnce := .object (by decide) <| by
    simp only [List.forall_mem_cons]
    exact ⟨.list (List.forall_mem_singleton.2 htest), nofun⟩
  have hresult : (result test run).KeysOnce := .object (by decide) <| by
    simp only [List.forall_mem_cons]
    exact ⟨hbucket, .list (List.forall_mem_singleton.2 hrun), nofun⟩
  have hevent : (Value.object [type, ("testingResult", result test run)]).KeysOnce := .object (by decide) <| by
    simp only [List.forall_mem_cons]
    exact ⟨.string _, hresult, nofun⟩
  have inTest : Edit TestEntry.shape (.object test) (.object test') :=
    @Edit.put _ test "succeeded" _ (by decide) (.bool _)
  have inBucket : Edit Bucket.shape (.object [("testEntries", .list [.object test])])
      (.object [("testEntries", .list [.object test'])]) :=
    @Edit.field _ [] [] _ _ _ _ rfl (@Edit.item _ [] [] _ _ inTest)
  have inRun : Edit TestRun.shape (.object run) (.object run') :=
    @Edit.put _ run "methodName" _ (by decide) (.string _)
  have first : LogEdit [.object [type, ("testingResult", result test run)]]
      [.object [type, ("testingResult", result test' run)]] :=
    @LogEdit.result [] [] _ _ rfl (@Edit.field _ [type] [] _ _ _ _ rfl (@Edit.field _ [] [_] _ _ _ _ rfl inBucket))
  have second : LogEdit [.object [type, ("testingResult", result test' run)]]
      [.object [type, ("testingResult", result test' run')]] :=
    @LogEdit.result [] [] _ _ rfl (@Edit.field _ [type] [] _ _ _ _ rfl
      (@Edit.field _ [_] [] _ _ _ _ rfl (@Edit.item _ [] [] _ _ inRun)))
  have third : LogEdit [.object [type, ("testingResult", result test' run')]]
      [.object [("testingResult", result test' run'), type]] :=
    @LogEdit.result [] [] _ _ rfl (.rearrange (.swap _ _ _))
  have hb : classify [.object [type, ("testingResult", result test run)]] = .ok b := rfl
  have edits := ((ReflTransGen.single first).tail second).tail third
  exact ⟨hb, (classify_edits (List.forall_mem_singleton.2 hevent) edits hb).1⟩

end RunAudit.Event
