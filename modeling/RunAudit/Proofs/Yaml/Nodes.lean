import RunAudit.Proofs.Json.Grammar
import RunAudit.Yaml.Node

/-!
# Nodes that stand for values

`Stands` says how a node stands for a value. Events build nodes wherever they are taken (`Builds`): those between the
start and the end of a collection build its items (`Builds.sequence`, `Builds.mapping`).
-/

namespace RunAudit.Yaml

open RunAudit.Json (Phrase)

/-! ## Nodes for values -/

mutual

/-- **How a node stands for a value**, wherever it was found. -/
inductive Stands : Value → Node → Prop
  | null (m : Mark) : Stands .null (.scalar none "null" .plain m)
  | bool (b : Bool) (m : Mark) : Stands (.bool b) (.scalar none (toString b) .plain m)
  | natural (n : Nat) (m : Mark) : Stands (.ofNat n) (.scalar none (String.ofList (Nat.toDigits 10 n)) .plain m)
  | string (text : String) (m : Mark) : Stands (.string text) (.scalar none text .double m)
  | list {vs : List Value} {ns : List Node} (m : Mark) : StandAll vs ns → Stands (.list vs) (.sequence ns m)
  | object {fields : Fields Value} {entries : List (Node × Node)} (m : Mark) : StandFields fields entries →
      Stands (.object fields) (.mapping entries m)

/-- How nodes stand for items. -/
inductive StandAll : List Value → List Node → Prop
  | nil : StandAll [] []
  | cons {v : Value} {n : Node} {vs : List Value} {ns : List Node} : Stands v n → StandAll vs ns →
      StandAll (v :: vs) (n :: ns)

/-- How pairs of nodes stand for fields. -/
inductive StandFields : Fields Value → List (Node × Node) → Prop
  | nil : StandFields [] []
  | cons {key : String} {v : Value} {n : Node} {fields : Fields Value} {entries : List (Node × Node)} (m : Mark) :
      Stands v n → StandFields fields entries →
      StandFields ((key, v) :: fields) ((.scalar none key .double m, n) :: entries)

end

/-- Keys and values, one after the other. -/
def unpaired (entries : List (Node × Node)) : List Node := entries.flatMap fun e => [e.1, e.2]

/-- The nodes that stand for a phrase. -/
def StandFor : Phrase → List Node → Prop
  | .value v, ns | .element v, ns => ∃ n, ns = [n] ∧ Stands v n
  | .items vs, ns => StandAll vs ns
  | .member key v, ns => ∃ m n, ns = [.scalar none key .double m, n] ∧ Stands v n
  | .members fields, ns => ∃ entries, ns = unpaired entries ∧ StandFields fields entries

/-! ## Building nodes from events -/

namespace Document.Builder

/-- Adds nodes in order. -/
def addAll (b : Builder) (ns : List Node) : Builder := ns.foldl (fun b n => b.add none n) b

/-- Events that add nodes, wherever they are taken. -/
def Builds (events : List Event) (ns : List Node) : Prop :=
  ∀ b more, ∃ count, acceptAll? b (events ++ more) = acceptAll? { b.addAll ns with count := count } more

theorem addAll_of_opened {b : Builder} {o : Open} {rest : List Open} (h : b.opened = o :: rest) (ns : List Node) :
    b.addAll ns = { b with opened := { o with items := ns.reverse ++ o.items } :: rest } := by
  induction ns generalizing b o with
  | nil => simp [addAll, ← h]
  | cons n ns ih =>
    have hadd : b.add none n = { b with opened := { o with items := n :: o.items } :: rest } := by
      simp only [add, h]
    have hnext : (b.add none n).opened = { o with items := n :: o.items } :: rest := by rw [hadd]
    have hrest : b.addAll (n :: ns) = (b.add none n).addAll ns := rfl
    rw [hrest, ih hnext, hadd]
    simp

/-- A node is added whatever the count is. -/
theorem add_of_count (b : Builder) (count : Nat) (n : Node) :
    add { b with count := count } none n = { b.add none n with count := count } := by
  unfold add
  cases b.opened <;> rfl

theorem addAll_of_count (b : Builder) (count : Nat) (ns : List Node) :
    addAll { b with count := count } ns = { b.addAll ns with count := count } := by
  induction ns generalizing b with
  | nil => rfl
  | cons n ns ih =>
    show addAll (add { b with count := count } none n) ns = { (b.add none n).addAll ns with count := count }
    rw [add_of_count, ih]

theorem builds_nil : Builds [] [] := fun b _ => ⟨b.count, rfl⟩

theorem Builds.append {events events' : List Event} {ns ns' : List Node} (h : Builds events ns)
    (h' : Builds events' ns') : Builds (events ++ events') (ns ++ ns') := by
  intro b more
  obtain ⟨count, hfirst⟩ := h b (events' ++ more)
  obtain ⟨count', hsecond⟩ := h' { b.addAll ns with count := count } more
  refine ⟨count', ?_⟩
  rw [List.append_assoc, hfirst, hsecond, addAll_of_count]
  simp [addAll]

@[simp] theorem add_count (b : Builder) (anchor : Option (Nat × Nat)) (n : Node) :
    (b.add anchor n).count = b.count := by
  unfold add
  cases b.opened <;> rfl

theorem builds_scalar (text : String) (style : ScalarStyle) (m : Mark) :
    Builds [.scalar .none text style m] [.scalar none text style m] := by
  intro b more
  refine ⟨b.count + 1, ?_⟩
  have hadd : accept? b (.scalar .none text style m) = some (b.add none (.scalar none text style m)) := rfl
  rw [List.singleton_append, acceptAll?, hadd, addAll]
  simp

/-- What stands between the start and the end of a collection are its items. -/
theorem Builds.collection {events : List Event} {ns : List Node} (h : Builds events ns) {isMapping : Bool} {m : Mark}
    {start stop : Event} (hstart : ∀ b, accept? b start = some (b.enter isMapping .none m))
    (hstop : ∀ b, accept? b stop = some b.leave) :
    Builds (start :: events ++ [stop]) [nodeOf ⟨isMapping, ns.reverse, none, m⟩] := by
  intro b more
  obtain ⟨count, hinner⟩ := h { b.enter isMapping .none m with count := b.count + 1 } (stop :: more)
  refine ⟨count + 1, ?_⟩
  have hopened : ({ b.enter isMapping .none m with count := b.count + 1 } : Builder).opened =
    ⟨isMapping, [], none, m⟩ :: b.opened := rfl
  rw [addAll_of_opened hopened] at hinner
  simp only [List.cons_append, List.append_assoc, List.nil_append, acceptAll?, hstart]
  have hcount : (b.enter isMapping .none m).count = b.count := rfl
  have hleave : leave { b with opened := ⟨isMapping, ns.reverse ++ [], none, m⟩ :: b.opened, count := count } =
      { b.add none (nodeOf ⟨isMapping, ns.reverse, none, m⟩) with count := count } := by
    rw [List.append_nil]
    exact add_of_count b count _
  rw [hcount, hinner, acceptAll?, hstop]
  exact congrArg (fun b : Builder => acceptAll? { b with count := b.count + 1 } more) hleave

theorem Builds.sequence {events : List Event} {ns : List Node} (h : Builds events ns) (m : Mark) :
    Builds (.sequenceStart .none m :: events ++ [.sequenceEnd]) [.sequence ns m] := by
  have hnode : nodeOf ⟨false, ns.reverse, none, m⟩ = .sequence ns m := by simp [nodeOf]
  exact hnode ▸ h.collection (fun _ => rfl) (fun _ => rfl)

theorem pairUp_unpaired (entries after : List (Node × Node)) (rest : List Node) :
    pairUp after ((unpaired entries).reverse ++ rest) = pairUp (entries ++ after) rest := by
  induction entries generalizing rest with
  | nil => rfl
  | cons e entries ih =>
    have hlast : (unpaired (e :: entries)).reverse ++ rest = (unpaired entries).reverse ++ (e.2 :: e.1 :: rest) := by
      simp [unpaired]
    rw [hlast, ih, pairUp, List.cons_append]

theorem Builds.mapping {events : List Event} {entries : List (Node × Node)} (h : Builds events (unpaired entries))
    (m : Mark) : Builds (.mappingStart .none m :: events ++ [.mappingEnd]) [.mapping entries m] := by
  have hnode : nodeOf ⟨true, (unpaired entries).reverse, none, m⟩ = .mapping entries m := by
    have hpairs := pairUp_unpaired entries [] []
    simp only [List.append_nil, pairUp] at hpairs
    simp [nodeOf, hpairs]
  exact hnode ▸ h.collection (fun _ => rfl) (fun _ => rfl)

end Document.Builder

end RunAudit.Yaml
