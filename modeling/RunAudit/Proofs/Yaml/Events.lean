import RunAudit.Proofs.Yaml.Nodes
import RunAudit.Proofs.Yaml.Scanning

/-!
# The nodes of a portable document

The tokens of a phrase are read as events, in at most twice as many steps (`Moves`, `Reads`), and these build the nodes
that stand for what the phrase writes (`reads_of_lexed`). So a portable document has a root that stands for its object
(`ofText?_of_portable`).
-/

namespace RunAudit.Yaml

open RunAudit.Json (Phrase)

namespace Event

variable {handles : Handles}

/-- Steps from goals and tokens to others, and the events that are read on the way. -/
def Moves (handles : Handles) (count : Nat) (goals : List Goal) (tokens : List Token) (events : List Event)
    (goals' : List Goal) (tokens' : List Token) : Prop :=
  ∀ read fuel, run handles goals read tokens (fuel + count) = run handles goals' (events.reverse ++ read) tokens' fuel

theorem moves_step {goal : Goal} {new : List Goal} {tokens tokens' : List Token} {events : List Event}
    (h : step handles goal tokens = some (new, events, tokens')) (goals : List Goal) :
    Moves handles 1 (goal :: goals) tokens events (new ++ goals) tokens' := by
  intro read fuel
  simp only [run, h]

theorem Moves.trans {count count' : Nat} {goals goals' goals'' : List Goal} {tokens tokens' tokens'' : List Token}
    {events events' : List Event} (h : Moves handles count goals tokens events goals' tokens')
    (h' : Moves handles count' goals' tokens' events' goals'' tokens'') :
    Moves handles (count' + count) goals tokens (events ++ events') goals'' tokens'' := by
  intro read fuel
  rw [← Nat.add_assoc, h, h', List.reverse_append, List.append_assoc]

/-- One node is read, in fewer steps than twice its tokens. -/
def ReadsOne (handles : Handles) (ts : List Token) (events : List Event) : Prop :=
  ∃ count, count < 2 * ts.length ∧ ∀ block indentless goals rest,
    Moves handles count (.node block indentless :: goals) (ts ++ rest) events goals rest

/-- What stands before entries: a comma, unless they are the first. -/
def Comma (first : Bool) (before : List Token) : Prop :=
  first = true ∧ before = [] ∨ ∃ start stop, first = false ∧ before = [⟨.flowEntry, start, stop⟩]

/-- Entries of a collection are read, in at most twice as many steps as they have tokens. -/
def ReadsMany (handles : Handles) (goal : Bool → Goal) (ts : List Token) (events : List Event) : Prop :=
  ∃ count, count ≤ 2 * ts.length ∧ ∀ first before goals rest, Comma first before →
    Moves handles count (goal first :: goals) (before ++ (ts ++ rest)) events (goal false :: goals) rest

/-- How the tokens of a phrase are read. -/
def Reads (handles : Handles) : Phrase → List Token → List Event → Prop
  | .value _ | .element _ => ReadsOne handles
  | .items _ => ReadsMany handles .flowEntries
  | .member _ _ | .members _ => ReadsMany handles .flowKeys

/-- Whether a token begins a node between brackets. -/
def Begins (l : Lexeme) : Prop :=
  (∃ text style, l = .scalar text style) ∨ l = .flowSequenceStart ∨ l = .flowMappingStart

theorem begins_of_lexed {p : Phrase} {ls : List Lexeme} (h : Lexed p ls) (hp : Scanner.beginsWithKey p = false) :
    ∃ l ls', ls = l :: ls' ∧ Begins l := by
  induction h with
  | null | true | false | natural | string => exact ⟨_, _, rfl, .inl ⟨_, _, rfl⟩⟩
  | emptyList | list => exact ⟨_, _, rfl, .inr (.inl rfl)⟩
  | emptyObject | object => exact ⟨_, _, rfl, .inr (.inr rfl)⟩
  | element _ ih | item _ ih => exact ih rfl
  | items _ _ ih _ =>
    obtain ⟨l, ls', rfl, hbegins⟩ := ih rfl
    exact ⟨l, _, rfl, hbegins⟩
  | member | field | fields => cases hp

theorem readsOne_scalar (text : String) (style : ScalarStyle) (start stop : Mark) :
    ReadsOne handles [⟨.scalar text style, start, stop⟩] [.scalar .none text style start] :=
  ⟨1, by simp, fun _ _ goals _ => @moves_step handles _ [] _ _ _ rfl goals⟩

section Entries

variable {ts ts' : List Token} {events events' : List Event} {goal : Bool → Goal}

theorem ReadsOne.item (h : ReadsOne handles ts events) {t : Token} {more : List Token} (hts : ts = t :: more)
    (ht : Begins t.lexeme) : ReadsMany handles .flowEntries ts events := by
  obtain ⟨count, hcount, hmoves⟩ := h
  refine ⟨count + 1, by omega, fun first before goals rest hcomma => ?_⟩
  have hstep : step handles (.flowEntries first) (before ++ (ts ++ rest)) =
      some ([.node false false, .flowEntries false], [], ts ++ rest) := by
    obtain ⟨l, start, stop⟩ := t
    subst hts
    rcases hcomma with ⟨rfl, rfl⟩ | ⟨_, _, rfl, rfl⟩ <;> rcases ht with ⟨_, _, rfl⟩ | rfl | rfl <;> rfl
  exact (moves_step hstep goals).trans (hmoves _ _ _ rest)

theorem ReadsOne.member (h : ReadsOne handles ts events) {t : Token} {more : List Token} (hts : ts = t :: more)
    (ht : Begins t.lexeme) (key : String) (a b c d e f : Mark) :
    ReadsMany handles .flowKeys (⟨.key, a, b⟩ :: ⟨.scalar key .double, c, d⟩ :: ⟨.value, e, f⟩ :: ts)
      (.scalar .none key .double c :: events) := by
  obtain ⟨count, hcount, hmoves⟩ := h
  refine ⟨count + 1 + 1 + 1, by simp; omega, fun first before goals rest hcomma => ?_⟩
  have hkey : step handles (.flowKeys first)
      (before ++ (⟨.key, a, b⟩ :: ⟨.scalar key .double, c, d⟩ :: ⟨.value, e, f⟩ :: ts ++ rest)) =
      some ([.node false false, .flowValue], [], ⟨.scalar key .double, c, d⟩ :: ⟨.value, e, f⟩ :: (ts ++ rest)) := by
    rcases hcomma with ⟨rfl, rfl⟩ | ⟨_, _, rfl, rfl⟩ <;> rfl
  have hscalar : step handles (.node false false)
      (⟨.scalar key .double, c, d⟩ :: ⟨.value, e, f⟩ :: (ts ++ rest)) =
      some ([], [.scalar .none key .double c], ⟨.value, e, f⟩ :: (ts ++ rest)) := rfl
  have hvalue : step handles .flowValue (⟨.value, e, f⟩ :: (ts ++ rest)) =
      some ([.node false false, .flowKeys false], [], ts ++ rest) := by
    obtain ⟨l, start, stop⟩ := t
    subst hts
    rcases ht with ⟨_, _, rfl⟩ | rfl | rfl <;> rfl
  exact (((moves_step hkey goals).trans (moves_step hscalar _)).trans (moves_step hvalue goals)).trans
    (hmoves _ _ _ rest)

/-- A comma between entries. -/
theorem ReadsMany.comma (h : ReadsMany handles goal ts events) (h' : ReadsMany handles goal ts' events')
    (start stop : Mark) : ReadsMany handles goal (ts ++ ⟨.flowEntry, start, stop⟩ :: ts') (events ++ events') := by
  obtain ⟨count, hcount, hmoves⟩ := h
  obtain ⟨count', hcount', hmoves'⟩ := h'
  refine ⟨count' + count, by simp; omega, fun first before goals rest hcomma => ?_⟩
  have hfirst := hmoves first before goals (⟨.flowEntry, start, stop⟩ :: (ts' ++ rest)) hcomma
  have hmore := hmoves' false [⟨.flowEntry, start, stop⟩] goals rest (.inr ⟨start, stop, rfl, rfl⟩)
  simpa using hfirst.trans hmore

/-- Brackets around what is read towards a goal. -/
theorem readsOne_brackets {count : Nat} {first : Bool} {x y : Token} {start stop : Event}
    (hx : ∀ block indentless rest,
      step handles (.node block indentless) (x :: rest) = some ([goal true], [start], rest))
    (hy : ∀ rest, step handles (goal first) (y :: rest) = some ([], [stop], rest)) (hcount : count ≤ 2 * ts.length)
    (h : ∀ goals rest, Moves handles count (goal true :: goals) (ts ++ rest) events (goal first :: goals) rest) :
    ReadsOne handles (x :: ts ++ [y]) (start :: events ++ [stop]) := by
  refine ⟨1 + (count + 1), by simp; omega, fun block indentless goals rest => ?_⟩
  have hopen := moves_step (hx block indentless (ts ++ y :: rest)) goals
  have hclose := moves_step (hy rest) goals
  have hall := (hopen.trans (h goals (y :: rest))).trans hclose
  simpa using hall

theorem ReadsMany.brackets (h : ReadsMany handles goal ts events) {x y : Token} {start stop : Event}
    (hx : ∀ block indentless rest,
      step handles (.node block indentless) (x :: rest) = some ([goal true], [start], rest))
    (hy : ∀ rest, step handles (goal false) (y :: rest) = some ([], [stop], rest)) :
    ReadsOne handles (x :: ts ++ [y]) (start :: events ++ [stop]) := by
  obtain ⟨count, hcount, hmoves⟩ := h
  exact readsOne_brackets hx hy hcount fun goals rest => hmoves true [] goals rest (.inl ⟨rfl, rfl⟩)

end Entries

open Document.Builder

/-- What is found where a token stands between others. -/
theorem exists_brackets {ts : List Token} {l l' : Lexeme} {ls : List Lexeme}
    (h : ts.map Token.lexeme = l :: ls ++ [l']) :
    ∃ a b ts' c d, ts = ⟨l, a, b⟩ :: ts' ++ [⟨l', c, d⟩] ∧ ts'.map Token.lexeme = ls := by
  obtain ⟨front, back, rfl, hfront, hback⟩ := List.map_eq_append_iff.1 h
  obtain ⟨⟨_, a, b⟩, ts', rfl, rfl, hts⟩ := List.map_eq_cons_iff.1 hfront
  obtain ⟨⟨_, c, d⟩, _, rfl, rfl, hnil⟩ := List.map_eq_cons_iff.1 hback
  obtain rfl := List.map_eq_nil_iff.1 hnil
  exact ⟨a, b, ts', c, d, rfl, hts⟩

theorem exists_comma {ts : List Token} {l : Lexeme} {ls ls' : List Lexeme}
    (h : ts.map Token.lexeme = ls ++ l :: ls') :
    ∃ ts₁ a b ts₂, ts = ts₁ ++ ⟨l, a, b⟩ :: ts₂ ∧ ts₁.map Token.lexeme = ls ∧ ts₂.map Token.lexeme = ls' := by
  obtain ⟨ts₁, back, rfl, hfront, hback⟩ := List.map_eq_append_iff.1 h
  obtain ⟨⟨_, a, b⟩, ts₂, rfl, rfl, hts⟩ := List.map_eq_cons_iff.1 hback
  exact ⟨ts₁, a, b, ts₂, rfl, hfront, hts⟩

theorem exists_scalar {ts : List Token} {l : Lexeme} (h : ts.map Token.lexeme = [l]) : ∃ a b, ts = [⟨l, a, b⟩] := by
  obtain ⟨⟨_, a, b⟩, _, rfl, rfl, hnil⟩ := List.map_eq_cons_iff.1 h
  obtain rfl := List.map_eq_nil_iff.1 hnil
  exact ⟨a, b, rfl⟩

theorem exists_begins {p : Phrase} {ls : List Lexeme} (h : Lexed p ls) (hp : Scanner.beginsWithKey p = false)
    {ts : List Token} (hts : ts.map Token.lexeme = ls) : ∃ t more, ts = t :: more ∧ Begins t.lexeme := by
  obtain ⟨l, ls', rfl, hbegins⟩ := begins_of_lexed h hp
  obtain ⟨t, more, rfl, rfl, _⟩ := List.map_eq_cons_iff.1 hts
  exact ⟨t, more, rfl, hbegins⟩

/-- A value of one token. -/
theorem reads_scalar {v : Value} {text : String} {style : ScalarStyle}
    (hv : ∀ m, Stands v (.scalar none text style m)) {ts : List Token} (hts : ts.map Token.lexeme = [.scalar text style]) :
    ∃ events ns, Reads handles (.value v) ts events ∧ Builds events ns ∧ StandFor (.value v) ns := by
  obtain ⟨a, b, rfl⟩ := exists_scalar hts
  exact ⟨_, _, readsOne_scalar text style a b, builds_scalar text style a, _, rfl, hv a⟩

/-- **The tokens of a phrase** are read as events that build the nodes that stand for it. -/
theorem reads_of_lexed {p : Phrase} {ls : List Lexeme} (h : Lexed p ls) : ∀ {ts : List Token},
    ts.map Token.lexeme = ls → ∃ events ns, Reads handles p ts events ∧ Builds events ns ∧ StandFor p ns := by
  induction h with
  | null => exact reads_scalar .null
  | true => exact reads_scalar (.bool true)
  | false => exact reads_scalar (.bool false)
  | natural n => exact reads_scalar (.natural n)
  | string text => exact reads_scalar (.string text)
  | emptyList =>
    intro ts hts
    obtain ⟨a, b, ts', c, d, rfl, hnil⟩ := @exists_brackets ts _ _ [] hts
    obtain rfl := List.map_eq_nil_iff.1 hnil
    have hreads : ReadsOne handles [⟨.flowSequenceStart, a, b⟩, ⟨.flowSequenceEnd, c, d⟩]
        [.sequenceStart .none a, .sequenceEnd] :=
      @readsOne_brackets handles [] [] .flowEntries 0 true _ _ _ _ (fun _ _ _ => rfl) (fun _ => rfl) (Nat.zero_le _)
        fun _ _ _ _ => rfl
    exact ⟨_, _, hreads, builds_nil.sequence a, _, rfl, .list a .nil⟩
  | list hlexed ih =>
    intro ts hts
    obtain ⟨a, b, ts', c, d, rfl, hts'⟩ := exists_brackets hts
    obtain ⟨events, ns, hreads, hbuilds, hstand⟩ := ih hts'
    exact ⟨_, _, hreads.brackets (fun _ _ _ => rfl) (fun _ => rfl), hbuilds.sequence a, _, rfl, .list a hstand⟩
  | emptyObject =>
    intro ts hts
    obtain ⟨a, b, ts', c, d, rfl, hnil⟩ := @exists_brackets ts _ _ [] hts
    obtain rfl := List.map_eq_nil_iff.1 hnil
    have hreads : ReadsOne handles [⟨.flowMappingStart, a, b⟩, ⟨.flowMappingEnd, c, d⟩]
        [.mappingStart .none a, .mappingEnd] :=
      @readsOne_brackets handles [] [] .flowKeys 0 true _ _ _ _ (fun _ _ _ => rfl) (fun _ => rfl) (Nat.zero_le _)
        fun _ _ _ _ => rfl
    have hbuilds : Builds ([] : List Event) (unpaired []) := builds_nil
    exact ⟨_, _, hreads, hbuilds.mapping a, _, rfl, .object a .nil⟩
  | object hlexed ih =>
    intro ts hts
    obtain ⟨a, b, ts', c, d, rfl, hts'⟩ := exists_brackets hts
    obtain ⟨events, _, hreads, hbuilds, entries, rfl, hstand⟩ := ih hts'
    exact ⟨_, _, hreads.brackets (fun _ _ _ => rfl) (fun _ => rfl), hbuilds.mapping a, _, rfl, .object a hstand⟩
  | element _ ih => exact ih
  | item hlexed ih =>
    intro ts hts
    obtain ⟨events, _, hreads, hbuilds, n, rfl, hstand⟩ := ih hts
    obtain ⟨t, more, hmore, hbegins⟩ := exists_begins hlexed rfl hts
    exact ⟨events, _, hreads.item hmore hbegins, hbuilds, .cons hstand .nil⟩
  | items hlexed _ ih ih' =>
    intro ts hts
    obtain ⟨ts₁, a, b, ts₂, rfl, hts₁, hts₂⟩ := exists_comma hts
    obtain ⟨events, _, hreads, hbuilds, n, rfl, hstand⟩ := ih hts₁
    obtain ⟨events', ns, hreads', hbuilds', hstand'⟩ := ih' hts₂
    obtain ⟨t, more, hmore, hbegins⟩ := exists_begins hlexed rfl hts₁
    exact ⟨_, _, (hreads.item hmore hbegins).comma hreads' a b, hbuilds.append hbuilds', .cons hstand hstand'⟩
  | @member key v ls hlexed ih =>
    intro ts hts
    obtain ⟨⟨_, a, b⟩, _, rfl, rfl, hscalar⟩ := List.map_eq_cons_iff.1 hts
    obtain ⟨⟨_, c, d⟩, _, rfl, rfl, hvalue⟩ := List.map_eq_cons_iff.1 hscalar
    obtain ⟨⟨_, e, f⟩, ts', rfl, rfl, hts'⟩ := List.map_eq_cons_iff.1 hvalue
    obtain ⟨events, _, hreads, hbuilds, n, rfl, hstand⟩ := ih hts'
    obtain ⟨t, more, hmore, hbegins⟩ := exists_begins hlexed rfl hts'
    exact ⟨_, _, hreads.member hmore hbegins key a b c d e f, (builds_scalar key .double c).append hbuilds, c, n, rfl,
      hstand⟩
  | @field key v ls _ ih =>
    intro ts hts
    obtain ⟨events, _, hreads, hbuilds, m, n, rfl, hstand⟩ := ih hts
    exact ⟨events, _, hreads, hbuilds, [(.scalar none key .double m, n)], rfl, .cons m hstand .nil⟩
  | @fields key v fields ls ls' _ _ ih ih' =>
    intro ts hts
    obtain ⟨ts₁, a, b, ts₂, rfl, hts₁, hts₂⟩ := exists_comma hts
    obtain ⟨events, _, hreads, hbuilds, m, n, rfl, hstand⟩ := ih hts₁
    obtain ⟨events', _, hreads', hbuilds', entries, rfl, hstand'⟩ := ih' hts₂
    exact ⟨_, _, hreads.comma hreads' a b, hbuilds.append hbuilds', (.scalar none key .double m, n) :: entries, rfl,
      .cons m hstand hstand'⟩

/-- Tokens of an object make the events that their phrase is read as. -/
theorem ofTokens?_of_lexed {fields : Fields Value} {ls : List Lexeme} (h : Lexed (.value (.object fields)) ls)
    {tokens : List Token} (htokens : tokens.map Token.lexeme = ls ++ [.streamEnd]) :
    ∃ events n, ofTokens? tokens = some events ∧ Builds events [n] ∧ Stands (.object fields) n := by
  obtain ⟨ts, back, rfl, hts, hback⟩ := List.map_eq_append_iff.1 htokens
  obtain ⟨a, b, rfl⟩ := exists_scalar hback
  obtain ⟨events, _, ⟨count, hcount, hmoves⟩, hbuilds, n, rfl, hstand⟩ :=
    @reads_of_lexed defaultHandles _ _ h ts hts
  refine ⟨events, n, ?_, hbuilds, hstand⟩
  have hrun : run defaultHandles [.node true false] [] (ts ++ [⟨.streamEnd, a, b⟩])
      (5 * (ts ++ [(⟨.streamEnd, a, b⟩ : Token)]).length + 5) = some (events, [⟨.streamEnd, a, b⟩]) := by
    obtain ⟨fuel, hfuel⟩ : ∃ fuel, 5 * (ts ++ [(⟨.streamEnd, a, b⟩ : Token)]).length + 5 = fuel + 1 + count :=
      ⟨5 * (ts ++ [(⟨.streamEnd, a, b⟩ : Token)]).length + 5 - (1 + count), by simp; omega⟩
    rw [hfuel, hmoves true false [] [⟨.streamEnd, a, b⟩] [] (fuel + 1), run]
    simp
  -- the tokens begin with a brace, so no directive and no mark of a document's start comes first
  obtain ⟨⟨_, c, d⟩, more, rfl, hbrace⟩ : ∃ t more, ts = t :: more ∧ t.lexeme = .flowMappingStart := by
    cases h <;> exact (List.map_eq_cons_iff.1 hts).elim fun t ⟨more, h₁, h₂, _⟩ => ⟨t, more, h₁, h₂⟩
  cases hbrace
  have hdocument : document? (⟨.flowMappingStart, c, d⟩ :: more ++ [⟨.streamEnd, a, b⟩]) =
      some (defaultHandles, [.node true false], [], ⟨.flowMappingStart, c, d⟩ :: more ++ [⟨.streamEnd, a, b⟩]) := rfl
  have hover : isOver [(⟨.streamEnd, a, b⟩ : Token)] = true := rfl
  rw [List.cons_append] at hrun hdocument ⊢
  simp only [ofTokens?, hdocument, Option.bind_eq_bind, Option.bind_some, hrun, hover, if_true]

end Event

/-- **A portable document** has a root that stands for its object. -/
theorem ofText?_of_portable {fields : Fields Value} {text : String} (h : Portable fields text.toList) :
    ∃ root, Document.ofText? text = some ⟨some root, []⟩ ∧ Stands (.object fields) root := by
  obtain ⟨ls, tokens, hlexed, htokens, hmap⟩ := tokens?_of_portable h
  obtain ⟨events, n, hevents, hbuilds, hstand⟩ := Event.ofTokens?_of_lexed hlexed hmap
  obtain ⟨count, haccept⟩ := hbuilds .empty []
  refine ⟨n, ?_, hstand⟩
  rw [List.append_nil] at haccept
  rw [Document.ofText?, htokens, Option.bind_some, hevents, Option.bind_some, Document.ofEvents?, haccept]
  rfl

end RunAudit.Yaml
