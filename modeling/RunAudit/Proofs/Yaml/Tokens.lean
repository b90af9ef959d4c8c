import RunAudit.Proofs.Yaml.Blanks
import RunAudit.Proofs.Yaml.Portable

/-!
# Tokens between brackets

The scanner goes from one token to the next (`Goes`). Between brackets there are no block collections (`flat`), so each
token does one thing: brackets and commas (`goes_open`, `goes_close`, `goes_comma`), strings and words (`goes_string`,
`goes_word`), and a key with its colon, which puts the key's own token before it (`goes_key`).
-/

namespace RunAudit.Yaml

open RunAudit.Json (Blank)

namespace Scanner

/-! ## Steps -/

/-- A scanner without block collections: how many brackets are open, whether a key is allowed, the candidates for keys,
and what it found. -/
def flat (flow : Nat) (keyAllowed : Bool) (candidate : Option KeyCandidate) (outer : List (Option KeyCandidate))
    (tokens : List Token) (count : Nat) : Scanner :=
  ⟨flow, keyAllowed, -1, [], candidate :: outer, tokens, count⟩

/-- A candidate that need not be a key. -/
def Free (candidate : Option KeyCandidate) : Prop := ∀ k ∈ candidate, k.required = false

theorem free_none : Free none := fun _ h => by cases h

/-- What becomes of the innermost candidate at a token that may begin a key. -/
def saved (keyAllowed : Bool) (candidate : Option KeyCandidate) (count : Nat) (m : Mark) : Option KeyCandidate :=
  if keyAllowed then some ⟨count, m, false⟩ else candidate

section Steps

variable {flow : Nat} {keyAllowed : Bool} {candidate : Option KeyCandidate} {outer : List (Option KeyCandidate)}
  {tokens : List Token} {count : Nat} {m : Mark} {t : List Char}

theorem free_saved (h : Free candidate) : Free (saved keyAllowed candidate count m) := by
  unfold saved
  split
  · intro k hk
    cases hk
    rfl
  · exact h

theorem dropCandidate?_flat (h : Free candidate) :
    (flat flow keyAllowed candidate outer tokens count).dropCandidate? =
      some (flat flow keyAllowed none outer tokens count) := by
  cases candidate with
  | none => rfl
  | some k => simp [dropCandidate?, flat, setCandidate, h k rfl]

theorem saveCandidate?_flat (h : Free candidate) :
    (flat flow keyAllowed candidate outer tokens count).saveCandidate? m =
      some (flat flow keyAllowed (saved keyAllowed candidate count m) outer tokens count) := by
  have hrequired : (!(flat flow keyAllowed candidate outer tokens count).inFlow &&
      decide ((flat flow keyAllowed candidate outer tokens count).indent = (m.column : Int))) = false := by
    have : ¬(-1 : Int) = m.column := by omega
    simp [flat, this]
  unfold saveCandidate?
  rw [hrequired, dropCandidate?_flat h]
  cases keyAllowed <;> rfl

/-- Outside of block collections, none ends at a column. -/
theorem leave_flat (column : Int) :
    (flat flow keyAllowed candidate outer tokens count).leave column m =
      flat flow keyAllowed candidate outer tokens count := by
  simp [leave, leaveTo, flat]

theorem openBracket_flat (h : Free candidate) (lexeme : Lexeme) (c : Char) :
    (flat flow keyAllowed candidate outer tokens count).openBracket lexeme ⟨c :: t, m⟩ =
      some (flat (flow + 1) true none (saved keyAllowed candidate count m :: outer) (⟨lexeme, m, m.next⟩ :: tokens)
        (count + 1), ⟨t, m.next⟩) := by
  rw [openBracket, saveCandidate?_flat h]
  rfl

theorem closeBracket_flat {around : Option KeyCandidate} (h : Free candidate) (lexeme : Lexeme) (c : Char) :
    (flat (flow + 1) keyAllowed candidate (around :: outer) tokens count).closeBracket lexeme ⟨c :: t, m⟩ =
      some (flat flow false around outer (⟨lexeme, m, m.next⟩ :: tokens) (count + 1), ⟨t, m.next⟩) := by
  rw [closeBracket, dropCandidate?_flat h]
  rfl

theorem comma_flat (h : Free candidate) (c : Char) :
    (flat flow keyAllowed candidate outer tokens count).comma ⟨c :: t, m⟩ =
      some (flat flow true none outer (⟨.flowEntry, m, m.next⟩ :: tokens) (count + 1), ⟨t, m.next⟩) := by
  rw [comma, dropCandidate?_flat h]
  rfl

/-- A string is a scalar; if it breaks no line, it ends on its line. -/
theorem quotedScalar_flat (h : Free candidate) {text : String} {s : List Char} (hs : Json.Quoted portable text s) :
    ∃ m', ((∀ x ∈ s, isBreak x = false) → m' = m.past s.length) ∧
      (flat flow keyAllowed candidate outer tokens count).quotedScalar '"' .double ⟨s ++ t, m⟩ =
        some (flat flow false (saved keyAllowed candidate count m) outer (⟨.scalar text .double, m, m'⟩ :: tokens)
          (count + 1), ⟨t, m'⟩) := by
  obtain ⟨m', hread, hline⟩ := read_quoted hs t m
  refine ⟨m', hline, ?_⟩
  rw [quotedScalar, saveCandidate?_flat h]
  simp only [Option.bind_eq_bind, Option.bind_some, hread, String.ofList_toList]
  rfl

theorem plainScalar_flat (h : Free candidate) {word b : List Char} {k k' : Bool} {m' : Mark} {c : Char}
    (hw : ∀ x ∈ word, isWordChar x = true) (hb : Passes true k (m.past word.length) b k' m')
    (hc : c = ',' ∨ c = ']' ∨ c = '\x7d') :
    ∃ broken, (flat (flow + 1) keyAllowed candidate outer tokens count).plainScalar ⟨word ++ (b ++ c :: t), m⟩ =
      some (flat (flow + 1) broken (saved keyAllowed candidate count m) outer
        (⟨.scalar (String.ofList word) .plain, m, m'⟩ :: tokens) (count + 1), ⟨c :: t, m'⟩) := by
  obtain ⟨broken, hread⟩ := plain_word hw hc hb t []
  refine ⟨broken, ?_⟩
  rw [plainScalar, saveCandidate?_flat h]
  simp [flat, inFlow, hread, allowKey, emit]

/-- A colon on the line of the scalar before it, near enough, makes that a key. -/
theorem colon_flat {m₀ : Mark} {length : Nat} (hl : length ≤ maxKeyLength) (scalar : Token) (c : Char) :
    (flat (flow + 1) keyAllowed (some ⟨count, m₀, false⟩) outer (scalar :: tokens) (count + 1)).colon
        ⟨c :: t, m₀.past length⟩ =
      some (flat (flow + 1) false none outer
        (⟨.value, m₀.past length, (m₀.past length).next⟩ :: scalar :: ⟨.key, m₀, m₀⟩ :: tokens) (count + 1 + 1 + 1),
        ⟨t, (m₀.past length).next⟩) := by
  have hstale : (KeyCandidate.mk count m₀ false).isStale (m₀.past length) = false := by
    simp [KeyCandidate.isStale, Mark.past]
    omega
  simp [colon, keyOfColon?, keyBefore, emitAt, enterAt, setCandidate, allowKey, emit, inFlow, flat, hstale,
    Rest.past, Mark.next]

end Steps

/-- A letter or digit is none of the characters that mean something. -/
theorem ne_of_isAlphanum {c : Char} (h : c.isAlphanum = true) (x : Char) (hx : x.isAlphanum = false) : c ≠ x := by
  rintro rfl
  rw [h] at hx
  cases hx

theorem isWordChar_of_isAlphanum {c : Char} (h : c.isAlphanum = true) : isWordChar c = true := by
  simp [isWordChar, isBlankOrBreak, isBlank, isBreak, Plain.endsInFlow, ne_of_isAlphanum h]

theorem stops_of_isAlphanum {c : Char} (h : c.isAlphanum = true) (t : List Char) : Stops (c :: t) := by
  intro x hx
  cases hx
  simp [isBlankOrBreak, isBlank, isBreak, ne_of_isAlphanum h]

theorem token_of_isAlphanum {c : Char} (h : c.isAlphanum = true) (sc : Scanner) (t : List Char) (m : Mark) :
    sc.token ⟨c :: t, m⟩ c t = sc.plainScalar ⟨c :: t, m⟩ := by
  have hne := ne_of_isAlphanum h
  have hmark : startsWithDocumentMark (c :: t) = false := by
    unfold startsWithDocumentMark
    split
    · rename_i heq
      cases heq
      cases h
    · rename_i heq
      cases heq
      cases h
    · rfl
  have hbegins : beginsPlain c = true := by
    simp [beginsPlain, isBlankOrBreak, isBlank, isBreak, isIndicator, hne]
  unfold token
  rw [if_neg (by simp [hne '%' rfl]), if_neg (by simp [hmark])]
  split
  all_goals first | exact absurd h (by decide) | simp [hbegins]

/-! ## Runs -/

/-- A scanner at one place goes on to another place with what it found on the way. -/
def Goes (sc : Scanner) (r : Rest) (sc' : Scanner) (r' : Rest) : Prop :=
  ∀ fuel, r.text.length < fuel → ∃ fuel', r'.text.length < fuel' ∧ sc.run r fuel = sc'.run r' fuel'

theorem Goes.trans {sc₁ sc₂ sc₃ : Scanner} {r₁ r₂ r₃ : Rest} (h : Goes sc₁ r₁ sc₂ r₂) (h' : Goes sc₂ r₂ sc₃ r₃) :
    Goes sc₁ r₁ sc₃ r₃ := by
  intro fuel hf
  obtain ⟨fuel₂, hf₂, hrun₂⟩ := h fuel hf
  obtain ⟨fuel₃, hf₃, hrun₃⟩ := h' fuel₂ hf₂
  exact ⟨fuel₃, hf₃, hrun₂.trans hrun₃⟩

section Runs

variable {flow : Nat} {k k' : Bool} {candidate : Option KeyCandidate} {outer : List (Option KeyCandidate)}
  {tokens : List Token} {count : Nat} {m m' : Mark} {b t : List Char}

/-- A token behind blanks. -/
theorem goes_token {inside : Bool} {c : Char} (hb : Passes inside k m b k' m') (hs : Stops (c :: t)) {sc : Scanner}
    {r : Rest} (ht : (flat flow k' candidate outer tokens count).token ⟨c :: t, m'⟩ c t = some (sc, r))
    (hr : r.text.length ≤ t.length) (hin : inside = decide (flow ≠ 0)) :
    Goes (flat flow k candidate outer tokens count) ⟨b ++ c :: t, m⟩ sc r := by
  subst hin
  intro fuel hf
  obtain ⟨fuel, rfl⟩ : ∃ n, fuel = n + 1 := ⟨fuel - 1, by omega⟩
  simp only [List.length_append, List.length_cons] at hf
  refine ⟨fuel, by omega, ?_⟩
  have hpassed : toToken (flat flow k candidate outer tokens count).inFlow k ⟨b ++ c :: t, m⟩ (fuel + 1) =
      (k', ⟨c :: t, m'⟩) := toToken_passes hb hs (by omega)
  have hleave : ((flat flow k candidate outer tokens count).allowKey k').leave m'.column m' =
      flat flow k' candidate outer tokens count := leave_flat _
  rw [run, show (flat flow k candidate outer tokens count).keyAllowed = k from rfl, hpassed]
  simp only [hleave, ht]

end Runs

/-! ## Between brackets -/

/-- A scanner between brackets, with the candidates for keys around them and what it found, the last first. -/
def Between (flow : Nat) (outer : List (Option KeyCandidate)) (keyAllowed : Bool) (found : List Lexeme)
    (sc : Scanner) : Prop :=
  ∃ candidate tokens count, Free candidate ∧ tokens.map Token.lexeme = found ∧
    sc = flat (flow + 1) keyAllowed candidate outer tokens count

section Between

variable {flow : Nat} {outer : List (Option KeyCandidate)} {k : Bool} {found : List Lexeme} {sc : Scanner}
  {b t : List Char}

/-- Which bracket opens what. -/
def opening (c : Char) (lexeme : Lexeme) : Prop :=
  c = '[' ∧ lexeme = .flowSequenceStart ∨ c = '\x7b' ∧ lexeme = .flowMappingStart

/-- Which bracket closes what. -/
def closing (c : Char) (lexeme : Lexeme) : Prop :=
  c = ']' ∧ lexeme = .flowSequenceEnd ∨ c = '\x7d' ∧ lexeme = .flowMappingEnd

theorem token_opening {c : Char} {lexeme : Lexeme} (h : opening c lexeme) (sc : Scanner) (m : Mark) :
    sc.token ⟨c :: t, m⟩ c t = sc.openBracket lexeme ⟨c :: t, m⟩ ∧ Stops (c :: t) := by
  rcases h with ⟨rfl, rfl⟩ | ⟨rfl, rfl⟩
  · exact ⟨by simp [token, startsWithDocumentMark], by simp [Stops, isBlankOrBreak, isBlank, isBreak]⟩
  · exact ⟨by simp [token, startsWithDocumentMark], by simp [Stops, isBlankOrBreak, isBlank, isBreak]⟩

theorem token_closing {c : Char} {lexeme : Lexeme} (h : closing c lexeme) (sc : Scanner) (m : Mark) :
    sc.token ⟨c :: t, m⟩ c t = sc.closeBracket lexeme ⟨c :: t, m⟩ ∧ Stops (c :: t) := by
  rcases h with ⟨rfl, rfl⟩ | ⟨rfl, rfl⟩
  · exact ⟨by simp [token, startsWithDocumentMark], by simp [Stops, isBlankOrBreak, isBlank, isBreak]⟩
  · exact ⟨by simp [token, startsWithDocumentMark], by simp [Stops, isBlankOrBreak, isBlank, isBreak]⟩

/-- A bracket is opened between others. -/
theorem goes_open (h : Between flow outer k found sc) (hb : Blank b) {c : Char} {lexeme : Lexeme}
    (hc : opening c lexeme) (t : List Char) (m : Mark) :
    ∃ around sc' m', Free around ∧ Between (flow + 1) (around :: outer) true (lexeme :: found) sc' ∧
      Goes sc ⟨b ++ c :: t, m⟩ sc' ⟨t, m'⟩ := by
  obtain ⟨candidate, tokens, count, hfree, rfl, rfl⟩ := h
  obtain ⟨m', hpasses⟩ := exists_passes_flow k hb m
  obtain ⟨htoken, hstops⟩ := @token_opening t c lexeme hc (flat (flow + 1) k candidate outer tokens count) m'
  have hstep := htoken.trans (openBracket_flat hfree lexeme c)
  exact ⟨_, _, _, free_saved hfree, ⟨none, _, _, free_none, rfl, rfl⟩,
    goes_token hpasses hstops hstep (Nat.le_refl _) rfl⟩

/-- A bracket is closed. -/
theorem goes_close {around : Option KeyCandidate} (h : Between flow (around :: outer) k found sc) (hb : Blank b)
    {c : Char} {lexeme : Lexeme} (hc : closing c lexeme) (t : List Char) (m : Mark) :
    ∃ tokens count m', tokens.map Token.lexeme = lexeme :: found ∧
      Goes sc ⟨b ++ c :: t, m⟩ (flat flow false around outer tokens count) ⟨t, m'⟩ := by
  obtain ⟨candidate, tokens, count, hfree, rfl, rfl⟩ := h
  obtain ⟨m', hpasses⟩ := exists_passes_flow k hb m
  obtain ⟨htoken, hstops⟩ :=
    @token_closing t c lexeme hc (flat (flow + 1) k candidate (around :: outer) tokens count) m'
  have hstep := htoken.trans (closeBracket_flat hfree lexeme c)
  exact ⟨_, _, _, rfl, goes_token hpasses hstops hstep (Nat.le_refl _) rfl⟩

/-- A comma allows a key. -/
theorem goes_comma (h : Between flow outer k found sc) (hb : Blank b) (t : List Char) (m : Mark) :
    ∃ sc' m', Between flow outer true (.flowEntry :: found) sc' ∧ Goes sc ⟨b ++ ',' :: t, m⟩ sc' ⟨t, m'⟩ := by
  obtain ⟨candidate, tokens, count, hfree, rfl, rfl⟩ := h
  obtain ⟨m', hpasses⟩ := exists_passes_flow k hb m
  have htoken : ∀ sc : Scanner, sc.token ⟨',' :: t, m'⟩ ',' t = sc.comma ⟨',' :: t, m'⟩ := fun sc => by
    simp [token, startsWithDocumentMark]
  have hstep := (htoken (flat (flow + 1) k candidate outer tokens count)).trans (comma_flat hfree ',')
  have hstops : Stops (',' :: t) := by simp [Stops, isBlankOrBreak, isBlank, isBreak]
  exact ⟨_, _, ⟨none, _, _, free_none, rfl, rfl⟩, goes_token hpasses hstops hstep (Nat.le_refl _) rfl⟩

theorem token_quote (sc : Scanner) (m : Mark) :
    sc.token ⟨'"' :: t, m⟩ '"' t = sc.quotedScalar '"' .double ⟨'"' :: t, m⟩ ∧ Stops ('"' :: t) :=
  ⟨by simp [token, startsWithDocumentMark], by simp [Stops, isBlankOrBreak, isBlank, isBreak]⟩

theorem goes_quoted {candidate : Option KeyCandidate} {tokens : List Token} {count : Nat} (h : Free candidate)
    (hb : Blank b) {text : String} {s : List Char} (hs : Json.Quoted portable text s) (t : List Char) (m : Mark) :
    ∃ m₁ m₂, ((∀ x ∈ s, isBreak x = false) → m₂ = m₁.past s.length) ∧
      Goes (flat (flow + 1) k candidate outer tokens count) ⟨b ++ (s ++ t), m⟩
        (flat (flow + 1) false (saved k candidate count m₁) outer (⟨.scalar text .double, m₁, m₂⟩ :: tokens)
          (count + 1)) ⟨t, m₂⟩ := by
  obtain ⟨m₁, hpasses⟩ := exists_passes_flow k hb m
  obtain ⟨m₂, hline, hread⟩ := @quotedScalar_flat (flow + 1) k candidate outer tokens count m₁ t h text s hs
  refine ⟨m₁, m₂, hline, ?_⟩
  obtain ⟨written, _, _, rfl⟩ := hs
  obtain ⟨htoken, hstops⟩ := @token_quote (written ++ ['"'] ++ t) (flat (flow + 1) k candidate outer tokens count) m₁
  exact goes_token hpasses hstops (htoken.trans hread) (by simp; omega) rfl

/-- A string is a scalar. -/
theorem goes_string (h : Between flow outer k found sc) (hb : Blank b) {text : String} {s : List Char}
    (hs : Json.Quoted portable text s) (t : List Char) (m : Mark) :
    ∃ sc' m', Between flow outer false (.scalar text .double :: found) sc' ∧
      Goes sc ⟨b ++ (s ++ t), m⟩ sc' ⟨t, m'⟩ := by
  obtain ⟨candidate, tokens, count, hfree, rfl, rfl⟩ := h
  obtain ⟨m₁, m₂, _, hgoes⟩ := goes_quoted hfree hb hs t m
  exact ⟨_, m₂, ⟨_, _, _, free_saved hfree, rfl, rfl⟩, hgoes⟩

/-- A word is a plain scalar. -/
theorem goes_word (h : Between flow outer k found sc) (hb : Blank b) {word b' : List Char} (hne : word ≠ [])
    (hw : ∀ x ∈ word, x.isAlphanum = true) (hb' : Blank b') {c : Char} (hc : c = ',' ∨ c = ']' ∨ c = '\x7d')
    (t : List Char) (m : Mark) :
    ∃ broken sc' m', Between flow outer broken (.scalar (String.ofList word) .plain :: found) sc' ∧
      Goes sc ⟨b ++ (word ++ (b' ++ c :: t)), m⟩ sc' ⟨c :: t, m'⟩ := by
  obtain ⟨candidate, tokens, count, hfree, rfl, rfl⟩ := h
  obtain ⟨m', hpasses⟩ := exists_passes_flow k hb m
  obtain ⟨m'', hpasses'⟩ := exists_passes_flow k hb' (m'.past word.length)
  obtain ⟨broken, hread⟩ := @plainScalar_flat flow k candidate outer tokens count m' t hfree word b' k k m'' c
    (fun x hx => isWordChar_of_isAlphanum (hw x hx)) hpasses' hc
  cases word with
  | nil => cases hne rfl
  | cons x word =>
    have hx := hw x List.mem_cons_self
    have htoken := token_of_isAlphanum hx (flat (flow + 1) k candidate outer tokens count)
      (word ++ (b' ++ c :: t)) m'
    exact ⟨broken, _, _, ⟨_, _, _, free_saved hfree, rfl, rfl⟩,
      goes_token hpasses (stops_of_isAlphanum hx _) (htoken.trans hread) (by simp; omega) rfl⟩

/-- A string with a colon behind it is a key. -/
theorem goes_key (h : Between flow outer true found sc) (hb : Blank b) {key : String} {s b' : List Char}
    (hs : Json.Quoted portable key s) (hcolon : portable.colon s b') (t : List Char) (m : Mark) :
    ∃ sc' m', Between flow outer false (.value :: .scalar key .double :: .key :: found) sc' ∧
      Goes sc ⟨b ++ (s ++ (b' ++ ':' :: t)), m⟩ sc' ⟨t, m'⟩ := by
  obtain ⟨candidate, tokens, count, hfree, rfl, rfl⟩ := h
  obtain ⟨m₁, m₂, hline, hscalar⟩ := goes_quoted (k := true) hfree hb hs (b' ++ ':' :: t) m
  obtain ⟨hflat, hblank, hnear⟩ := hcolon
  obtain rfl := hline hflat
  have hpasses : Passes true false (m₁.past s.length) b' false (m₁.past (s.length + b'.length)) := by
    have h := passes_line false hblank (m₁.past s.length)
    simpa [Mark.past, Nat.add_assoc] using h
  have hstops : Stops (':' :: t) := by simp [Stops, isBlankOrBreak, isBlank, isBreak]
  have htoken : ∀ sc : Scanner, sc.inFlow = true → ∀ m, sc.token ⟨':' :: t, m⟩ ':' t = sc.colon ⟨':' :: t, m⟩ := by
    intro sc hflow m
    simp [token, startsWithDocumentMark, hflow]
  have hstep := (htoken (flat (flow + 1) false (some ⟨count, m₁, false⟩) outer
    (⟨.scalar key .double, m₁, m₁.past s.length⟩ :: tokens) (count + 1)) rfl _).trans (colon_flat hnear _ ':')
  exact ⟨_, _, ⟨none, _, _, free_none, rfl, rfl⟩, hscalar.trans (goes_token hpasses hstops hstep (Nat.le_refl _) rfl)⟩

end Between

end Scanner

end RunAudit.Yaml
