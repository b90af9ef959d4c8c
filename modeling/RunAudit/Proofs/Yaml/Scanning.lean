import RunAudit.Proofs.Yaml.Tokens

/-!
# The tokens of a portable document

`Lexed` says which tokens a phrase is made of. Between brackets, the scanner goes over a phrase of the portable dialect
token by token and emits these (`scans_of_derives`), so a portable document has them as its tokens
(`tokens?_of_portable`).
-/

namespace RunAudit.Yaml

open RunAudit.Json (Blank Derives Phrase)

/-! ## The tokens of a phrase -/

/-- **The tokens that a phrase is made of.** -/
inductive Lexed : Phrase → List Lexeme → Prop
  | null : Lexed (.value .null) [.scalar "null" .plain]
  | true : Lexed (.value (.bool true)) [.scalar "true" .plain]
  | false : Lexed (.value (.bool false)) [.scalar "false" .plain]
  | natural (n : Nat) : Lexed (.value (.ofNat n)) [.scalar (String.ofList (Nat.toDigits 10 n)) .plain]
  | string (text : String) : Lexed (.value (.string text)) [.scalar text .double]
  | emptyList : Lexed (.value (.list [])) [.flowSequenceStart, .flowSequenceEnd]
  | list {vs : List Value} {ls : List Lexeme} : Lexed (.items vs) ls →
      Lexed (.value (.list vs)) (.flowSequenceStart :: ls ++ [.flowSequenceEnd])
  | emptyObject : Lexed (.value (.object [])) [.flowMappingStart, .flowMappingEnd]
  | object {fields : Fields Value} {ls : List Lexeme} : Lexed (.members fields) ls →
      Lexed (.value (.object fields)) (.flowMappingStart :: ls ++ [.flowMappingEnd])
  | element {v : Value} {ls : List Lexeme} : Lexed (.value v) ls → Lexed (.element v) ls
  | item {v : Value} {ls : List Lexeme} : Lexed (.element v) ls → Lexed (.items [v]) ls
  | items {v : Value} {vs : List Value} {ls ls' : List Lexeme} : Lexed (.element v) ls → Lexed (.items vs) ls' →
      Lexed (.items (v :: vs)) (ls ++ .flowEntry :: ls')
  | member {key : String} {v : Value} {ls : List Lexeme} : Lexed (.element v) ls →
      Lexed (.member key v) (.key :: .scalar key .double :: .value :: ls)
  | field {key : String} {v : Value} {ls : List Lexeme} : Lexed (.member key v) ls → Lexed (.members [(key, v)]) ls
  | fields {key : String} {v : Value} {fields : Fields Value} {ls ls' : List Lexeme} : Lexed (.member key v) ls →
      Lexed (.members fields) ls' → Lexed (.members ((key, v) :: fields)) (ls ++ .flowEntry :: ls')

namespace Scanner

/-! ## Going over a phrase -/

/-- Whether a phrase begins with a key. -/
def beginsWithKey : Phrase → Bool
  | .member _ _ | .members _ => true
  | _ => false

/-- Between brackets, a scanner goes over a text and the blanks around it, up to what ends a value, and finds some
lexemes there. It may leave blanks behind a value to what comes next. -/
def Scans (p : Phrase) (s : List Char) (ls : List Lexeme) : Prop :=
  ∀ ⦃flow outer k found sc⦄, Between flow outer k found sc → (beginsWithKey p = true → k = true) →
    ∀ ⦃before after⦄, Blank before → Blank after → ∀ ⦃c : Char⦄, c = ',' ∨ c = ']' ∨ c = '\x7d' → ∀ t m,
      ∃ k' sc' b m', Between flow outer k' (ls.reverse ++ found) sc' ∧ Blank b ∧
        Goes sc ⟨before ++ (s ++ (after ++ c :: t)), m⟩ sc' ⟨b ++ c :: t, m'⟩

theorem Goes.refl (sc : Scanner) (r : Rest) : Goes sc r sc r := fun fuel hf => ⟨fuel, hf, rfl⟩

theorem Goes.of_eq {sc sc' : Scanner} {s s' : List Char} {m : Mark} {r : Rest} (h : Goes sc ⟨s, m⟩ sc' r)
    (hs : s' = s) : Goes sc ⟨s', m⟩ sc' r := hs ▸ h

theorem scans_word {p : Phrase} {word : List Char} (hne : word ≠ []) (hw : word.all Char.isAlphanum = true) :
    Scans p word [.scalar (String.ofList word) .plain] := by
  intro flow outer k found sc h _ before after hbefore hafter c hc t m
  obtain ⟨broken, sc', m', hbetween, hgoes⟩ := goes_word h hbefore hne (List.all_eq_true.1 hw) hafter hc t m
  exact ⟨broken, sc', [], m', hbetween, Json.blank_nil, hgoes⟩

theorem scans_string {p : Phrase} {text : String} {s : List Char} (hs : Json.Quoted portable text s) :
    Scans p s [.scalar text .double] := by
  intro flow outer k found sc h _ before after hbefore hafter c _ t m
  obtain ⟨sc', m', hbetween, hgoes⟩ := goes_string h hbefore hs (after ++ c :: t) m
  exact ⟨false, sc', after, m', hbetween, hafter, hgoes⟩

/-- Behind an opening bracket, a scanner goes over a text up to a closing one, and finds some lexemes there. -/
def Fills (c : Char) (inner : List Char) (ls : List Lexeme) : Prop :=
  ∀ ⦃flow outer found sc⦄, Between flow outer true found sc → ∀ t m,
    ∃ k' sc' b m', Between flow outer k' (ls.reverse ++ found) sc' ∧ Blank b ∧
      Goes sc ⟨inner ++ c :: t, m⟩ sc' ⟨b ++ c :: t, m'⟩

theorem fills_blank {b : List Char} (hb : Blank b) (c : Char) : Fills c b [] :=
  fun _ _ _ _ hsc _ m => ⟨true, _, b, m, hsc, hb, Goes.refl _ _⟩

theorem Scans.fills {p : Phrase} {s : List Char} {ls : List Lexeme} (h : Scans p s ls) {c : Char} {lexeme : Lexeme}
    (hc : closing c lexeme) : Fills c s ls := by
  intro flow outer found sc hsc t m
  exact h hsc (fun _ => rfl) Json.blank_nil Json.blank_nil (by rcases hc with ⟨rfl, _⟩ | ⟨rfl, _⟩ <;> simp) t m

/-- Brackets around what stands between them. -/
theorem Fills.scans {p : Phrase} {c₁ c₂ : Char} {l₁ l₂ : Lexeme} {inner : List Char} {ls : List Lexeme}
    (h : Fills c₂ inner ls) (h₁ : opening c₁ l₁) (h₂ : closing c₂ l₂) :
    Scans p (c₁ :: inner ++ [c₂]) (l₁ :: ls ++ [l₂]) := by
  intro flow outer k found sc hsc _ before after hbefore hafter c _ t m
  obtain ⟨around, sc₁, m₁, ha, hbetween₁, hgoes₁⟩ :=
    goes_open hsc hbefore h₁ (inner ++ c₂ :: (after ++ c :: t)) m
  obtain ⟨k₂, sc₂, b, m₂, hbetween₂, hb, hgoes₂⟩ := h hbetween₁ (after ++ c :: t) m₁
  obtain ⟨tokens, count, m₃, hfound, hgoes₃⟩ := goes_close hbetween₂ hb h₂ (after ++ c :: t) m₂
  refine ⟨false, _, after, m₃, ⟨around, tokens, count, ha, ?_, rfl⟩, hafter, ?_⟩
  · simpa using hfound
  · exact ((hgoes₁.trans hgoes₂).trans hgoes₃).of_eq (by simp)

/-- A comma between phrases. -/
theorem Scans.comma {p q r : Phrase} {s t : List Char} {ls ls' : List Lexeme} (hs : Scans p s ls) (ht : Scans q t ls')
    (hkey : beginsWithKey p = true → beginsWithKey r = true) : Scans r (s ++ ',' :: t) (ls ++ .flowEntry :: ls') := by
  intro flow outer k found sc hsc hk before after hbefore hafter c hc rest m
  obtain ⟨k₁, sc₁, b₁, m₁, hbetween₁, hb₁, hgoes₁⟩ := hs hsc (hk ∘ hkey) hbefore Json.blank_nil (.inl rfl)
    (t ++ (after ++ c :: rest)) m
  obtain ⟨sc₂, m₂, hbetween₂, hgoes₂⟩ := goes_comma hbetween₁ hb₁ (t ++ (after ++ c :: rest)) m₁
  obtain ⟨k₃, sc₃, b₃, m₃, hbetween₃, hb₃, hgoes₃⟩ := ht hbetween₂ (fun _ => rfl) Json.blank_nil hafter hc rest m₂
  refine ⟨k₃, sc₃, b₃, m₃, by simpa using hbetween₃, hb₃, ?_⟩
  exact ((hgoes₁.trans hgoes₂).trans hgoes₃).of_eq (by simp)

/-- Blanks around a phrase. -/
theorem Scans.blanks {p q : Phrase} {s b b' : List Char} {ls : List Lexeme} (h : Scans p s ls) (hb : Blank b)
    (hb' : Blank b') (hkey : beginsWithKey p = true → beginsWithKey q = true) : Scans q (b ++ s ++ b') ls := by
  intro flow outer k found sc hsc hk before after hbefore hafter c hc rest m
  obtain ⟨k', sc', b₁, m', hbetween, hb₁, hgoes⟩ :=
    h hsc (hk ∘ hkey) (hbefore.append hb) (hb'.append hafter) hc rest m
  exact ⟨k', sc', b₁, m', hbetween, hb₁, hgoes.of_eq (by simp)⟩

/-- A key and its colon before a phrase. -/
theorem Scans.key {p : Phrase} {key : String} {v : Value} {b k b' s : List Char} {ls : List Lexeme} (h : Scans p s ls)
    (hp : beginsWithKey p = false) (hb : Blank b) (hk : Json.Quoted portable key k) (hcolon : portable.colon k b') :
    Scans (.member key v) (b ++ k ++ b' ++ ':' :: s) (.key :: .scalar key .double :: .value :: ls) := by
  intro flow outer allowed found sc hsc hallowed before after hbefore hafter c hc rest m
  obtain rfl := hallowed rfl
  obtain ⟨sc₁, m₁, hbetween₁, hgoes₁⟩ := goes_key hsc (hbefore.append hb) hk hcolon (s ++ (after ++ c :: rest)) m
  obtain ⟨k₂, sc₂, b₂, m₂, hbetween₂, hb₂, hgoes₂⟩ := h hbetween₁ (fun h => by simp [hp] at h) Json.blank_nil hafter hc
    rest m₁
  exact ⟨k₂, sc₂, b₂, m₂, by simpa using hbetween₂, hb₂, (hgoes₁.trans hgoes₂).of_eq (by simp)⟩

/-- **A phrase is scanned** as the tokens that it is made of. -/
theorem scans_of_derives {p : Phrase} {s : List Char} (h : Derives portable p s) : ∃ ls, Lexed p ls ∧ Scans p s ls := by
  induction h with
  | null => exact ⟨_, .null, scans_word (by simp) rfl⟩
  | true => exact ⟨_, .true, scans_word (by simp) rfl⟩
  | false => exact ⟨_, .false, scans_word (by simp) rfl⟩
  | natural n => exact ⟨_, .natural n, scans_word Nat.toDigits_ne_nil <| List.all_eq_true.2 fun x hx => by
    simp [Char.isAlphanum, Text.Digit.isDigit_of_mem x hx]⟩
  | string hs => exact ⟨_, .string _, scans_string hs⟩
  | emptyList hb => exact ⟨_, .emptyList, (fills_blank hb _).scans (.inl ⟨rfl, rfl⟩) (.inl ⟨rfl, rfl⟩)⟩
  | list _ ih =>
    obtain ⟨ls, hlexed, hscans⟩ := ih
    exact ⟨_, .list hlexed, (hscans.fills (.inl ⟨rfl, rfl⟩)).scans (.inl ⟨rfl, rfl⟩) (.inl ⟨rfl, rfl⟩)⟩
  | emptyObject hb => exact ⟨_, .emptyObject, (fills_blank hb _).scans (.inr ⟨rfl, rfl⟩) (.inr ⟨rfl, rfl⟩)⟩
  | object _ ih =>
    obtain ⟨ls, hlexed, hscans⟩ := ih
    exact ⟨_, .object hlexed, (hscans.fills (.inr ⟨rfl, rfl⟩)).scans (.inr ⟨rfl, rfl⟩) (.inr ⟨rfl, rfl⟩)⟩
  | element hb _ hb' ih =>
    obtain ⟨ls, hlexed, hscans⟩ := ih
    exact ⟨ls, .element hlexed, hscans.blanks hb hb' fun h => h⟩
  | item _ ih =>
    obtain ⟨ls, hlexed, hscans⟩ := ih
    exact ⟨ls, .item hlexed, hscans⟩
  | items _ _ ih ih' =>
    obtain ⟨ls, hlexed, hscans⟩ := ih
    obtain ⟨ls', hlexed', hscans'⟩ := ih'
    exact ⟨_, .items hlexed hlexed', hscans.comma hscans' fun h => h⟩
  | member hb hk _ hcolon _ ih =>
    obtain ⟨ls, hlexed, hscans⟩ := ih
    exact ⟨_, .member hlexed, hscans.key rfl hb hk hcolon⟩
  | field _ ih =>
    obtain ⟨ls, hlexed, hscans⟩ := ih
    exact ⟨ls, .field hlexed, hscans⟩
  | fields _ _ ih ih' =>
    obtain ⟨ls, hlexed, hscans⟩ := ih
    obtain ⟨ls', hlexed', hscans'⟩ := ih'
    exact ⟨_, .fields hlexed hlexed', hscans.comma hscans' fun h => h⟩

/-- The end of a text, behind blanks. -/
theorem run_end {flow : Nat} {inside k k' : Bool} {candidate : Option KeyCandidate} {outer : List (Option KeyCandidate)}
    {tokens : List Token} {count : Nat} {m m' : Mark} {b : List Char} (hb : Passes inside k m b k' m')
    (h : Free candidate) {fuel : Nat} (hf : b.length < fuel) (hin : inside = decide (flow ≠ 0)) :
    ∃ m', (flat flow k candidate outer tokens count).run ⟨b, m⟩ fuel =
      some (tokens.reverse ++ [⟨.streamEnd, m', m'⟩]) := by
  subst hin
  obtain ⟨fuel, rfl⟩ : ∃ n, fuel = n + 1 := ⟨fuel - 1, by omega⟩
  have hstops : Stops [] := fun _ hx => by cases hx
  have hpassed : toToken (flat flow k candidate outer tokens count).inFlow k ⟨b, m⟩ (fuel + 1) = (k', ⟨[], m'⟩) := by
    have h := toToken_passes hb hstops hf
    rwa [List.append_nil] at h
  have hleave : ((flat flow k candidate outer tokens count).allowKey k').leave m'.column m' =
      flat flow k' candidate outer tokens count := leave_flat _
  have hfinish : ∀ m, (flat flow k' candidate outer tokens count).leaveAll? m =
      some ((flat flow k' none outer tokens count).allowKey false) := fun m => by
    rw [leaveAll?, leave_flat, dropCandidate?_flat h]
    rfl
  rw [run, show (flat flow k candidate outer tokens count).keyAllowed = k from rfl, hpassed]
  refine ⟨if m'.column = 0 then m' else m'.newLine 0, ?_⟩
  simp only [hleave, finish, hfinish]
  simp [emit, allowKey, flat]

/-- What stands between the braces of an object. -/
theorem exists_fills {fields : Fields Value} {body : List Char} (h : Derives portable (.value (.object fields)) body) :
    ∃ inner ls, body = '\x7b' :: inner ++ ['\x7d'] ∧ Fills '\x7d' inner ls ∧
      Lexed (.value (.object fields)) (.flowMappingStart :: ls ++ [.flowMappingEnd]) := by
  cases h with
  | emptyObject hb => exact ⟨_, [], rfl, fills_blank hb _, .emptyObject⟩
  | object h =>
    obtain ⟨ls, hlexed, hscans⟩ := scans_of_derives h
    exact ⟨_, ls, rfl, hscans.fills (.inr ⟨rfl, rfl⟩), .object hlexed⟩

end Scanner

/-! ## What may stand in a document -/

theorem isAllowed_of_range {c : Char} (h : 0x20 ≤ c.toNat) (h' : c.toNat ≤ 0x7E) : isAllowed c = true := by
  simp [isAllowed, h, h']

theorem isAllowed_of_isDigit {c : Char} (h : c.isDigit = true) : isAllowed c = true := by
  simp only [Char.isDigit, Bool.and_eq_true, decide_eq_true_eq] at h
  exact isAllowed_of_range (Nat.le_trans (by decide) h.1) (Nat.le_trans h.2 (by decide))

theorem isAllowed_of_value? {c : Char} {n : Nat} (h : Text.Digit.value? 16 c = some n) : isAllowed c = true := by
  rcases Text.Digit.range_of_value? (Nat.le_refl 16) h with ⟨hl, hr⟩ | ⟨hl, hr⟩ | ⟨hl, hr⟩
  all_goals exact isAllowed_of_range (Nat.le_trans (by decide) hl) (Nat.le_trans hr (by decide))

theorem allowed_of_blank {b : List Char} (h : Blank b) : b.all isAllowed = true := List.all_eq_true.2 fun c hc => by
  have hspace := h c hc
  simp only [Json.isSpace, Bool.or_eq_true, decide_eq_true_eq] at hspace
  rcases hspace with ((rfl | rfl) | rfl) | rfl <;> decide

theorem Alike.allowed {c : Char} {s : List Char} (h : Alike c s) : s.all isAllowed = true := by
  cases h with
  | plain hplain => simp [(isPlain_iff.1 hplain).2.2.2.1]
  | short hm =>
    simp only [Json.shortEscapes, List.mem_cons, Prod.mk.injEq, List.not_mem_nil, or_false] at hm
    rcases hm with ⟨rfl, _⟩ | ⟨rfl, _⟩ | ⟨rfl, _⟩ | ⟨rfl, _⟩ | ⟨rfl, _⟩ | ⟨rfl, _⟩ | ⟨rfl, _⟩ | ⟨rfl, _⟩ <;> decide
  | @code _ digits _ hn =>
    have hdigits : digits.all isAllowed = true := List.all_eq_true.2 fun x hx => by
      obtain ⟨d, hd⟩ := Text.Digit.value?_of_appendTo hn x hx
      exact isAllowed_of_value? hd
    have hfirst : isAllowed '\\' = true ∧ isAllowed 'u' = true := by decide
    simp only [List.all_cons, hfirst, hdigits, Bool.and_self]

theorem allowed_of_body {text written : List Char} (h : Json.Body portable text written) :
    written.all isAllowed = true := by
  induction h with
  | nil => rfl
  | cons hc _ ih => simp only [List.all_append, Alike.allowed hc, ih, Bool.and_self]

theorem allowed_of_quoted {text : String} {s : List Char} (h : Json.Quoted portable text s) :
    s.all isAllowed = true := by
  obtain ⟨written, hw, _, rfl⟩ := h
  have hquote : isAllowed '"' = true := by decide
  simp only [List.cons_append, List.all_cons, List.all_append, hquote, allowed_of_body hw, List.all_nil, Bool.and_self]

/-- All characters of a phrase may stand in a document. -/
theorem allowed_of_derives {p : Phrase} {s : List Char} (h : Derives portable p s) : s.all isAllowed = true := by
  have hmarks : isAllowed '[' = true ∧ isAllowed ']' = true ∧ isAllowed '\x7b' = true ∧ isAllowed '\x7d' = true ∧
      isAllowed ',' = true ∧ isAllowed ':' = true := by decide
  induction h with
  | null | true | false => decide
  | natural n => exact List.all_eq_true.2 fun c hc => isAllowed_of_isDigit (Text.Digit.isDigit_of_mem c hc)
  | string hs => exact allowed_of_quoted hs
  | emptyList hb | emptyObject hb =>
    simp only [List.cons_append, List.all_cons, List.all_append, hmarks, allowed_of_blank hb, List.all_nil, Bool.and_self]
  | list _ ih | object _ ih =>
    simp only [List.cons_append, List.all_cons, List.all_append, hmarks, ih, List.all_nil, Bool.and_self]
  | element hb _ hb' ih => simp only [List.all_append, allowed_of_blank hb, ih, allowed_of_blank hb', Bool.and_self]
  | item _ ih | field _ ih => exact ih
  | items _ _ ih ih' | fields _ _ ih ih' =>
    simp only [List.all_append, List.all_cons, ih, hmarks, ih', Bool.and_self]
  | member hb hk hb' _ _ ih =>
    simp only [List.all_append, List.all_cons, allowed_of_blank hb, allowed_of_quoted hk, allowed_of_blank hb', hmarks, ih,
      Bool.and_self]

/-! ## Documents -/

/-- **A document that is read alike**: an object of the portable dialect, with blanks around it. No tab stands before
the object, nor behind it but on its last line. -/
def Portable (fields : Fields Value) (s : List Char) : Prop :=
  ∃ before body line after, Blank before ∧ '\t' ∉ before ∧ Derives portable (.value (.object fields)) body ∧
    (∀ c ∈ line, isBlank c = true) ∧ Blank after ∧ '\t' ∉ after ∧ s = before ++ (body ++ (line ++ after))

theorem blank_of_isBlank {line : List Char} (h : ∀ c ∈ line, isBlank c = true) : Blank line := fun c hc => by
  have hblank := h c hc
  simp only [isBlank, Bool.or_eq_true, decide_eq_true_eq] at hblank
  rcases hblank with rfl | rfl <;> decide

/-- A document that is read alike is a JSON text. -/
theorem Portable.derives {fields : Fields Value} {s : List Char} (h : Portable fields s) :
    Derives Json.standard (.element (.object fields)) s := by
  obtain ⟨before, body, line, after, hbefore, _, hbody, hline, hafter, _, rfl⟩ := h
  have hstandard : Derives Json.standard (.value (.object fields)) body :=
    hbody.mono (fun _ _ => Alike.spelled) (fun _ _ => trivial) fun _ _ _ => trivial
  rw [← List.append_assoc]
  exact .element hbefore hstandard ((blank_of_isBlank hline).append hafter)

theorem Portable.allowed {fields : Fields Value} {s : List Char} (h : Portable fields s) : s.all isAllowed = true := by
  obtain ⟨before, body, line, after, hbefore, _, hbody, hline, hafter, _, rfl⟩ := h
  have hline' := allowed_of_blank (blank_of_isBlank hline)
  simp only [List.all_append, allowed_of_blank hbefore, allowed_of_derives hbody, hline', allowed_of_blank hafter,
    Bool.and_self]

/-- A document begins with a blank or with a brace. -/
theorem Portable.head_ne {fields : Fields Value} {s : List Char} (h : Portable fields s) :
    s.head? ≠ some byteOrderMark := by
  obtain ⟨before, body, line, after, hbefore, _, hbody, _, _, _, rfl⟩ := h
  obtain ⟨inner, ls, rfl, _⟩ := Scanner.exists_fills hbody
  cases before with
  | nil => simp [byteOrderMark]
  | cons c before =>
    intro hhead
    cases hhead
    exact absurd (hbefore _ List.mem_cons_self) (by decide)

open Scanner in
/-- The scanner finds the tokens of a document. -/
theorem run_portable {fields : Fields Value} {s : List Char} (h : Portable fields s) {fuel : Nat}
    (hf : s.length < fuel) : ∃ ls tokens, Lexed (.value (.object fields)) ls ∧
      Scanner.start.run ⟨s, .start⟩ fuel = some tokens ∧ tokens.map Token.lexeme = ls ++ [.streamEnd] := by
  obtain ⟨before, body, line, after, hbefore, htab, hbody, hline, hafter, htab', rfl⟩ := h
  obtain ⟨inner, ls, rfl, hfills, hlexed⟩ := exists_fills hbody
  -- the opening brace
  obtain ⟨k, m, hpasses⟩ := @exists_passes false true _ hbefore (.inr htab) .start
  obtain rfl := hpasses.key_allowed rfl
  have hbrace : opening '\x7b' .flowMappingStart := .inr ⟨rfl, rfl⟩
  obtain ⟨htoken, hstops⟩ :=
    @token_opening (inner ++ '\x7d' :: (line ++ after)) '\x7b' _ hbrace (flat 0 true none [] [] 0) m
  have hopen : Goes Scanner.start ⟨before ++ '\x7b' :: (inner ++ '\x7d' :: (line ++ after)), .start⟩ _ _ :=
    goes_token hpasses hstops (htoken.trans (openBracket_flat free_none _ _)) (Nat.le_refl _) rfl
  -- what stands between the braces, and the closing brace
  have hopened : Between 0 [saved true none 0 m] true [.flowMappingStart] _ :=
    ⟨none, [⟨.flowMappingStart, m, m.next⟩], 1, free_none, rfl, rfl⟩
  obtain ⟨k₁, sc₁, b, m₁, hbetween, hb, hinner⟩ := hfills hopened (line ++ after) m.next
  obtain ⟨tokens, count, m₂, hfound, hclose⟩ := goes_close hbetween hb (.inr ⟨rfl, rfl⟩) (line ++ after) m₁
  -- the end
  obtain ⟨k₃, m₃, hpasses'⟩ := @exists_passes false false _ hafter (.inr htab') (m₂.past line.length)
  obtain ⟨fuel', hf', hrun⟩ := ((hopen.trans hinner).trans hclose) fuel (by simpa using hf)
  have hflow : false = decide ((0 : Nat) ≠ 0) := rfl
  obtain ⟨m₄, hend⟩ := run_end (Passes.line rfl hline hpasses') (free_saved free_none) hf' hflow
  refine ⟨_, _, hlexed, (Eq.trans ?_ hrun).trans hend, ?_⟩
  · simp
  · simp [hfound]

/-- **The tokens of a document** that is read alike. -/
theorem tokens?_of_portable {fields : Fields Value} {s : List Char} (h : Portable fields s) :
    ∃ ls tokens, Lexed (.value (.object fields)) ls ∧ tokens? s = some tokens ∧
      tokens.map Token.lexeme = ls ++ [.streamEnd] := by
  have hallowed : s.all isAllowed = true := h.allowed
  have hmark : s.head? ≠ some byteOrderMark := h.head_ne
  obtain ⟨ls, tokens, hlexed, hrun, hfound⟩ := run_portable h (Nat.lt_add_of_pos_right (Nat.zero_lt_two))
  refine ⟨ls, tokens, hlexed, ?_, hfound⟩
  simpa [tokens?, hmark, hallowed] using hrun

end RunAudit.Yaml
