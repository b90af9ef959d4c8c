import RunAudit.Text.Blank
import RunAudit.Yaml.Node

/-!
# Texts of white space

A text that is all white space holds no indicator, so the scanner finds nothing but plain scalars in it
(`Scanner.Bare.run`), and its document is no collection (`root_ne_mapping_of_isBlank`).
-/

namespace RunAudit.Yaml

/-- Only white space. -/
def White (s : List Char) : Prop := ∀ c ∈ s, Text.Blank.isSpace c = true

/-! ## What is left of white space -/

theorem White.of_subset {s t : List Char} (h : White t) (hs : s ⊆ t) : White s := fun c hc => h c (hs hc)

theorem White.of_suffix {s t : List Char} (h : White t) (hs : s <:+ t) : White s := h.of_subset hs.subset

theorem suffix_dropWhile (r : Rest) (p : Char → Bool) : (r.dropWhile p).text <:+ r.text := List.dropWhile_suffix p

theorem suffix_skipBreak (r : Rest) : r.skipBreak.text <:+ r.text := by
  obtain ⟨text, m⟩ := r
  unfold Rest.skipBreak
  split
  · exact ⟨['\r', '\n'], (by assumption : text = _).symm⟩
  · split
    · exact ⟨[_], (by assumption : text = _).symm⟩
    · exact List.suffix_rfl
  · exact List.suffix_rfl

/-- Blanks and comments are passed over to the end of them. -/
theorem suffix_toToken (flow : Bool) : ∀ (fuel : Nat) (keyAllowed : Bool) (r : Rest),
    (toToken flow keyAllowed r fuel).2.text <:+ r.text
  | 0, _, _ => List.suffix_rfl
  | fuel + 1, keyAllowed, r => by
    have hblanks := suffix_dropWhile r fun c => c = ' ' || (c = '\t' && (flow || !keyAllowed))
    generalize hr : (r.dropWhile fun c => c = ' ' || (c = '\t' && (flow || !keyAllowed))) = r₁ at hblanks
    have hcomment : (if r₁.text.head? = some '#' then r₁.dropWhile fun c => !isBreak c else r₁).text <:+ r₁.text := by
      split
      · exact suffix_dropWhile _ _
      · exact List.suffix_rfl
    rw [toToken, hr]
    generalize (if r₁.text.head? = some '#' then r₁.dropWhile fun c => !isBreak c else r₁) = r₂ at hcomment ⊢
    split
    · exact ((suffix_toToken flow fuel _ _).trans (suffix_skipBreak _)).trans (hcomment.trans hblanks)
    · exact hcomment.trans hblanks

/-- A plain scalar ends in the text. -/
theorem suffix_read {flow : Bool} {indent : Int} {text s : List Char} {gap : Gap} {m : Mark} {result : Plain.Result}
    (h : Plain.read flow indent text gap s m = some result) : result.rest.text <:+ s := by
  fun_induction Plain.read flow indent text gap s m with
  | case1 =>
    exact Option.some.inj h ▸ List.suffix_rfl
  | case2 _ _ _ rest ih => exact (ih h).trans ⟨['\r', '\n'], rfl⟩
  | case3 _ _ _ c rest _ _ ih => exact (ih h).trans (List.suffix_cons _ _)
  | case4 => cases h
  | case5 _ _ _ c rest _ _ _ _ ih => exact (ih h).trans (List.suffix_cons _ _)
  | case6 => cases h
  | case7 =>
    exact Option.some.inj h ▸ List.suffix_rfl
  | case8 _ _ _ c rest _ _ _ _ _ ih => exact (ih h).trans (List.suffix_cons _ _)

/-! ## Plain scalars and nothing else -/

/-- A token that is a plain scalar. -/
def Token.IsPlain (t : Token) : Prop := ∃ text, t.lexeme = .scalar text .plain

namespace Scanner

/-- A scanner outside of every collection that has found plain scalars only. -/
structure Bare (sc : Scanner) : Prop where
  flow : sc.flow = 0
  outer : sc.outer = []
  tokens : ∀ t ∈ sc.tokens, t.IsPlain

variable {sc sc' : Scanner}

theorem bare_start : Scanner.start.Bare := ⟨rfl, rfl, fun t ht => by cases ht⟩

theorem Bare.dropCandidate? (h : sc.Bare) (hdrop : sc.dropCandidate? = some sc') : sc'.Bare := by
  unfold Scanner.dropCandidate? at hdrop
  split at hdrop
  · split at hdrop
    · cases hdrop
    · cases hdrop
      exact ⟨h.flow, h.outer, h.tokens⟩
  · cases hdrop
    exact h

theorem Bare.saveCandidate? (h : sc.Bare) {m : Mark} (hsave : sc.saveCandidate? m = some sc') : sc'.Bare := by
  unfold Scanner.saveCandidate? at hsave
  split at hsave
  · obtain ⟨sc₁, hdrop, rfl⟩ := Option.map_eq_some_iff.1 hsave
    have h₁ := h.dropCandidate? hdrop
    exact ⟨h₁.flow, h₁.outer, h₁.tokens⟩
  · cases hsave
    exact h

/-- No collection ends where none is open. -/
theorem Bare.leave (h : sc.Bare) (column : Int) (m : Mark) : sc.leave column m = sc := by
  rw [Scanner.leave, h.outer, leaveTo, ite_self]

/-- A plain scalar is found, and what is left is behind it. -/
theorem Bare.plainScalar (h : sc.Bare) {r r' : Rest} (hscalar : sc.plainScalar r = some (sc', r')) :
    sc'.Bare ∧ r'.text <:+ r.text := by
  simp only [Scanner.plainScalar, Option.bind_eq_bind, Option.bind_eq_some_iff, Option.pure_def, Option.some.injEq,
    Prod.mk.injEq] at hscalar
  obtain ⟨sc₁, hsave, result, hread, rfl, rfl⟩ := hscalar
  have h₁ := h.saveCandidate? hsave
  exact ⟨⟨h₁.flow, h₁.outer, List.forall_mem_cons.2 ⟨⟨_, rfl⟩, h₁.tokens⟩⟩, suffix_read hread⟩

/-- White space is no indicator, so no other token begins with it. -/
theorem plainScalar_of_token {r r' : Rest} {c : Char} {rest : List Char} (hr : r.text = c :: rest)
    (hc : Text.Blank.isSpace c = true) (htoken : sc.token r c rest = some (sc', r')) :
    sc.plainScalar r = some (sc', r') := by
  have hne : ∀ x, Text.Blank.isSpace x = false → c ≠ x := by
    rintro x hx rfl
    rw [hc] at hx
    cases hx
  have hmark : startsWithDocumentMark r.text = false := by
    rw [hr]
    unfold startsWithDocumentMark
    split
    · rename_i heq
      exact absurd (List.cons.inj heq).1 (hne _ (by decide))
    · rename_i heq
      exact absurd (List.cons.inj heq).1 (hne _ (by decide))
    · rfl
  unfold Scanner.token at htoken
  simp only [hne '%' (by decide), hmark, decide_false, Bool.and_false, Bool.false_eq_true, if_false] at htoken
  split at htoken
  case h_16 =>
    split at htoken
    · exact htoken
    · cases htoken
  all_goals exact absurd rfl (hne _ (by decide))

/-- **In white space**, the scanner finds plain scalars and the end. -/
theorem Bare.run : ∀ {fuel : Nat} {sc : Scanner} {r : Rest} {tokens : List Token}, sc.Bare → White r.text →
    sc.run r fuel = some tokens → ∀ t ∈ tokens, t.IsPlain ∨ t.lexeme = .streamEnd
  | 0, _, _, _, _, _, hrun => by cases hrun
  | fuel + 1, sc, r, tokens, h, hwhite, hrun => by
    rw [Scanner.run] at hrun
    have hleft := hwhite.of_suffix (suffix_toToken sc.inFlow (fuel + 1) sc.keyAllowed r)
    generalize toToken sc.inFlow sc.keyAllowed r (fuel + 1) = front at hrun hleft
    obtain ⟨keyAllowed, r₁⟩ := front
    have h₁ : (sc.allowKey keyAllowed).Bare := ⟨h.flow, h.outer, h.tokens⟩
    simp only [h₁.leave] at hrun
    split at hrun
    · obtain ⟨sc₂, hleave, rfl⟩ := Option.map_eq_some_iff.1 hrun
      rw [Scanner.leaveAll?, h₁.leave] at hleave
      obtain ⟨sc₃, hdrop, rfl⟩ := Option.map_eq_some_iff.1 hleave
      intro t ht
      rcases List.mem_cons.1 (List.mem_reverse.1 ht) with rfl | ht
      · exact .inr rfl
      · exact .inl ((h₁.dropCandidate? hdrop).tokens t ht)
    · rename_i c rest hr
      split at hrun
      · rename_i sc₂ r₂ htoken
        have hc : Text.Blank.isSpace c = true := hleft c (hr ▸ List.mem_cons_self)
        obtain ⟨h₂, hsuffix⟩ := h₁.plainScalar (plainScalar_of_token hr hc htoken)
        exact h₂.run (hleft.of_suffix hsuffix) hrun
      · cases hrun

end Scanner

/-- The tokens of white space. -/
theorem plain_of_tokens? {text : List Char} (h : White text) {tokens : List Token}
    (htokens : tokens? text = some tokens) : ∀ t ∈ tokens, t.IsPlain ∨ t.lexeme = .streamEnd := by
  have hmark : ∀ s, White s → s.head? ≠ some byteOrderMark := by
    intro s hs hhead
    exact absurd (hs byteOrderMark (List.mem_of_mem_head? hhead)) (by decide)
  rw [tokens?, if_neg (hmark text h)] at htokens
  simp only [if_neg (hmark text h)] at htokens
  split at htokens
  · cases htokens
  · exact Scanner.bare_start.run h htokens

/-! ## Documents of one scalar -/

/-- The events of a document that begins with a plain scalar. -/
theorem ofTokens?_plain {t : Token} {rest : List Token} {events : List Event} (ht : t.IsPlain)
    (h : Event.ofTokens? (t :: rest) = some events) :
    ∃ text m, events = [.scalar .none text .plain m] := by
  obtain ⟨lexeme, start, stop⟩ := t
  obtain ⟨text, rfl⟩ := ht
  simp only [Event.ofTokens?, Event.document?, Event.directives?, Option.bind_eq_bind, Option.bind_some,
    List.isEmpty_nil, Bool.not_true, Bool.or_false, Bool.false_eq_true, if_false, Option.bind_eq_some_iff] at h
  obtain ⟨⟨found, left⟩, hrun, h⟩ := h
  simp only [List.length_cons, Nat.mul_add, Event.run, Event.step, Event.node, Event.properties?, Event.content] at hrun
  split at h
  · cases h
    cases hrun
    exact ⟨text, start, rfl⟩
  · cases h

/-- **The document of white space** is no mapping. -/
theorem root_ne_mapping_of_isBlank {text : String} (h : Text.Blank.isBlank text = true) {d : Document}
    (hd : Document.ofText? text = some d) (entries : List (Node × Node)) (m : Mark) :
    d.root ≠ some (.mapping entries m) := by
  have hwhite : White text.toList := List.all_eq_true.1 h
  obtain ⟨events, hevents, hd⟩ := Option.bind_eq_some_iff.1 hd
  obtain ⟨tokens, htokens, hevents⟩ := Option.bind_eq_some_iff.1 hevents
  have hplain := plain_of_tokens? hwhite htokens
  obtain ⟨b, hb, rfl⟩ := Option.map_eq_some_iff.1 hd
  cases tokens with
  | nil => simp [Event.ofTokens?, Event.document?, Event.directives?, Event.run, Event.step, Event.node] at hevents
  | cons t rest =>
    rcases hplain t List.mem_cons_self with ht | ht
    · obtain ⟨text, mark, rfl⟩ := ofTokens?_plain ht hevents
      cases hb
      simp [Document.Builder.empty, Document.Builder.add, Properties.none]
    · obtain ⟨lexeme, start, stop⟩ := t
      cases ht
      cases hevents
      cases hb
      simp [Document.Builder.empty]

end RunAudit.Yaml
