import RunAudit.Proofs.Xml.Reading

/-!
# Texts that are cut off

The front of a text stays what it is when more text follows, unless it runs to the end: `Grows q s n n'` relates the
fronts of `s` and of `s` with `q` behind it (`grows_front`). A text that ends in `>` has no front that runs to the end.
So the tags of a text that is cut off are the first tags of the whole text, and only a last closing tag may have lost a
part of its name (`cut_scan`). A document that is left when another one is cut off is that document
(`parse_append_eq`): its root is closed, so none of the tags that were cut off can be taken.
-/

namespace RunAudit.Xml

/-! ## Parts of markup -/

theorem splitAtClose_append {accepts : List Char → Bool} (q : List Char) : ∀ {s before content rest : List Char},
    splitAtClose accepts before s = some (content, rest) →
      splitAtClose accepts before (s ++ q) = some (content, rest ++ q)
  | [], _, _, _, h => by simp [splitAtClose] at h
  | c :: s, before, content, rest, h => by
    simp only [splitAtClose, List.cons_append] at h ⊢
    split at h
    · rename_i hc
      simp only [Option.some.injEq, Prod.mk.injEq] at h
      rw [if_pos hc, h.1, h.2]
    · rename_i hc
      rw [if_neg hc, splitAtClose_append q h]

theorem tagContent_append (q : List Char) : ∀ {s : List Char} {quote : Option Char} {before content rest : List Char},
    tagContent quote before s = some (content, rest) → tagContent quote before (s ++ q) = some (content, rest ++ q)
  | [], _, _, _, _, h => by simp [tagContent] at h
  | c :: s, some _, before, content, rest, h => by
    simp only [tagContent, List.cons_append] at h ⊢
    exact tagContent_append q h
  | c :: s, none, before, content, rest, h => by
    simp only [tagContent, List.cons_append] at h ⊢
    split at h
    · rename_i hc
      simp only [Option.some.injEq, Prod.mk.injEq] at h
      rw [if_pos hc, h.1, h.2]
    · rename_i hc
      rw [if_neg hc, tagContent_append q h]

/-- A text with a `>` is split there, whatever follows. -/
theorem untilClose_append (q : List Char) : ∀ {s : List Char}, '>' ∈ s → untilClose (s ++ q) = untilClose s
  | c :: s, h => by
    rw [List.cons_append, untilClose_cons, untilClose_cons]
    split
    · rfl
    · rename_i hc
      rw [untilClose_append q ((List.mem_cons.1 h).resolve_left (Ne.symm hc))]

theorem afterClose_append (q : List Char) : ∀ {s : List Char}, '>' ∈ s → afterClose (s ++ q) = afterClose s ++ q
  | c :: s, h => by
    rw [List.cons_append, afterClose_cons, afterClose_cons]
    split
    · rfl
    · rename_i hc
      exact afterClose_append q ((List.mem_cons.1 h).resolve_left (Ne.symm hc))

/-- What follows a split, a tag or a `>` is an end of the text. -/
theorem suffix_splitAtClose {accepts : List Char → Bool} : ∀ {s before content rest : List Char},
    splitAtClose accepts before s = some (content, rest) → rest <:+ s
  | [], _, _, _, h => by simp [splitAtClose] at h
  | c :: s, before, content, rest, h => by
    simp only [splitAtClose] at h
    split at h
    · simp only [Option.some.injEq, Prod.mk.injEq] at h
      exact h.2 ▸ List.suffix_cons c s
    · exact (suffix_splitAtClose h).trans (List.suffix_cons c s)

theorem suffix_tagContent : ∀ {s : List Char} {quote : Option Char} {before content rest : List Char},
    tagContent quote before s = some (content, rest) → rest <:+ s
  | [], _, _, _, _, h => by simp [tagContent] at h
  | c :: s, some _, before, content, rest, h => by
    simp only [tagContent] at h
    exact (suffix_tagContent h).trans (List.suffix_cons c s)
  | c :: s, none, before, content, rest, h => by
    simp only [tagContent] at h
    split at h
    · simp only [Option.some.injEq, Prod.mk.injEq] at h
      exact h.2 ▸ List.suffix_cons c s
    · exact (suffix_tagContent h).trans (List.suffix_cons c s)

theorem suffix_afterClose (s : List Char) : afterClose s <:+ s :=
  (List.drop_suffix 1 _).trans (List.dropWhile_suffix _)

/-- Without a `>` nothing follows. -/
theorem afterClose_eq_nil : ∀ {s : List Char}, '>' ∉ s → afterClose s = []
  | [], _ => rfl
  | c :: s, h => by
    obtain ⟨hc, hs⟩ := not_or.1 (mt List.mem_cons.2 h)
    rw [afterClose_cons, if_neg (Ne.symm hc)]
    exact afterClose_eq_nil hs

/-! ## Fronts -/

/-- A text whose end leaves no tag open: it ends in `>`, if it does not end at once. -/
def Finished (s : List Char) : Prop := ∀ c ∈ s.getLast?, c = '>'

theorem Finished.suffix {s rest : List Char} (h : Finished s) (hr : rest <:+ s) : Finished rest := by
  obtain ⟨front, rfl⟩ := hr
  intro c hc
  exact h c (by rw [List.getLast?_append, Option.mem_def.1 hc]; rfl)

/-- A text without a `>` is unfinished after any other character. -/
theorem not_finished_of_not_mem {c : Char} {s : List Char} (hc : c ≠ '>') (hs : '>' ∉ s) : ¬Finished (c :: s) := by
  intro h
  have hl := List.getLast_mem (List.cons_ne_nil c s)
  rw [h _ (Option.mem_def.2 (List.getLast?_eq_some_getLast (List.cons_ne_nil c s)))] at hl
  rcases List.mem_cons.1 hl with hl | hl
  · exact hc hl.symm
  · exact hs hl

/-- **The front of a text** `s` and the front of the text with `q` behind it. Where there is a fault, and where a `<`,
an instruction or a closing tag runs to the end, more text may change it. -/
inductive Grows (q s : List Char) : Next → Next → Prop
  | text : Grows q s .done (front q).next
  | bracket (h : ¬Finished s) (n : Next) : Grows q s .done n
  | fault (f : Fault) (n : Next) : Grows q s (.fault f) n
  | ignored {rest : List Char} (h : rest <:+ s) : Grows q s (.ignored rest) (.ignored (rest ++ q))
  | item (i : Item) {rest : List Char} (h : rest <:+ s) : Grows q s (.item i rest) (.item i (rest ++ q))
  | instruction (h : ¬Finished s) (n : Next) : Grows q s (.ignored []) n
  | closing (h : ¬Finished s) (name name' rest : List Char) :
      Grows q s (.item (.closing name) []) (.item (.closing name') rest)

/-- A character in front. -/
theorem Grows.cons {q s : List Char} {n n' : Next} (h : Grows q s n n') (c : Char) : Grows q (c :: s) n n' := by
  have hf : ¬Finished s → ¬Finished (c :: s) := mt fun h => h.suffix (List.suffix_cons c s)
  cases h with
  | text => exact .text
  | bracket h => exact .bracket (hf h) _
  | fault f => exact .fault f _
  | ignored h => exact .ignored (h.trans (List.suffix_cons c s))
  | item i h => exact .item i (h.trans (List.suffix_cons c s))
  | instruction h => exact .instruction (hf h) _
  | closing h name name' rest => exact .closing (hf h) name name' rest

/-- A declaration that is closed stays as it is. -/
theorem grows_ofSplit {q s : List Char} {split split' : Option (List Char × List Char)}
    (h : ∀ {content rest}, split = some (content, rest) → rest <:+ s ∧ split' = some (content, rest ++ q))
    (wrong : List Char → Option Fault) (f : Fault) : Grows q s (.ofSplit split wrong f) (.ofSplit split' wrong f) := by
  cases hs : split with
  | none => exact .fault f _
  | some p =>
    obtain ⟨content, rest⟩ := p
    obtain ⟨hr, hs'⟩ := h hs
    rw [hs']
    simp only [Next.ofSplit]
    cases wrong content with
    | none => exact .ignored hr
    | some f => exact .fault f _

theorem grows_declaration (q : List Char) : ∀ s : List Char, Grows q s (declaration s).next (declaration (s ++ q)).next
  | [] => .fault _ _
  | c :: s => by
    rw [List.cons_append]
    by_cases h₁ : c = '-'
    · subst h₁
      rw [next_declaration_comment, next_declaration_comment]
      exact grows_ofSplit (fun h => ⟨suffix_splitAtClose h, splitAtClose_append q h⟩) _ _
    by_cases h₂ : c = '['
    · subst h₂
      rw [next_declaration_cdata, next_declaration_cdata]
      exact grows_ofSplit (fun h => ⟨suffix_splitAtClose h, splitAtClose_append q h⟩) _ _
    by_cases h₃ : c = 'D' ∨ c = 'd'
    · rw [next_declaration_doctype h₃, next_declaration_doctype h₃]
      exact grows_ofSplit (fun h => ⟨suffix_splitAtClose h, splitAtClose_append q h⟩) _ _
    · rw [next_declaration_other h₁ h₂ h₃]
      exact .fault _ _

/-- Markup, with its `<` in front. -/
theorem grows_markup (q : List Char) : ∀ s : List Char, Grows q ('<' :: s) (markup s).next (markup (s ++ q)).next
  | [] => .bracket (not_finished_of_not_mem (by decide) List.not_mem_nil) _
  | c :: s => by
    rw [List.cons_append]
    refine Grows.cons ?_ '<'
    by_cases h₁ : c = '!'
    · subst h₁
      rw [next_markup_bang, next_markup_bang]
      exact (grows_declaration q s).cons '!'
    by_cases h₂ : c = '/'
    · subst h₂
      rw [next_markup_slash, next_markup_slash]
      by_cases hs : '>' ∈ s
      · rw [untilClose_append q hs, afterClose_append q hs]
        exact .item _ ((suffix_afterClose s).trans (List.suffix_cons _ s))
      · rw [afterClose_eq_nil hs]
        exact .closing (not_finished_of_not_mem (by decide) hs) _ _ _
    by_cases h₃ : c = '?'
    · subst h₃
      rw [next_markup_question, next_markup_question]
      by_cases hs : '>' ∈ s
      · rw [untilClose_append q hs, afterClose_append q hs]
        split
        · exact .ignored ((suffix_afterClose s).trans (List.suffix_cons _ s))
        · exact .fault _ _
      · rw [afterClose_eq_nil hs]
        split
        · exact .instruction (not_finished_of_not_mem (by decide) hs) _
        · exact .fault _ _
    · rw [next_markup_tag ⟨h₁, h₂, h₃⟩, next_markup_tag ⟨h₁, h₂, h₃⟩, ← List.cons_append]
      cases ht : tagContent none [] (c :: s) with
      | none => exact .fault _ _
      | some p =>
        obtain ⟨content, rest⟩ := p
        rw [tagContent_append q ht]
        exact .item _ (suffix_tagContent ht)

/-- **The front of a text is told by the text**, unless it runs to the end. -/
theorem grows_front (q : List Char) : ∀ s : List Char, Grows q s (front s).next (front (s ++ q)).next
  | [] => by rw [next_front_nil]; exact .text
  | c :: s => by
    rw [List.cons_append]
    by_cases hc : c = '<'
    · subst hc
      rw [next_front_lt, next_front_lt]
      exact grows_markup q s
    · rw [next_front_of_ne hc, next_front_of_ne hc]
      exact (grows_front q s).cons c

/-! ## Tags -/

/-- The tags of a text that is cut off, and those of the whole text. -/
inductive Cut : List Item → List Item → Prop
  | nil (items : List Item) : Cut [] items
  | cons (i : Item) {items items' : List Item} : Cut items items' → Cut (i :: items) (i :: items')
  | closing (name name' : List Char) (items : List Item) : Cut [.closing name] (.closing name' :: items)

/-- **A text that is cut off has the first tags of the whole text.** -/
theorem cut_scan (q : List Char) {s : List Char} (h : (scan s).fault = none) :
    Cut (scan s).items (scan (s ++ q)).items := by
  induction hn : s.length using Nat.strongRecOn generalizing s with
  | _ n ih =>
    rw [scan_eq] at h ⊢
    rw [scan_eq (s ++ q)]
    have hg := grows_front q s
    cases hf : front s with
    | done => exact .nil _
    | fault f => simp [hf, Next.scan] at h
    | ignored rest shorter =>
      simp only [hf, Front.next_ignored, Next.scan] at h hg ⊢
      generalize (front (s ++ q)).next = n' at hg
      cases hg with
      | ignored _ => exact ih rest.length (hn ▸ shorter) h rfl
      | instruction _ =>
        rw [scan_nil]
        exact .nil _
    | item i rest shorter =>
      simp only [hf, Front.next_item, Next.scan, Scan.after, List.singleton_append] at h hg ⊢
      generalize (front (s ++ q)).next = n' at hg
      cases hg with
      | item _ _ => exact .cons i (ih rest.length (hn ▸ shorter) h rfl)
      | closing _ name name' rest' =>
        rw [scan_nil]
        exact .closing name name' _

/-- Of tags that are both read to the end, those of a text that is cut off do the first of what the others do. -/
theorem prefix_of_cut {items items' : List Item} (hc : Cut items items') :
    ∀ {o o₁ o₂ : List (List Char)} {es es' : List Event},
      Reads o items es o₁ → Reads o items' es' o₂ → es <+: es' := by
  induction hc with
  | nil items =>
    intro o o₁ o₂ es es' h _
    cases h
    exact List.nil_prefix
  | cons i _ ih =>
    intro o o₁ o₂ es es' h h'
    cases h with
    | cons hr h =>
      cases h' with
      | cons hr' h' =>
        rw [hr, Except.ok.injEq, Prod.mk.injEq] at hr'
        obtain ⟨rfl, rfl⟩ := hr'
        exact List.cons_prefix_cons.2 ⟨rfl, ih h h'⟩
  | closing name name' items =>
    intro o o₁ o₂ es es' h h'
    cases h with
    | cons hr h =>
      cases h
      cases h' with
      | cons hr' h' =>
        rw [readItem_closing hr, readItem_closing hr']
        exact List.cons_prefix_cons.2 ⟨rfl, List.nil_prefix⟩

/-! ## Documents -/

/-- **A document that is left when another one is cut off is that document.** -/
theorem parse_append_eq {s q : List Char} {d d' : Document} (hs : Document.parse s = .ok d)
    (hq : Document.parse (s ++ q) = .ok d') : d = d' := by
  obtain ⟨es, o, b, hf, hr, ha, hd⟩ := parse_eq_ok_iff.1 hs
  obtain ⟨es', o', b', hf', hr', ha', hd'⟩ := parse_eq_ok_iff.1 hq
  obtain ⟨more, rfl⟩ := prefix_of_cut (cut_scan q hf) hr hr'
  rw [Builder.acceptAll_append, ha] at ha'
  cases more with
  | nil =>
    cases ha'
    exact Except.ok.inj (hd.symm.trans hd')
  | cons e more =>
    obtain ⟨hp, hroot, _⟩ := Builder.finish_eq_ok_iff.1 hd
    obtain ⟨f, he⟩ := Builder.accept_closed hp hroot e
    simp [Except.bind, Builder.acceptAll, he] at ha'

end RunAudit.Xml
