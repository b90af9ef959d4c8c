import RunAudit.Proofs.Xml.Tag
import RunAudit.Proofs.Xml.Tree

/-!
# Trees as they are written

`Filler s` says that `s` is text, comments, character data sections and instructions, whatever these look like inside;
no tag is read from it (`scan_filler`). `Rendering ts s` says that `s` writes the trees `ts` one after another with
such text before, between and after their tags. The tags of a rendering are read as events that spell its trees
(`exists_reads_of_rendering`), so a text that writes one tree is read as the document of that tree
(`parse_of_rendering`).
-/

namespace RunAudit.Xml

/-! ## Text that says nothing of elements -/

/-- **What may stand between tags** without being a tag: text, comments, character data sections and instructions. -/
inductive Filler : List Char → Prop
  | nil : Filler []
  | text {c : Char} {s : List Char} : c ≠ '<' → Filler s → Filler (c :: s)
  | comment {content s : List Char} :
      ¬['-', '-', '>'] <:+: content → Filler s → Filler ("<!--".toList ++ (content ++ ("-->".toList ++ s)))
  | cdata {content s : List Char} :
      ¬[']', ']', '>'] <:+: content → Filler s → Filler ("<![CDATA[".toList ++ (content ++ ("]]>".toList ++ s)))
  | instruction {content s : List Char} :
      content ≠ [] → '>' ∉ content → Filler s → Filler ("<?".toList ++ (content ++ ("?>".toList ++ s)))

/-- A split at the first `>` that is accepted. -/
theorem splitAtClose_eq {accepts : List Char → Bool} : ∀ (content before rest : List Char),
    (∀ u v, content = u ++ '>' :: v → accepts (u.reverse ++ before) = false) →
      accepts (content.reverse ++ before) = true →
        splitAtClose accepts before (content ++ '>' :: rest) = some (before.reverse ++ content, rest)
  | [], before, rest, _, ha => by
    rw [List.reverse_nil, List.nil_append] at ha
    simp [splitAtClose, ha]
  | c :: content, before, rest, hr, ha => by
    have hc : (c = '>' && accepts before) = false := by
      by_cases h : c = '>'
      · subst h
        simpa using hr [] content rfl
      · simp [h]
    have ih := splitAtClose_eq content (c :: before) rest
      (fun u v h => by simpa using hr (c :: u) v (by rw [h]; rfl)) (by simpa using ha)
    rw [List.cons_append, splitAtClose, hc, if_neg Bool.false_ne_true, ih]
    simp

/-- A `>` in a text with two other characters behind it is one of the text. -/
theorem eq_append_of_append_two {x y : Char} (hx : x ≠ '>') (hy : y ≠ '>') {content u v : List Char}
    (h : content ++ [x, y] = u ++ '>' :: v) : ∃ v', content = u ++ '>' :: v' := by
  rcases List.append_eq_append_iff.1 h with ⟨w, hw, hv⟩ | ⟨w, hw, hv⟩
  · cases w with
    | nil =>
      cases hv
      exact absurd rfl hx
    | cons c w =>
      -- the `>` would be one of the two characters
      have : '>' ∈ [x, y] := by
        rw [hv]
        simp
      rcases List.mem_cons.1 this with e | e
      · exact absurd e.symm hx
      · exact absurd (List.mem_singleton.1 e).symm hy
  · cases w with
    | nil =>
      cases hv
      exact absurd rfl hx
    | cons c w =>
      cases hv
      exact ⟨w, hw⟩

/-- What is marked at its end by a character written twice and a `>` ends at the first such mark. -/
theorem splitAtClose_marked {accepts : List Char → Bool} {x : Char} (before : List Char) {content : List Char}
    (hx : x ≠ '>') (hr : ∀ r, accepts (r ++ before) = true → ∃ r', r = x :: x :: r')
    (ha : ∀ r, accepts (x :: x :: (r ++ before)) = true) (hc : ¬[x, x, '>'] <:+: content) (rest : List Char) :
    splitAtClose accepts before (content ++ x :: x :: '>' :: rest) =
      some (before.reverse ++ (content ++ [x, x]), rest) := by
  have hreject : ∀ u v, content ++ [x, x] = u ++ '>' :: v → accepts (u.reverse ++ before) = false := by
    intro u v hu
    obtain ⟨v', rfl⟩ := eq_append_of_append_two hx hx hu
    cases he : accepts (u.reverse ++ before) with
    | false => rfl
    | true =>
      obtain ⟨r, hr⟩ := hr _ he
      refine absurd ⟨r.reverse, v', ?_⟩ hc
      rw [← List.reverse_reverse u, hr]
      simp
  have haccept : accepts ((content ++ [x, x]).reverse ++ before) = true := by simpa using ha content.reverse
  simpa using splitAtClose_eq (content ++ [x, x]) before rest hreject haccept

theorem eq_of_endsComment {s : List Char} (h : endsComment s = true) : ∃ x y r, s = '-' :: '-' :: x :: y :: r := by
  unfold endsComment at h
  split at h
  · exact ⟨_, _, _, rfl⟩
  · cases h

theorem eq_of_endsCdata {s : List Char} (h : endsCdata s = true) : ∃ r, s = ']' :: ']' :: r := by
  unfold endsCdata at h
  split at h
  · exact ⟨_, rfl⟩
  · cases h

theorem splitAtClose_comment {content : List Char} (h : ¬['-', '-', '>'] <:+: content) (rest : List Char) :
    splitAtClose endsComment [] ('-' :: '-' :: (content ++ '-' :: '-' :: '>' :: rest)) =
      some ('-' :: '-' :: (content ++ ['-', '-']), rest) := by
  have hr : ∀ r, endsComment (r ++ ['-', '-']) = true → ∃ r', r = '-' :: '-' :: r' := by
    intro r he
    obtain ⟨x, y, r', e⟩ := eq_of_endsComment he
    match r, e with
    | [_], e => simp at e
    | _ :: _ :: r, e =>
      simp only [List.cons_append, List.cons.injEq] at e
      obtain ⟨rfl, rfl, _⟩ := e
      exact ⟨r, rfl⟩
  have ha : ∀ r, endsComment ('-' :: '-' :: (r ++ ['-', '-'])) = true := by
    rintro (_ | ⟨_, _ | ⟨_, r⟩⟩) <;> rfl
  exact splitAtClose_marked ['-', '-'] (by decide) hr ha h rest

theorem splitAtClose_cdata {content : List Char} (h : ¬[']', ']', '>'] <:+: content) (rest : List Char) :
    splitAtClose endsCdata [] ("[CDATA[".toList ++ (content ++ ']' :: ']' :: '>' :: rest)) =
      some ("[CDATA[".toList ++ (content ++ [']', ']']), rest) := by
  have hr : ∀ r, endsCdata (r ++ "[CDATA[".toList.reverse) = true → ∃ r', r = ']' :: ']' :: r' := by
    intro r he
    obtain ⟨r', e⟩ := eq_of_endsCdata he
    match r, e with
    | [], e => simp at e
    | [_], e => simp at e
    | _ :: _ :: r, e =>
      simp only [List.cons_append, List.cons.injEq] at e
      obtain ⟨rfl, rfl, _⟩ := e
      exact ⟨r, rfl⟩
  exact splitAtClose_marked "[CDATA[".toList.reverse (by decide) hr (fun _ => rfl) h rest

/-- The opening of a character data section, and its content, without the two brackets behind it. -/
theorem wrongCdata_append (content : List Char) :
    wrongCdata ("[CDATA[".toList ++ (content ++ [']', ']'])) = none := by
  have hd : ("[CDATA[".toList ++ (content ++ [']', ']'])).dropLast.dropLast = "[CDATA[".toList ++ content := by
    have : "[CDATA[".toList ++ (content ++ [']', ']']) = ("[CDATA[".toList ++ content ++ [']']) ++ [']'] := by simp
    rw [this, List.dropLast_concat, List.dropLast_concat]
  have hw : startsWithWord "[CDATA[".toList ("[CDATA[".toList ++ content) = true := by
    rw [startsWithWord, List.take_left]
    decide
  rw [wrongCdata, hd, if_pos hw]

/-! ## Markup that is passed over -/

theorem next_comment {content : List Char} (h : ¬['-', '-', '>'] <:+: content) (s : List Char) :
    (front ("<!--".toList ++ (content ++ ("-->".toList ++ s)))).next = .ignored s := by
  have hs := splitAtClose_comment h s
  simp only [String.reduceToList, List.cons_append, List.nil_append, next_front_lt, next_markup_bang]
  rw [next_declaration_comment, hs]
  rfl

theorem next_cdata {content : List Char} (h : ¬[']', ']', '>'] <:+: content) (s : List Char) :
    (front ("<![CDATA[".toList ++ (content ++ ("]]>".toList ++ s)))).next = .ignored s := by
  have hs := splitAtClose_cdata h s
  have hw := wrongCdata_append content
  simp only [String.reduceToList, List.cons_append, List.nil_append, next_front_lt, next_markup_bang] at hs hw ⊢
  rw [next_declaration_cdata, hs, Next.ofSplit]
  simp only [hw]

theorem next_instruction {content : List Char} (hn : content ≠ []) (h : '>' ∉ content) (s : List Char) :
    (front ("<?".toList ++ (content ++ ("?>".toList ++ s)))).next = .ignored s := by
  have hm : '>' ∉ content ++ ['?'] := by simp [h]
  have hu : untilClose (content ++ '?' :: '>' :: s) = content ++ ['?'] := by
    rw [List.append_cons, untilClose_of_not_mem hm]
  have ha : afterClose (content ++ '?' :: '>' :: s) = s := by
    rw [List.append_cons, afterClose_of_not_mem hm]
  have hi : closesInstruction (content ++ ['?']) = true := by
    have := List.length_pos_iff.2 hn
    simp [closesInstruction]
    omega
  simp only [String.reduceToList, List.cons_append, List.nil_append, next_front_lt]
  rw [next_markup_question, hu, ha, if_pos hi]

/-- **No tag is read** from text that says nothing of elements. -/
theorem scan_filler {f : List Char} (h : Filler f) (s : List Char) : scan (f ++ s) = scan s := by
  induction h with
  | nil => rfl
  | @text c f hc _ ih =>
    rw [List.cons_append, scan_eq, next_front_of_ne hc, ← scan_eq, ih]
  | @comment content f hc _ ih =>
    rw [List.append_assoc, List.append_assoc, List.append_assoc, scan_eq, next_comment hc]
    exact ih
  | @cdata content f hc _ ih =>
    rw [List.append_assoc, List.append_assoc, List.append_assoc, scan_eq, next_cdata hc]
    exact ih
  | @instruction content f hn hc _ ih =>
    rw [List.append_assoc, List.append_assoc, List.append_assoc, scan_eq, next_instruction hn hc]
    exact ih

/-! ## Trees -/

/-- **Trees as they may be written**, one after another: an element without children as one tag or as two, any
other as two with its children in between, and filler before, between and after the tags. -/
inductive Rendering : List ElementTree → List Char → Prop
  | nil {f : List Char} : Filler f → Rendering [] f
  | empty {tag : String} {attributes : Fields String} {ts : List ElementTree} {f a blanks s : List Char} :
      Filler f → isName tag = true → AttributesWritten attributes a → (attributes.map Prod.fst).Nodup → Blank blanks →
        Rendering ts s →
          Rendering (⟨tag, attributes, []⟩ :: ts) (f ++ '<' :: (tag.toList ++ (a ++ (blanks ++ '/' :: '>' :: s))))
  | nested {tag : String} {attributes : Fields String} {children ts : List ElementTree}
      {f a blanks inner blanks' s : List Char} :
      Filler f → isName tag = true → AttributesWritten attributes a → (attributes.map Prod.fst).Nodup → Blank blanks →
        Rendering children inner → Blank blanks' → Rendering ts s →
          Rendering (⟨tag, attributes, children⟩ :: ts)
            (f ++ '<' :: (tag.toList ++ (a ++ (blanks ++ '>' :: (inner ++ '<' :: '/' ::
              (tag.toList ++ (blanks' ++ '>' :: s)))))))

/-- The closing tag of a name. -/
theorem scan_closing {tag : String} {blanks : List Char} (ht : isName tag = true) (hb : Blank blanks)
    (s : List Char) :
    scan ('<' :: '/' :: (tag.toList ++ (blanks ++ '>' :: s))) = (scan s).after [.closing (tag.toList ++ blanks)] := by
  have hm : '>' ∉ tag.toList ++ blanks := by
    intro h
    rcases List.mem_append.1 h with h | h
    · exact name_ne_of_mem ht (by decide) _ h rfl
    · exact blank_ne (hb _ h) (by decide) rfl
  have hu : untilClose (tag.toList ++ (blanks ++ '>' :: s)) = tag.toList ++ blanks := by
    rw [← List.append_assoc, untilClose_of_not_mem hm]
  have ha : afterClose (tag.toList ++ (blanks ++ '>' :: s)) = s := by
    rw [← List.append_assoc, afterClose_of_not_mem hm]
  rw [scan_eq, next_front_lt, next_markup_slash, hu, ha]
  rfl

/-- A tag is closed by its name. -/
theorem readItem_closing_name {tag : String} {blanks : List Char} (ht : isName tag = true) (hb : Blank blanks)
    (o : List (List Char)) :
    readItem (tag.toList :: o) (.closing (tag.toList ++ blanks)) = .ok (o, .stop tag.toList) := by
  rw [readItem, closingName_append ht hb, if_pos rfl]

/-- **The tags of a rendering** are read, whatever is open before them, as events that spell its trees. -/
theorem exists_reads_of_rendering {ts : List ElementTree} {s : List Char} (h : Rendering ts s) :
    ∃ items es, (∀ rest, scan (s ++ rest) = (scan rest).after items) ∧ (∀ o, Reads o items es o) ∧ Spells es ts := by
  induction h with
  | nil hf => exact ⟨[], [], fun rest => by rw [scan_filler hf, Scan.after_nil], .nil, .nil⟩
  | @empty tag attributes ts f a blanks s hf ht ha hd hb _ ih =>
    obtain ⟨items, es, hscan, hreads, hspells⟩ := ih
    refine ⟨.empty (tag.toList ++ (a ++ blanks)) :: items, .empty (tag.toList ++ (a ++ blanks)) :: es, fun rest => ?_,
      fun o => .cons rfl (hreads o), .empty (element_written ht ha hb hd) hspells⟩
    have hn := (next_markup_written ht ha hb (s ++ rest)).2
    simp only [List.append_assoc, List.cons_append]
    rw [scan_filler hf, scan_eq, next_front_lt, hn, Next.scan, hscan, Scan.after_after]
    rfl
  | @nested tag attributes children ts f a blanks inner blanks' s hf ht ha hd hb _ hb' _ ihc ih =>
    obtain ⟨items, es, hscan, hreads, hspells⟩ := ihc
    obtain ⟨items', es', hscan', hreads', hspells'⟩ := ih
    refine ⟨.opening (tag.toList ++ (a ++ blanks)) :: (items ++ .closing (tag.toList ++ blanks') :: items'),
      .start (tag.toList ++ (a ++ blanks)) :: (es ++ .stop tag.toList :: es'), fun rest => ?_, fun o => ?_,
      .nested (element_written ht ha hb hd) hspells hspells'⟩
    · have hn := (next_markup_written ht ha hb
        (inner ++ '<' :: '/' :: (tag.toList ++ (blanks' ++ '>' :: (s ++ rest))))).1
      simp only [List.append_assoc, List.cons_append]
      rw [scan_filler hf, scan_eq, next_front_lt, hn, Next.scan, hscan, scan_closing ht hb', hscan']
      simp
    · have hopen : readItem o (.opening (tag.toList ++ (a ++ blanks))) =
          .ok (tag.toList :: o, .start (tag.toList ++ (a ++ blanks))) := by
        rw [readItem, nameOf_written ht ha hb]
      exact .cons hopen ((hreads _).append (.cons (readItem_closing_name ht hb' o) (hreads' o)))

/-- **A text that writes a tree** is read as the document of the tree. -/
theorem parse_of_rendering {t : ElementTree} {s : List Char} (h : Rendering [t] s) :
    Document.parse s = .ok (.ofTree t) := by
  obtain ⟨items, es, hscan, hreads, hspells⟩ := exists_reads_of_rendering h
  have hs : scan s = ⟨items, none⟩ := by
    have := hscan []
    rw [List.append_nil, scan_nil] at this
    simpa [Scan.after] using this
  exact parse_eq_ok_iff_spells.2 ⟨es, [], t, by rw [hs], by rw [hs]; exact hreads [], hspells, rfl⟩

end RunAudit.Xml
