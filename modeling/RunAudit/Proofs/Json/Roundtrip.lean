import RunAudit.Json.Printer
import RunAudit.Proofs.Json.Keys
import RunAudit.Proofs.Json.Reading

/-!
# Documents that are read back

What the grammar derives is read as the value that it is derived for (`Derives.isRead`), and what is printed is derived,
on lines or without blanks (`derives_pretty`, `derives_compact`). So a value that is printed is read back
(`readValue_pretty`).
-/

namespace RunAudit.Json

/-! ## What is derived is read -/

theorem facts_of_isDigit {c : Char} (h : c.isDigit = true) : isSpace c = false ∧ c ≠ ']' ∧ c ≠ '[' ∧ c ≠ '{' := by
  refine ⟨?_, ?_, ?_, ?_⟩
  · by_contra hs
    simp only [isSpace, Bool.not_eq_false, Bool.or_eq_true, decide_eq_true_eq] at hs
    rcases hs with ((rfl | rfl) | rfl) | rfl <;> simp at h
  all_goals
    rintro rfl
    simp at h

/-- How a phrase begins after blanks: not with what would end a list. -/
def Phrase.Begins (s : List Char) : Phrase → Prop
  | .value _ => ∃ c t, s = c :: t ∧ isSpace c = false ∧ c ≠ ']'
  | .element _ | .items _ => ∀ rest, ∃ c t, skipSpace (s ++ rest) = c :: t ∧ c ≠ ']'
  | _ => True

theorem Derives.begins {d : Dialect} {p : Phrase} {s : List Char} (h : Derives d p s) : p.Begins s := by
  induction h with
  | null => exact ⟨_, _, rfl, by decide, by decide⟩
  | true => exact ⟨_, _, rfl, by decide, by decide⟩
  | false => exact ⟨_, _, rfl, by decide, by decide⟩
  | natural n =>
    obtain ⟨c, digits, hdigits, hc⟩ := Text.Digit.exists_toDigits n
    obtain ⟨hspace, hne, _⟩ := facts_of_isDigit hc
    exact ⟨c, digits, hdigits, hspace, hne⟩
  | string hq =>
    obtain ⟨written, _, _, rfl⟩ := hq
    exact ⟨_, _, rfl, by decide, by decide⟩
  | emptyList _ => exact ⟨_, _, rfl, by decide, by decide⟩
  | list _ _ => exact ⟨_, _, rfl, by decide, by decide⟩
  | emptyObject _ => exact ⟨_, _, rfl, by decide, by decide⟩
  | object _ _ => exact ⟨_, _, rfl, by decide, by decide⟩
  | @element v b s b' hb _ _ ih =>
    obtain ⟨c, t, rfl, hc, hne⟩ := ih
    intro rest
    refine ⟨c, t ++ b' ++ rest, ?_, hne⟩
    rw [List.append_assoc, List.append_assoc, skipSpace_blank hb, List.cons_append, skipSpace_cons hc,
      List.append_assoc]
  | item _ ih => exact ih
  | items _ _ ih _ =>
    intro rest
    rw [List.append_assoc]
    exact ih _
  | _ => trivial

/-- What reading makes of a phrase in front of what ends it. -/
def IsRead (s : List Char) : Phrase → Prop
  | .value v => ∀ {depth rest} b, Readable depth v → Ends rest → Blank b → Gives (value depth (b ++ s ++ rest)) v rest
  | .element v => ∀ {depth rest}, Readable depth v → Ends rest →
      ∃ r, Gives (value depth (s ++ rest)) v r ∧ skipSpace r = skipSpace rest
  | .items vs => ∀ {depth rest input before} h, (∀ v ∈ vs, Readable depth v) →
      Gives (@items input (value depth) before (s ++ ']' :: rest) h) (.list (before.reverse ++ vs)) rest
  | .member key v => ∀ {depth rest}, Readable depth v → Ends rest →
      ∃ u k r, skipSpace (s ++ rest) = '"' :: u ∧ Gives (body u) key k ∧ Gives (fieldValue (value depth) k) v r ∧
        skipSpace r = skipSpace rest
  | .members fs => ∀ {depth rest} {before : Fields Value}, (Fields.keys (before ++ fs)).Nodup →
      (∀ f ∈ fs, Readable depth f.2) → ∃ u, skipSpace (s ++ '}' :: rest) = '"' :: u ∧
        ∀ {input} h, Gives (@fields input (value depth) before u h) (.object (before ++ fs)) rest

theorem skipSpace_front {b : List Char} (hb : Blank b) {c : Char} (hc : isSpace c = false) (s : List Char) :
    skipSpace (b ++ c :: s) = c :: s := by
  rw [skipSpace_blank hb, skipSpace_cons hc]

/-- Words, strings and numerals are read at any depth. -/
theorem value_scalar {v : Value} {s : List Char} {c : Char} {t rest : List Char} (hs : s ++ rest = c :: t)
    (hc : isSpace c = false) (hbracket : c ≠ '[') (hbrace : c ≠ '{') (h : Gives (scalar (s ++ rest)) v rest)
    {b : List Char} (hb : Blank b) (depth : Nat) : Gives (value depth (b ++ s ++ rest)) v rest := by
  have hskip : skipSpace (b ++ s ++ rest) = c :: t := by rw [List.append_assoc, hs, skipSpace_front hb hc]
  cases depth with
  | zero => exact valueOf_scalar hskip hbracket hbrace (hs ▸ h)
  | succ depth => exact valueOf_scalar hskip hbracket hbrace (hs ▸ h)

theorem isRead_word {v : Value} {c : Char} {word : List Char} (hc : isSpace c = false) (hbracket : c ≠ '[')
    (hbrace : c ≠ '{') (h : ∀ rest, Gives (scalar (c :: word ++ rest)) v rest) : IsRead (c :: word) (.value v) :=
  fun _ _ _ hb => value_scalar rfl hc hbracket hbrace (h _) hb _

theorem isRead_natural (n : Nat) : IsRead (Nat.toDigits 10 n) (.value (.ofNat n)) := by
  intro depth rest b hr he hb
  obtain ⟨k, hk, hn⟩ := natural_of_readable hr
  cases hn
  have hscalar := scalar_natural hk he
  obtain ⟨c, digits, hdigits, hc⟩ := Text.Digit.exists_toDigits n
  obtain ⟨hspace, _, hbracket, hbrace⟩ := facts_of_isDigit hc
  rw [hdigits] at hscalar ⊢
  exact value_scalar rfl hspace hbracket hbrace hscalar hb _

theorem isRead_string {text : String} {s : List Char} (h : Quoted standard text s) :
    IsRead s (.value (.string text)) := by
  intro depth rest b _ _ hb
  have hscalar := scalar_string h rest
  obtain ⟨written, _, _, rfl⟩ := h
  exact value_scalar rfl (by decide) (by decide) (by decide) hscalar hb _

/-- Brackets and what stands between them. -/
theorem isRead_list {vs : List Value} {s : List Char}
    (h : ∀ {depth rest}, (∀ v ∈ vs, Readable depth v) → Gives (list (value depth) (s ++ ']' :: rest)) (.list vs) rest) :
    IsRead ('[' :: s ++ [']']) (.value (.list vs)) := by
  intro depth rest b hr _ hb
  have hskip : skipSpace (b ++ ('[' :: s ++ [']']) ++ rest) = '[' :: (s ++ ']' :: rest) := by
    rw [List.append_assoc]
    simp only [List.cons_append, List.append_assoc, List.nil_append]
    exact skipSpace_front hb (by decide) _
  cases depth with
  | zero => cases hr
  | succ depth => exact valueOf_list hskip (h hr)

/-- Braces and what stands between them. -/
theorem isRead_object {fs : Fields Value} {s : List Char}
    (h : ∀ {depth rest}, (Fields.keys fs).Nodup → (∀ f ∈ fs, Readable depth f.2) →
      Gives (object (value depth) (s ++ '}' :: rest)) (.object fs) rest) :
    IsRead ('{' :: s ++ ['}']) (.value (.object fs)) := by
  intro depth rest b hr _ hb
  have hskip : skipSpace (b ++ ('{' :: s ++ ['}']) ++ rest) = '{' :: (s ++ '}' :: rest) := by
    rw [List.append_assoc]
    simp only [List.cons_append, List.append_assoc, List.nil_append]
    exact skipSpace_front hb (by decide) _
  cases depth with
  | zero => cases hr
  | succ depth => exact valueOf_object hskip (h hr.1 hr.2)

/-- **What is derived is read** as what it is derived for. -/
theorem Derives.isRead {p : Phrase} {s : List Char} (h : Derives standard p s) : IsRead s p := by
  induction h with
  | null => exact isRead_word (by decide) (by decide) (by decide) scalar_null
  | true => exact isRead_word (by decide) (by decide) (by decide) scalar_true
  | false => exact isRead_word (by decide) (by decide) (by decide) scalar_false
  | natural n => exact isRead_natural n
  | string hq => exact isRead_string hq
  | emptyList hb => exact isRead_list fun _ => list_empty (skipSpace_front hb (by decide) _)
  | @list vs s hd ih =>
    refine isRead_list fun {depth rest} hr => ?_
    obtain ⟨c, t, hskip, hc⟩ := hd.begins (']' :: rest)
    exact list_items hskip hc (ih _ hr)
  | emptyObject hb => exact isRead_object fun _ _ => object_empty (skipSpace_front hb (by decide) _)
  | @object fs s hd ih =>
    refine isRead_object fun {depth rest} hn hr => ?_
    obtain ⟨u, hskip, hread⟩ := @ih depth rest [] hn hr
    exact object_fields hskip fun _ => hread _
  | @element v b s b' hb hd hb' ih =>
    intro depth rest hr he
    refine ⟨b' ++ rest, ?_, skipSpace_blank hb' rest⟩
    rw [List.append_assoc]
    exact ih b hr (hb'.ends he) hb
  | @item v s _ ih =>
    intro depth rest input before hle hr
    obtain ⟨r, hread, hrest⟩ := @ih depth (']' :: rest) (hr v (by simp)) (ends_cons (by simp) _)
    exact items_last hread (hrest.trans (skipSpace_cons (by decide) _)) before _
  | @items v vs s t _ hds ih ihs =>
    intro depth rest input before hle hr
    obtain ⟨hv, hvs⟩ := List.forall_mem_cons.1 hr
    obtain ⟨r, hread, hrest⟩ := @ih depth (',' :: (t ++ ']' :: rest)) hv (ends_cons (by simp) _)
    obtain ⟨c, u, hskip, hc⟩ := hds.begins (']' :: rest)
    have hnext : ∀ h, Gives (@Json.items input (value depth) (v :: before) (t ++ ']' :: rest) h)
        (.list (before.reverse ++ v :: vs)) rest := by
      intro h
      have := @ihs depth rest input (v :: before) h hvs
      rwa [List.reverse_cons, List.append_assoc, List.singleton_append] at this
    simp only [List.append_assoc, List.cons_append] at hle ⊢
    exact items_next hread (hrest.trans (skipSpace_cons (by decide) _)) hskip hc hnext hle
  | @member key v b k b' s hb hk hb' _ _ ih =>
    intro depth rest hr he
    obtain ⟨written, hw, _, rfl⟩ := hk
    obtain ⟨r, hread, hrest⟩ := @ih depth rest hr he
    refine ⟨written ++ '"' :: (b' ++ ':' :: (s ++ rest)), b' ++ ':' :: (s ++ rest), r, ?_, ?_, ?_, hrest⟩
    · simp only [List.append_assoc, List.cons_append, List.nil_append]
      exact skipSpace_front hb (by decide) _
    · exact body_written hw _
    · exact fieldValue_colon (skipSpace_front hb' (by decide) _) hread
  | @field key v s _ ih =>
    intro depth rest before hn hr
    obtain ⟨u, k, r, hskip, hkey, hvalue, hrest⟩ := @ih depth ('}' :: rest) (hr (key, v) (by simp))
      (ends_cons (by simp) _)
    refine ⟨u, hskip, fun {input} h => ?_⟩
    have hnew := Fields.not_mem_keys_of_nodup hn
    rw [← Fields.put_of_not_mem hnew]
    exact fields_last hkey hvalue (hrest.trans (skipSpace_cons (by decide) _)) before h
  | @fields key v fs s t _ _ ih ihs =>
    intro depth rest before hn hr
    obtain ⟨hv, hfs⟩ := List.forall_mem_cons.1 hr
    obtain ⟨u, k, r, hskip, hkey, hvalue, hrest⟩ := @ih depth (',' :: (t ++ '}' :: rest)) hv
      (ends_cons (by simp) _)
    have hnew := Fields.not_mem_keys_of_nodup hn
    have hput : before ++ (key, v) :: fs = before.put key v ++ fs := by
      rw [Fields.put_of_not_mem hnew, List.append_assoc, List.singleton_append]
    rw [hput] at hn ⊢
    obtain ⟨u', hskip', hread⟩ := @ihs depth rest (before.put key v) hn hfs
    refine ⟨u, by simpa using hskip, fun {input} h => ?_⟩
    exact fields_next hkey hvalue (hrest.trans (skipSpace_cons (by decide) _)) hskip' (fun _ => hread _) h

/-! ## What is printed is derived -/

/-- A character is spelled as it is printed. -/
theorem spelled_escapeText (c : Char) : Spelled c (escapeText c) := by
  unfold escapeText
  split
  case h_8 hquote hbackslash _ _ _ _ _ =>
    split
    case isTrue hc =>
      refine .code (by rfl) ?_
      have hhigh := Text.Digit.value?_digitChar (Nat.le_refl 16) (show c.toNat / 16 < 16 by omega)
      have hlow := Text.Digit.value?_digitChar (Nat.le_refl 16) (Nat.mod_lt c.toNat (by decide))
      have hzero : Text.Digit.value? 16 '0' = some 0 := rfl
      simp only [Text.Digit.number, Text.Digit.appendTo, hexDigit, hzero, hhigh, hlow]
      exact congrArg Except.ok (by omega)
    case isFalse hc => exact .plain (by omega) hquote hbackslash
  all_goals exact .short (by decide)

theorem body_bodyText : ∀ text : List Char, Body standard text (bodyText text)
  | [] => .nil
  | c :: text => .cons (spelled_escapeText c) (body_bodyText text)

theorem quoted_quote (text : String) : Quoted standard text (quote text) := ⟨_, body_bodyText _, trivial, rfl⟩

theorem blank_newLine (depth : Nat) : Blank (newLine depth) := by
  intro c hc
  rcases List.mem_cons.1 hc with rfl | hc
  · rfl
  · obtain rfl := List.eq_of_mem_replicate hc
    rfl

section Layout

variable {front back : List Char} (hfront : Blank front) (hback : Blank back) (print : Value → List Char)
include hfront hback

/-- An item and those after it, each with the same blanks in front of it. -/
theorem derives_items (tail : List Value → List Char) (hnil : tail [] = back ++ [']'])
    (hcons : ∀ v vs, tail (v :: vs) = ',' :: (front ++ print v ++ tail vs)) {vs : List Value}
    (h : ∀ v ∈ vs, Derives standard (.value v) (print v)) :
    ∀ {v : Value} {s : List Char}, Derives standard (.value v) s → ∃ t,
      front ++ s ++ tail vs = t ++ [']'] ∧ Derives standard (.items (v :: vs)) t := by
  induction vs with
  | nil =>
    intro v s hv
    exact ⟨front ++ s ++ back, by simp [hnil], .item (.element hfront hv hback)⟩
  | cons w vs ih =>
    intro v s hv
    obtain ⟨hw, hvs⟩ := List.forall_mem_cons.1 h
    obtain ⟨t, ht, hd⟩ := ih hvs hw
    have helement : Derives standard (.element v) (front ++ s) := by
      simpa using Derives.element hfront hv blank_nil
    refine ⟨front ++ s ++ ',' :: t, ?_, .items helement hd⟩
    rw [hcons, ht]
    simp

/-- A member and those after it, each with the same blanks in front of it and before its value. -/
theorem derives_members (tail : Fields Value → List Char) {gap : List Char} (hgap : Blank gap)
    (hnil : tail [] = back ++ ['}'])
    (hcons : ∀ key v fs, tail ((key, v) :: fs) = ',' :: (front ++ quote key ++ ':' :: (gap ++ print v) ++ tail fs))
    {fs : Fields Value} (h : ∀ f ∈ fs, Derives standard (.value f.2) (print f.2)) :
    ∀ (key : String) {v : Value} {s : List Char}, Derives standard (.value v) s → ∃ t,
      front ++ quote key ++ ':' :: (gap ++ s) ++ tail fs = t ++ ['}'] ∧
        Derives standard (.members ((key, v) :: fs)) t := by
  have hmember : ∀ {key v s b}, Derives standard (.value v) s → Blank b →
      Derives standard (.member key v) (front ++ quote key ++ ':' :: (gap ++ s ++ b)) := by
    intro key v s b hv hb
    simpa using Derives.member hfront (quoted_quote key) blank_nil trivial (.element hgap hv hb)
  induction fs with
  | nil =>
    intro key v s hv
    exact ⟨_, by simp [hnil], .field (hmember hv hback)⟩
  | cons f fs ih =>
    intro key v s hv
    obtain ⟨hf, hfs⟩ := List.forall_mem_cons.1 h
    obtain ⟨t, ht, hd⟩ := ih hfs f.1 hf
    refine ⟨_, ?_, .fields (hmember hv blank_nil) hd⟩
    rw [hcons, ht]
    simp

end Layout

/-- **What is printed on lines is derived**, however far it is moved in. -/
theorem derives_pretty : ∀ {depth : Nat} {v : Value}, Readable depth v → ∀ indent,
    Derives standard (.value v) (prettyAt indent v)
  | _, .null, _, _ => .null
  | _, .bool true, _, _ => .true
  | _, .bool false, _, _ => .false
  | _, .number n, h, _ => by
    obtain ⟨k, _, rfl⟩ := natural_of_readable h
    rw [prettyAt, Number.text, Nat.toString_eq_repr, Nat.toList_repr]
    exact .natural k
  | _, .string text, _, _ => .string (quoted_quote text)
  | _, .list [], _, _ => .emptyList blank_nil
  | _, .object [], _, _ => .emptyObject blank_nil
  | depth + 1, .list (v :: vs), h, indent => by
    obtain ⟨hv, hvs⟩ := List.forall_mem_cons.1 h
    obtain ⟨t, ht, hd⟩ := derives_items (blank_newLine (indent + 1)) (blank_newLine indent) (prettyAt (indent + 1))
      (prettyItems indent) (by rw [prettyItems]) (fun w ws => by simp [prettyItems])
      (fun w hw => derives_pretty (hvs w hw) _) (derives_pretty hv (indent + 1))
    rw [prettyAt, List.cons_append, List.cons_append, ht]
    exact .list hd
  | depth + 1, .object ((key, v) :: fs), h, indent => by
    obtain ⟨hv, hfs⟩ := List.forall_mem_cons.1 h.2
    obtain ⟨t, ht, hd⟩ := derives_members (blank_newLine (indent + 1)) (blank_newLine indent) (prettyAt (indent + 1))
      (prettyFields indent) (show Blank [' '] by simp [Blank, isSpace]) (by rw [prettyFields])
      (fun k w fs => by simp [prettyFields]) (fun f hf => derives_pretty (hfs f hf) _) key
      (derives_pretty hv (indent + 1))
    rw [prettyAt]
    simp only [List.cons_append, List.append_assoc, List.nil_append] at ht ⊢
    rw [ht]
    exact .object hd

/-- **What is printed without blanks is derived.** -/
theorem derives_compact : ∀ {depth : Nat} {v : Value}, Readable depth v → Derives standard (.value v) (compact v)
  | _, .null, _ => .null
  | _, .bool true, _ => .true
  | _, .bool false, _ => .false
  | _, .number n, h => by
    obtain ⟨k, _, rfl⟩ := natural_of_readable h
    rw [compact, Number.text, Nat.toString_eq_repr, Nat.toList_repr]
    exact .natural k
  | _, .string text, _ => .string (quoted_quote text)
  | _, .list [], _ => .emptyList blank_nil
  | _, .object [], _ => .emptyObject blank_nil
  | depth + 1, .list (v :: vs), h => by
    obtain ⟨hv, hvs⟩ := List.forall_mem_cons.1 h
    obtain ⟨t, ht, hd⟩ := derives_items blank_nil blank_nil compact compactItems (by simp [compactItems])
      (fun w ws => by simp [compactItems]) (fun w hw => derives_compact (hvs w hw)) (derives_compact hv)
    rw [compact, List.cons_append]
    rw [List.nil_append] at ht
    rw [ht]
    exact .list hd
  | depth + 1, .object ((key, v) :: fs), h => by
    obtain ⟨hv, hfs⟩ := List.forall_mem_cons.1 h.2
    obtain ⟨t, ht, hd⟩ := derives_members blank_nil blank_nil compact compactFields blank_nil (by simp [compactFields])
      (fun k w fs => by simp [compactFields]) (fun f hf => derives_compact (hfs f hf)) key (derives_compact hv)
    rw [compact]
    simp only [List.cons_append, List.append_assoc, List.nil_append] at ht ⊢
    rw [ht]
    exact .object hd

/-! ## Whole documents -/

/-- The value of a text that holds one and nothing else. -/
def readValue (s : List Char) : Option Value :=
  match value depthLimit s with
  | .ok r => if (skipSpace r.rest).isEmpty then some r.value else none
  | .error _ => none

/-- In what is read, every object has each key once. -/
theorem keysOnce_of_readValue {v : Value} {s : List Char} (h : readValue s = some v) : v.KeysOnce := by
  unfold readValue at h
  split at h
  · rename_i r hr
    split at h
    · cases h
      exact keysOnce_of_value _ _ r hr
    · cases h
  · cases h

theorem readValue_of_derives {v : Value} {s : List Char} (h : Derives standard (.element v) s)
    (hv : Readable depthLimit v) : readValue s = some v := by
  obtain ⟨r, hread, hrest⟩ := @Derives.isRead _ _ h depthLimit [] hv ends_nil
  rw [List.append_nil] at hread
  obtain ⟨_, hread⟩ := hread
  simp only [readValue, hread, hrest]
  rfl

/-- **A text that writes a value** is read as this value. -/
theorem readValue_of_derives_value {v : Value} {s : List Char} (h : Derives standard (.value v) s)
    (hv : Readable depthLimit v) : readValue s = some v :=
  readValue_of_derives (by simpa using Derives.element blank_nil h blank_nil) hv

/-- **A value that is printed is read back.** -/
theorem readValue_pretty {v : Value} (h : Readable depthLimit v) : readValue (pretty v) = some v :=
  readValue_of_derives_value (derives_pretty h 0) h

/-- **A text that writes a list** is read as its items. -/
theorem readList_of_derives {vs : List Value} {text : String} (h : Derives standard (.value (.list vs)) text.toList)
    (hv : Readable depthLimit (.list vs)) : readList text = .ok vs := by
  have hfront : ∃ t, text.toList = '[' :: t := by
    generalize text.toList = s at h
    cases h with
    | emptyList | list => exact ⟨_, rfl⟩
  obtain ⟨t, ht⟩ := hfront
  have hread := @Derives.isRead _ _ h depthLimit [] [] hv ends_nil blank_nil
  rw [List.append_nil, List.nil_append, ht] at hread
  obtain ⟨_, hread⟩ := hread
  rw [readList, document, ht, skipSpace_cons (by decide)]
  simp only [List.cons.injEq, Char.reduceEq, false_and, imp_self, implies_true, hread]
  rfl

end RunAudit.Json
