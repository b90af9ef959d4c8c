import RunAudit.Json.Reader
import RunAudit.Proofs.Fields
import RunAudit.Proofs.Json.Grammar
import RunAudit.Proofs.Numerals

/-!
# Documents are read as they are written
-/

namespace RunAudit.Json

open RunAudit.Text

/-! ## Reading steps -/

section Gives

variable {α β : Type} {input : List Char} {x : Except Trouble (Read α input)} {v : α} {rest : List Char}

/-- A reading step that succeeds, with the value it gives and what it leaves. -/
def Gives (x : Except Trouble (Read α input)) (v : α) (rest : List Char) : Prop := ∃ h, x = .ok ⟨v, rest, h⟩

theorem Gives.map (h : Gives x v rest) (f : α → β) : Gives (x.map fun r => r.map f) (f v) rest := by
  obtain ⟨hle, rfl⟩ := h
  exact ⟨hle, rfl⟩

theorem Gives.within {outer : List Char} (h : Gives x v rest) (hle : input.length ≤ outer.length) :
    Gives (x.map fun r => r.within hle) v rest := by
  obtain ⟨hle', rfl⟩ := h
  exact ⟨Nat.le_trans hle' hle, rfl⟩

theorem Gives.behind {c : Char} (h : Gives x v rest) : Gives (x.map fun r => (r.behind : Read α (c :: input))) v rest :=
  h.within _

end Gives

/-! ## Blanks -/

theorem skipSpace_blank {b : List Char} (h : Blank b) (s : List Char) : skipSpace (b ++ s) = skipSpace s :=
  List.dropWhile_append_of_pos h

theorem skipSpace_cons {c : Char} (h : isSpace c = false) (s : List Char) : skipSpace (c :: s) = c :: s := by
  rw [skipSpace, List.dropWhile_cons_of_neg (by simp [h])]

/-! ## Strings -/

theorem hexDigits_of_number {digits : List Char} {n : Nat} (hl : digits.length = 4)
    (hn : Digit.number 16 digits = .ok n) (rest : List Char) : Gives (hexDigits (digits ++ rest)) n rest := by
  obtain ⟨a, b, c, d, rfl⟩ : ∃ a b c d, digits = [a, b, c, d] := by
    match digits, hl with
    | [a, b, c, d], _ => exact ⟨a, b, c, d, rfl⟩
  refine ⟨by simp; omega, ?_⟩
  simp only [List.cons_append, List.nil_append, hexDigits, hn]

theorem toNat_lt_or (c : Char) : c.toNat < 0xD800 ∨ 0xDFFF < c.toNat ∧ c.toNat < 0x110000 := c.valid

theorem numericEscape_of_number {digits : List Char} {c : Char} (hl : digits.length = 4)
    (hn : Digit.number 16 digits = .ok c.toNat) (rest : List Char) :
    Gives (numericEscape (digits ++ rest)) c rest := by
  obtain ⟨hle, hd⟩ := hexDigits_of_number hl hn rest
  have hc := toNat_lt_or c
  refine ⟨hle, ?_⟩
  unfold numericEscape
  rw [hd]
  simp only
  rw [if_neg (by omega), if_neg (by omega)]
  simp only [Read.map, Char.ofNat_toNat]

theorem numericEscape_of_pair {high low : List Char} {c : Char} (hc : 0x10000 ≤ c.toNat) (hh : high.length = 4)
    (hl : low.length = 4) (hhigh : Digit.number 16 high = .ok (0xD800 + (c.toNat - 0x10000) / 0x400))
    (hlow : Digit.number 16 low = .ok (0xDC00 + (c.toNat - 0x10000) % 0x400)) (rest : List Char) :
    Gives (numericEscape (high ++ '\\' :: 'u' :: low ++ rest)) c rest := by
  have hmax := toNat_lt_or c
  rw [List.append_assoc]
  obtain ⟨hle, hd⟩ := hexDigits_of_number hh hhigh ('\\' :: 'u' :: (low ++ rest))
  obtain ⟨hle', hd'⟩ := hexDigits_of_number hl hlow rest
  have hpair : Gives (trailingSurrogate (0xD800 + (c.toNat - 0x10000) / 0x400) ('\\' :: 'u' :: (low ++ rest))) c
      rest := by
    refine ⟨by simp; omega, ?_⟩
    unfold trailingSurrogate
    simp only [hd']
    rw [if_pos (by omega)]
    have hcode : 0x10000 + (0xD800 + (c.toNat - 0x10000) / 0x400 - 0xD800) * 0x400 +
        (0xDC00 + (c.toNat - 0x10000) % 0x400 - 0xDC00) = c.toNat := by omega
    simp only [hcode, Char.ofNat_toNat]
  unfold numericEscape
  simp only [List.cons_append, hd]
  rw [if_neg (by omega), if_pos (by omega)]
  exact hpair.within hle

theorem escape_short {letter c : Char} (h : (letter, c) ∈ shortEscapes) (rest : List Char) :
    Gives (escape (letter :: rest)) c rest := by
  simp only [shortEscapes, List.mem_cons, Prod.mk.injEq, List.not_mem_nil, or_false] at h
  rcases h with ⟨rfl, rfl⟩ | ⟨rfl, rfl⟩ | ⟨rfl, rfl⟩ | ⟨rfl, rfl⟩ | ⟨rfl, rfl⟩ | ⟨rfl, rfl⟩ | ⟨rfl, rfl⟩ | ⟨rfl, rfl⟩
  all_goals exact ⟨length_tail_le _ _, rfl⟩

/-- A spelled character is read. -/
theorem bodyFrom_spelled {c : Char} {s : List Char} (h : Spelled c s) {input read rest : List Char}
    (hle : (s ++ rest).length ≤ input.length) :
    ∃ hle', bodyFrom read (s ++ rest) hle = @bodyFrom input (c :: read) rest hle' := by
  have hescape : ∀ {e : List Char} (hle : ('\\' :: e ++ rest).length ≤ input.length),
      Gives (escape (e ++ rest)) c rest →
      ∃ hle', bodyFrom read ('\\' :: e ++ rest) hle = @bodyFrom input (c :: read) rest hle' := by
    intro e hle he
    obtain ⟨hshort, he⟩ := he
    refine ⟨by simp at hle hshort; omega, ?_⟩
    simp only [List.cons_append]
    rw [bodyFrom, he]
  cases h with
  | plain hc hq hb =>
    refine ⟨by simp at hle; omega, ?_⟩
    simp only [List.cons_append, List.nil_append]
    rw [bodyFrom, if_neg (by omega)]
    · exact hq
    · exact hb
  | short hm => exact hescape hle (escape_short hm rest)
  | code hl hn => exact hescape hle (numericEscape_of_number hl hn rest).behind
  | pair hc hh hl hhigh hlow => exact hescape hle (numericEscape_of_pair hc hh hl hhigh hlow rest).behind

/-- **A string is read** as it is written. -/
theorem bodyFrom_body {text written : List Char} (h : Body standard text written) :
    ∀ {input read rest : List Char} (hle : (written ++ '"' :: rest).length ≤ input.length),
      Gives (@bodyFrom input read (written ++ '"' :: rest) hle) (read.reverse ++ text) rest := by
  induction h with
  | nil =>
    intro input read rest hle
    refine ⟨by simp at hle; omega, ?_⟩
    simp only [List.nil_append, List.append_nil]
    rw [bodyFrom]
  | @cons c s text written hc _ ih =>
    intro input read rest hle
    simp only [List.append_assoc] at hle ⊢
    obtain ⟨hle', hstep⟩ := bodyFrom_spelled hc hle
    rw [hstep]
    have hread : Gives (bodyFrom (c :: read) _ hle') ((c :: read).reverse ++ text) rest := ih hle'
    simpa only [List.reverse_cons, List.append_assoc, List.singleton_append] using hread

theorem body_written {text : String} {written : List Char} (h : Body standard text.toList written)
    (rest : List Char) : Gives (body (written ++ '"' :: rest)) text rest := by
  have hread : Gives (body (written ++ '"' :: rest)) (String.ofList ([].reverse ++ text.toList)) rest :=
    (bodyFrom_body h (length_all_le _)).map String.ofList
  simpa only [List.reverse_nil, List.nil_append, String.ofList_toList] using hread

/-! ## Numerals -/

theorem digitValue_eq (c : Char) : digitValue c = c.toNat - '0'.toNat := rfl

/-- Digits are appended while the number that they write fits. -/
theorem takeDigits_eq : ∀ {digits : List Char} {n : Nat}, Nat.ofDigitChars 10 digits n ≤ maxSignificand →
    takeDigits n digits = (Nat.ofDigitChars 10 digits n, [])
  | [], n, _ => rfl
  | c :: digits, n, h => by
    rw [Nat.ofDigitChars_cons, ← digitValue_eq, Nat.mul_comm] at h
    have hle : n * 10 + digitValue c ≤ Nat.ofDigitChars 10 digits (n * 10 + digitValue c) := by
      rw [Nat.ofDigitChars_eq_ofDigitChars_zero]
      exact Nat.le_trans (Nat.le_mul_of_pos_left _ (Nat.pow_pos (by decide))) (Nat.le_add_right ..)
    rw [takeDigits, if_neg (by omega), takeDigits_eq h, Nat.ofDigitChars_cons, ← digitValue_eq, Nat.mul_comm]

theorem head_of_ends {rest : List Char} (h : Ends rest) : rest.head?.any Char.isDigit = false ∧
    rest.head? ≠ some '.' ∧ rest.head? ≠ some 'e' ∧ rest.head? ≠ some 'E' := by
  cases rest with
  | nil => simp
  | cons c rest =>
    have hc := h c rfl
    simp only [isSpace, Bool.or_eq_true, decide_eq_true_eq] at hc
    rcases hc with ((((rfl | rfl) | rfl) | rfl) | rfl | rfl | rfl)
    all_goals simp

theorem afterInteger_ends {rest : List Char} (h : Ends rest) (n : Nat) :
    Gives (afterInteger false n [] rest) (.natural n) rest := by
  obtain ⟨_, hpoint, he, hE⟩ := head_of_ends h
  refine ⟨Nat.le_refl _, ?_⟩
  unfold afterInteger
  split
  · exact absurd rfl hpoint
  · rw [if_pos ⟨rfl, he, hE⟩]
    rfl

theorem takeWhile_toDigits {rest : List Char} (h : Ends rest) (n : Nat) :
    (Nat.toDigits 10 n ++ rest).takeWhile Char.isDigit = Nat.toDigits 10 n ∧
      (Nat.toDigits 10 n ++ rest).dropWhile Char.isDigit = rest := by
  have hd : ∀ c ∈ Nat.toDigits 10 n, c.isDigit = true := Digit.isDigit_of_mem
  have hhead := (head_of_ends h).1
  rw [List.takeWhile_append_of_pos hd, List.dropWhile_append_of_pos hd]
  cases rest with
  | nil => simp
  | cons c rest =>
    have hc : c.isDigit = false := by simpa using hhead
    simp [hc]

/-- **A numeral is read** as its number. -/
theorem numeral_toDigits {n : Nat} (hn : n ≤ maxSignificand) {rest : List Char} (h : Ends rest) :
    Gives (numeral false (Nat.toDigits 10 n ++ rest)) (.natural n) rest := by
  obtain ⟨htake, hdrop⟩ := takeWhile_toDigits h n
  obtain ⟨c, digits, hdigits, hc⟩ := Digit.exists_toDigits n
  by_cases hzero : c = '0'
  · subst hzero
    obtain rfl := Digit.eq_zero_of_toDigits hdigits
    rw [Nat.toDigits_zero]
    show Gives (if rest.head?.any Char.isDigit then _ else (afterInteger false 0 [] rest).map fun r => r.behind) _ _
    rw [(head_of_ends h).1]
    exact (afterInteger_ends h 0).behind
  · have hdigits' : takeDigits 0 (Nat.toDigits 10 n) = (n, []) := by
      have := Nat.ofDigitChars_ten_toDigits (n := n)
      rw [takeDigits_eq (by rw [this]; exact hn), this]
    rw [hdigits] at htake hdrop ⊢
    rw [hdigits] at hdigits'
    simp only [List.cons_append] at htake hdrop ⊢
    rw [numeral, if_pos hc, htake, hdigits']
    · refine Gives.within ?_ _
      rw [hdrop]
      exact afterInteger_ends h n
    · exact hzero

/-! ## Values -/

/-- A value that is read as it is written: its numbers fit, no object has a key twice, and lists and objects are around
one another to a depth at most. -/
def Readable : (depth : Nat) → Value → Prop
  | _, .number n => ∃ k ≤ maxSignificand, n = .natural k
  | 0, .list _ => False
  | 0, .object _ => False
  | depth + 1, .list vs => ∀ v ∈ vs, Readable depth v
  | depth + 1, .object fields => (Fields.keys fields).Nodup ∧ ∀ f ∈ fields, Readable depth f.2
  | _, _ => True

theorem natural_of_readable {depth : Nat} {n : Number} (h : Readable depth (.number n)) :
    ∃ k ≤ maxSignificand, n = .natural k := by
  cases depth <;> exact h

theorem readable_natural {n : Nat} (h : n ≤ maxSignificand) (depth : Nat) : Readable depth (.ofNat n) := by
  cases depth <;> exact ⟨n, h, rfl⟩

theorem readable_string (s : String) (depth : Nat) : Readable depth (.string s) := by
  cases depth <;> trivial

section Values

variable {depth : Nat} {s rest r : List Char} {v : Value} {item : (s : List Char) → Except Trouble (Read Value s)}

/-- A list after blanks. -/
theorem valueOf_list (hs : skipSpace s = '[' :: rest) (h : Gives (list item rest) v r) :
    Gives (valueOf (some item) s) v r := by
  unfold valueOf
  split
  · rename_i heq
    cases heq
  · rename_i heq
    cases heq
  · rename_i heq hitem
    cases hitem
    cases hs.symm.trans heq
    exact h.within _
  · rename_i heq _
    cases hs.symm.trans heq
  · rename_i hother _
    exact (hother rest item hs rfl).elim

/-- An object after blanks. -/
theorem valueOf_object (hs : skipSpace s = '{' :: rest) (h : Gives (object item rest) v r) :
    Gives (valueOf (some item) s) v r := by
  unfold valueOf
  split
  · rename_i heq
    cases heq
  · rename_i heq
    cases heq
  · rename_i heq _
    cases hs.symm.trans heq
  · rename_i heq hitem
    cases hitem
    cases hs.symm.trans heq
    exact h.within _
  · rename_i _ hother
    exact (hother rest item hs rfl).elim

/-- A value that is neither a list nor an object after blanks. -/
theorem valueOf_scalar {inner : Option ((s : List Char) → Except Trouble (Read Value s))} {c : Char}
    (hs : skipSpace s = c :: rest) (hb : c ≠ '[') (hc : c ≠ '{') (h : Gives (scalar (c :: rest)) v r) :
    Gives (valueOf inner s) v r := by
  unfold valueOf
  split
  · rename_i heq
    cases hs.symm.trans heq
    exact absurd rfl hb
  · rename_i heq
    cases hs.symm.trans heq
    exact absurd rfl hc
  · rename_i heq
    cases hs.symm.trans heq
    exact absurd rfl hb
  · rename_i heq
    cases hs.symm.trans heq
    exact absurd rfl hc
  · refine Gives.within ?_ _
    rw [hs]
    exact h

theorem word_append {input : List Char} (v : Value) : ∀ (expected rest : List Char)
    (h : (expected ++ rest).length ≤ input.length), Gives (word input expected v (expected ++ rest) h) v rest
  | [], rest, h => ⟨h, rfl⟩
  | c :: expected, rest, h => by
    show Gives (if c = c then word input expected v (expected ++ rest) _ else _) v rest
    rw [if_pos rfl]
    exact word_append v expected rest _

theorem scalar_null (rest : List Char) : Gives (scalar ('n' :: ['u', 'l', 'l'] ++ rest)) .null rest :=
  (word_append .null ['u', 'l', 'l'] rest (Nat.le_refl _)).behind

theorem scalar_true (rest : List Char) : Gives (scalar ('t' :: ['r', 'u', 'e'] ++ rest)) (.bool true) rest :=
  (word_append (.bool true) ['r', 'u', 'e'] rest (Nat.le_refl _)).behind

theorem scalar_false (rest : List Char) :
    Gives (scalar ('f' :: ['a', 'l', 's', 'e'] ++ rest)) (.bool false) rest :=
  (word_append (.bool false) ['a', 'l', 's', 'e'] rest (Nat.le_refl _)).behind

theorem scalar_string {text : String} {s : List Char} (h : Quoted standard text s) (rest : List Char) :
    Gives (scalar (s ++ rest)) (.string text) rest := by
  obtain ⟨written, hw, _, rfl⟩ := h
  have htext : '"' :: written ++ ['"'] ++ rest = '"' :: (written ++ '"' :: rest) := by simp
  obtain ⟨hle, hread⟩ := body_written hw rest
  rw [htext, scalar, hread]
  exact ⟨Nat.le_trans hle (Nat.le_succ _), rfl⟩

theorem scalar_natural {n : Nat} (hn : n ≤ maxSignificand) {rest : List Char} (h : Ends rest) :
    Gives (scalar (Nat.toDigits 10 n ++ rest)) (.ofNat n) rest := by
  have hread := (numeral_toDigits hn h).map Value.number
  obtain ⟨c, digits, hdigits, hc⟩ := Digit.exists_toDigits n
  rw [hdigits] at hread ⊢
  simp only [List.cons_append] at hread ⊢
  rw [scalar, if_pos hc]
  · exact hread
  all_goals rintro rfl
  all_goals simp at hc

/-! ## Lists -/

theorem items_last {input : List Char} (hitem : Gives (item s) v r) (hr : skipSpace r = ']' :: rest)
    (before : List Value) (h : s.length ≤ input.length) :
    Gives (@items input item before s h) (.list (before.reverse ++ [v])) rest := by
  obtain ⟨hle, hitem⟩ := hitem
  rw [items, hitem]
  simp only
  split
  · rename_i heq
    cases hr.symm.trans heq
  · rename_i heq
    cases hr.symm.trans heq
    exact ⟨by have := length_skipSpace_le r; rw [hr] at this; simp at this; omega, by simp⟩
  · rename_i heq
    cases hr.symm.trans heq
  · rename_i hother _ 
    exact (hother _ hr).elim

/-- Items go on after a comma. -/
theorem items_next {input t : List Char} {w : Value} {c : Char} (hitem : Gives (item s) v r)
    (hr : skipSpace r = ',' :: rest) (hrest : skipSpace rest = c :: t) (hc : c ≠ ']') {before : List Value}
    {left : List Char} (hnext : ∀ h, Gives (@items input item (v :: before) rest h) w left)
    (h : s.length ≤ input.length) : Gives (@items input item before s h) w left := by
  obtain ⟨hle, hitem⟩ := hitem
  rw [items, hitem]
  simp only
  split
  · rename_i heq
    cases hr.symm.trans heq
  · rename_i heq
    cases hr.symm.trans heq
  · rename_i heq
    cases hr.symm.trans heq
    split
    · rename_i heq
      cases hrest.symm.trans heq
    · rename_i heq
      cases hrest.symm.trans heq
      exact absurd rfl hc
    · exact hnext _
  · rename_i hother
    exact (hother _ hr).elim

/-- Brackets with nothing between them. -/
theorem list_empty (hs : skipSpace s = ']' :: rest) : Gives (list item s) (.list []) rest := by
  unfold list
  split
  · rename_i heq
    cases hs.symm.trans heq
  · rename_i heq
    cases hs.symm.trans heq
    exact ⟨_, rfl⟩
  · rename_i _ hother
    exact (hother _ hs).elim

theorem list_items {c : Char} (hs : skipSpace s = c :: rest) (hc : c ≠ ']')
    (h : Gives (items item [] s (length_all_le s)) v r) : Gives (list item s) v r := by
  unfold list
  split
  · rename_i heq
    cases hs.symm.trans heq
  · rename_i heq
    cases hs.symm.trans heq
    exact absurd rfl hc
  · exact h

/-! ## Objects -/

theorem fieldValue_colon (hs : skipSpace s = ':' :: rest) (h : Gives (item rest) v r) :
    Gives (fieldValue item s) v r := by
  unfold fieldValue
  split
  · rename_i heq
    cases hs.symm.trans heq
  · rename_i heq
    cases hs.symm.trans heq
    exact h.within _
  · rename_i hother
    exact (hother _ hs).elim

/-- The last member of an object. -/
theorem fields_last {input k : List Char} {key : String} (hkey : Gives (body s) key k)
    (hvalue : Gives (fieldValue item k) v r) (hr : skipSpace r = '}' :: rest) (before : Fields Value)
    (h : s.length ≤ input.length) :
    Gives (@fields input item before s h) (.object (before.put key v)) rest := by
  obtain ⟨hle, hkey⟩ := hkey
  obtain ⟨hle', hvalue⟩ := hvalue
  rw [fields, hkey]
  simp only [hvalue]
  split
  · rename_i heq
    cases hr.symm.trans heq
  · rename_i heq
    cases hr.symm.trans heq
    exact ⟨_, rfl⟩
  · rename_i heq
    cases hr.symm.trans heq
  · rename_i hother _
    exact (hother _ hr).elim

/-- Members go on after a comma. -/
theorem fields_next {input k t left : List Char} {key : String} {w : Value} (hkey : Gives (body s) key k)
    (hvalue : Gives (fieldValue item k) v r) (hr : skipSpace r = ',' :: rest) (hrest : skipSpace rest = '"' :: t)
    {before : Fields Value} (hnext : ∀ h, Gives (@fields input item (before.put key v) t h) w left)
    (h : s.length ≤ input.length) : Gives (@fields input item before s h) w left := by
  obtain ⟨hle, hkey⟩ := hkey
  obtain ⟨hle', hvalue⟩ := hvalue
  rw [fields, hkey]
  simp only [hvalue]
  split
  · rename_i heq
    cases hr.symm.trans heq
  · rename_i heq
    cases hr.symm.trans heq
  · rename_i heq
    cases hr.symm.trans heq
    split
    · rename_i heq
      cases hrest.symm.trans heq
    · rename_i heq
      cases hrest.symm.trans heq
      exact hnext _
    · rename_i heq
      cases hrest.symm.trans heq
    · rename_i hother _
      exact (hother _ hrest).elim
  · rename_i hother
    exact (hother _ hr).elim

theorem object_empty (hs : skipSpace s = '}' :: rest) : Gives (object item s) (.object []) rest := by
  unfold object
  split
  · rename_i heq
    cases hs.symm.trans heq
  · rename_i heq
    cases hs.symm.trans heq
    exact ⟨_, rfl⟩
  · rename_i heq
    cases hs.symm.trans heq
  · rename_i hother _
    exact (hother _ hs).elim

theorem object_fields (hs : skipSpace s = '"' :: rest) (h : ∀ h, Gives (@fields s item [] rest h) v r) :
    Gives (object item s) v r := by
  unfold object
  split
  · rename_i heq
    cases hs.symm.trans heq
  · rename_i heq
    cases hs.symm.trans heq
  · rename_i heq
    cases hs.symm.trans heq
    exact h _
  · rename_i hother
    exact (hother _ hs).elim

end Values

end RunAudit.Json
