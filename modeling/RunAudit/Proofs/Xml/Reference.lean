import RunAudit.Proofs.Numerals
import RunAudit.Xml.Reference

/-!
# Values that are read back

`Escaped quote value raw` says that `raw` writes a value between quotes: each character as it is, unless it is the
quote or a `&`, or as a reference by name or by number. Such a text stands for the value (`unescape_of_escaped`) and
holds no quote (`quote_not_mem_of_escaped`); what the printer writes is one (`escaped_escape`).
-/

namespace RunAudit.Xml

open RunAudit.Text

/-! ## Escaped values -/

/-- **A value as it may be written** between quotes. -/
inductive Escaped (quote : Char) : List Char → List Char → Prop
  | nil : Escaped quote [] []
  | plain {c : Char} {value raw : List Char} :
      c ≠ '&' → c ≠ quote → Escaped quote value raw → Escaped quote (c :: value) (c :: raw)
  | named {c : Char} {name value raw : List Char} :
      named? name = some c → Escaped quote value raw → Escaped quote (c :: value) ('&' :: (name ++ ';' :: raw))
  | decimal {c : Char} {digits value raw : List Char} :
      c ≠ '\x00' → digits.length ≤ 7 → Digit.number 10 digits = .ok c.toNat → Escaped quote value raw →
        Escaped quote (c :: value) ('&' :: ('#' :: digits ++ ';' :: raw))
  | hexadecimal {c : Char} {digits value raw : List Char} :
      c ≠ '\x00' → digits.length ≤ 6 → Digit.number 16 digits = .ok c.toNat → Escaped quote value raw →
        Escaped quote (c :: value) ('&' :: ('#' :: 'x' :: digits ++ ';' :: raw))

/-- The five names. -/
theorem named?_eq_some {name : List Char} {c : Char} (h : named? name = some c) :
    (name = ['l', 't'] ∧ c = '<') ∨ (name = ['g', 't'] ∧ c = '>') ∨ (name = ['a', 'm', 'p'] ∧ c = '&') ∨
      (name = ['a', 'p', 'o', 's'] ∧ c = '\'') ∨ (name = ['q', 'u', 'o', 't'] ∧ c = '"') := by
  unfold named? at h
  split at h <;> cases h <;> simp

theorem size_eq_length {s : List Char} (h : ∀ c ∈ s, c.utf8Size = 1) : Utf8.size s = s.length := by
  have : ∀ (s : List Char) (n : Nat), (∀ c ∈ s, c.utf8Size = 1) →
      s.foldl (fun n c => n + c.utf8Size) n = n + s.length := by
    intro s
    induction s with
    | nil => intro n _; rfl
    | cons c s ih =>
      intro n h
      rw [List.foldl_cons, h c List.mem_cons_self, ih _ fun c hc => h c (List.mem_cons_of_mem _ hc), List.length_cons]
      omega
  rw [Utf8.size, this s 0 h, Nat.zero_add]

/-! ## Resolving references -/

theorem resolve_named {name : List Char} {c : Char} (h : named? name = some c) (start stop : Nat) :
    resolve start stop name = .ok c := by
  rcases named?_eq_some h with ⟨rfl, rfl⟩ | ⟨rfl, rfl⟩ | ⟨rfl, rfl⟩ | ⟨rfl, rfl⟩ | ⟨rfl, rfl⟩ <;> rfl

/-- A reference by number is the character of that number. -/
theorem resolve_code {digits : List Char} {c : Char} (h₀ : c ≠ '\x00') (h : codePoint digits = .ok c.toNat)
    (start stop : Nat) : resolve start stop ('#' :: digits) = .ok c := by
  have hn : c.toNat ≠ 0 := fun e => h₀ (by rw [← Char.ofNat_toNat c, e])
  have hv : c.toNat.isValidChar := c.valid
  have hc : Char.ofNatAux c.toNat hv = c := by
    have := Char.ofNat_toNat c
    rwa [Char.ofNat, dif_pos hv] at this
  rw [resolve, h]
  dsimp only
  rw [if_neg hn, dif_pos hv, hc]

section Numbers

variable {base n : Nat} {digits : List Char} (hb : base ≤ 16) (h : Digit.number base digits = .ok n)
include hb h

theorem size_digits : Utf8.size digits = digits.length :=
  size_eq_length fun c hc => by
    obtain ⟨d, hd⟩ := Digit.value?_of_appendTo h c hc
    exact Digit.utf8Size_of_value? hb hd

theorem ne_of_mem_digits {x : Char} (hx : ¬(('0' ≤ x ∧ x ≤ '9') ∨ ('a' ≤ x ∧ x ≤ 'f') ∨ ('A' ≤ x ∧ x ≤ 'F'))) :
    ∀ c ∈ digits, c ≠ x := fun c hc => by
  obtain ⟨d, hd⟩ := Digit.value?_of_appendTo h c hc
  exact Digit.ne_of_value? hb hd hx

/-- Digits do not end the body of a reference. -/
theorem endsReference_digits : ∀ c ∈ digits, endsReference c = false := fun c hc => by
  have h₁ := ne_of_mem_digits hb h (x := '&') (by decide) c hc
  have h₂ := ne_of_mem_digits hb h (x := ';') (by decide) c hc
  simp [endsReference, h₁, h₂]

end Numbers

theorem codePoint_decimal {digits : List Char} {n : Nat} (hl : digits.length ≤ 7)
    (h : Digit.number 10 digits = .ok n) : codePoint digits = .ok n := by
  have hs := size_digits (by decide) h
  have hx := ne_of_mem_digits (by decide) h (x := 'x') (by decide)
  unfold codePoint
  split
  · rename_i digits
    exact absurd rfl (hx 'x' List.mem_cons_self)
  · rw [if_neg (by omega), h]
    rfl

theorem codePoint_hexadecimal {digits : List Char} {n : Nat} (hl : digits.length ≤ 6)
    (h : Digit.number 16 digits = .ok n) : codePoint ('x' :: digits) = .ok n := by
  have hs := size_digits (by decide) h
  rw [codePoint, if_neg (by omega), h]
  rfl

/-! ## Reading values -/

/-- A reference is read as the character that it stands for. -/
theorem unescapeFrom_reference (total place : Nat) (read after : List Char) {body : List Char} {c : Char}
    (hb : ∀ x ∈ body, endsReference x = false) (hr : ∀ start stop, resolve start stop body = .ok c) :
    ∃ place', unescapeFrom total read place ('&' :: (body ++ ';' :: after)) =
      unescapeFrom total (c :: read) place' after := by
  have hd : (body ++ ';' :: after).dropWhile (fun c => !endsReference c) = ';' :: after := by
    rw [List.dropWhile_append_of_pos fun x hx => by simp [hb x hx]]
    rfl
  have ht : (body ++ ';' :: after).takeWhile (fun c => !endsReference c) = body := by
    rw [List.takeWhile_append_of_pos fun x hx => by simp [hb x hx]]
    simp [endsReference]
  refine ⟨place + 1 + Utf8.size body + 1, ?_⟩
  rw [unescapeFrom]
  simp only [ne_eq, not_true_eq_false, if_false, ht, hr]
  split
  · rename_i h
    rw [hd] at h
    cases h
    rfl
  · rename_i h
    exact absurd hd (h after)

theorem unescapeFrom_of_escaped {quote : Char} {value raw : List Char} (h : Escaped quote value raw) :
    ∀ (total place : Nat) (read : List Char), unescapeFrom total read place raw = .ok (read.reverse ++ value) := by
  induction h with
  | nil =>
    intro total place read
    rw [unescapeFrom, List.append_nil]
  | @plain c value raw hc _ _ ih =>
    intro total place read
    rw [unescapeFrom, if_pos hc, ih]
    simp
  | @named c name value raw hn _ ih =>
    intro total place read
    have hb : ∀ x ∈ name, endsReference x = false := by
      rcases named?_eq_some hn with ⟨rfl, _⟩ | ⟨rfl, _⟩ | ⟨rfl, _⟩ | ⟨rfl, _⟩ | ⟨rfl, _⟩ <;>
        simp [endsReference]
    obtain ⟨place', h⟩ := unescapeFrom_reference total place read raw hb
      (resolve_named hn)
    rw [h, ih]
    simp
  | @decimal c digits value raw h₀ hl hn _ ih =>
    intro total place read
    have hb : ∀ x ∈ '#' :: digits, endsReference x = false :=
      List.forall_mem_cons.2 ⟨by decide, endsReference_digits (by decide) hn⟩
    obtain ⟨place', h⟩ := unescapeFrom_reference total place read raw hb
      (resolve_code h₀ (codePoint_decimal hl hn))
    rw [h, ih]
    simp
  | @hexadecimal c digits value raw h₀ hl hn _ ih =>
    intro total place read
    have hb : ∀ x ∈ '#' :: 'x' :: digits, endsReference x = false :=
      List.forall_mem_cons.2 ⟨by decide, List.forall_mem_cons.2 ⟨by decide, endsReference_digits (by decide) hn⟩⟩
    obtain ⟨place', h⟩ := unescapeFrom_reference total place read raw hb
      (resolve_code h₀ (codePoint_hexadecimal hl hn))
    rw [h, ih]
    simp

/-- **An escaped value is read back.** -/
theorem unescape_of_escaped {quote : Char} {value raw : List Char} (h : Escaped quote value raw) :
    unescape raw = .ok value := unescapeFrom_of_escaped h _ _ _

/-! ## Quotes -/

/-- Either kind of quote. -/
def IsQuote (c : Char) : Prop := c = '"' ∨ c = '\''

/-- No reference holds a quote, so that an escaped value ends at the quote after it. -/
theorem quote_not_mem_of_escaped {quote : Char} (hq : IsQuote quote) {value raw : List Char}
    (h : Escaped quote value raw) : quote ∉ raw := by
  have hd : ∀ {base n : Nat} {digits : List Char}, base ≤ 16 → Digit.number base digits = .ok n → quote ∉ digits := by
    intro base n digits hb hn hm
    refine ne_of_mem_digits hb hn (x := quote) ?_ quote hm rfl
    rcases hq with rfl | rfl <;> decide
  have hne : quote ≠ '&' ∧ quote ≠ ';' ∧ quote ≠ '#' ∧ quote ≠ 'x' := by rcases hq with rfl | rfl <;> decide
  induction h with
  | nil => exact List.not_mem_nil
  | plain _ hc _ ih => simp [Ne.symm hc, ih]
  | named hn _ ih =>
    rcases hq with rfl | rfl <;>
      rcases named?_eq_some hn with ⟨rfl, _⟩ | ⟨rfl, _⟩ | ⟨rfl, _⟩ | ⟨rfl, _⟩ | ⟨rfl, _⟩ <;> simp [ih]
  | decimal _ _ hn _ ih => simp [hne, hd (by decide) hn, ih]
  | hexadecimal _ _ hn _ ih => simp [hne, hd (by decide) hn, ih]

/-- **What the printer writes** is an escaped value in either kind of quote. -/
theorem escaped_escape {quote : Char} (hq : IsQuote quote) : ∀ value : List Char, Escaped quote value (escape value)
  | [] => .nil
  | c :: value => by
    have ih := escaped_escape hq value
    rw [escape, List.flatMap_cons, ← escape]
    unfold escapeChar
    split
    · exact .named (show named? "lt".toList = some '<' from rfl) ih
    · exact .named (show named? "gt".toList = some '>' from rfl) ih
    · exact .named (show named? "amp".toList = some '&' from rfl) ih
    · exact .named (show named? "apos".toList = some '\'' from rfl) ih
    · exact .named (show named? "quot".toList = some '"' from rfl) ih
    · rename_i h₁ h₂ h₃ h₄ h₅
      refine .plain h₃ ?_ ih
      rcases hq with rfl | rfl
      · exact h₅
      · exact h₄

/-- No angle bracket is left in an escaped text. -/
theorem lt_not_mem_escape : ∀ text : List Char, '<' ∉ escape text
  | [] => List.not_mem_nil
  | c :: text => by
    rw [escape, List.flatMap_cons, ← escape, List.mem_append, not_or]
    refine ⟨?_, lt_not_mem_escape text⟩
    unfold escapeChar
    split <;> first | decide | skip
    rename_i h₁ _ _ _ _
    simpa using Ne.symm h₁

end RunAudit.Xml
