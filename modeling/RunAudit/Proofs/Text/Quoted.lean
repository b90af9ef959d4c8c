import RunAudit.Proofs.Numerals
import RunAudit.Text.Quoted

/-!
# Quoted texts tell what they quote

`first?` reads the character that stands first in the body of a quoted text, and finds none at the quote that ends it.
It reads each escape back, whatever follows (`first?_escape`), so a body that is followed by its quote has one text and
one end (`body_append_inj`), even if the text holds quotes, commas or brackets itself. So lists and sets of texts are
divided into their texts in one way only (`list_injective`, `set_injective`).
-/

namespace RunAudit.Text.Quoted

/-! ## One character -/

/-- The character that a letter behind a backslash stands for. -/
def named? : Char → Option Char
  | '"' => some '"'
  | '\\' => some '\\'
  | 'n' => some '\n'
  | 'r' => some '\r'
  | 't' => some '\t'
  | '0' => some '\x00'
  | _ => none

/-- The character of an escape behind its backslash, and what follows it. -/
def escaped? : List Char → Option (Char × List Char)
  | 'u' :: '{' :: rest =>
    (Digit.natural? 16 (rest.takeWhile (· ≠ '}'))).map fun code =>
      (Char.ofNat code, (rest.dropWhile (· ≠ '}')).drop 1)
  | letter :: rest => (named? letter).map (·, rest)
  | [] => none

/-- The first character of a body, and what follows it. -/
def first? : List Char → Option (Char × List Char)
  | [] => none
  | c :: rest => if c = '"' then none else if c = '\\' then escaped? rest else some (c, rest)

/-- A hexadecimal numeral does not hold the brace that ends it. -/
theorem brace_not_mem_toDigits (n : Nat) : ∀ c ∈ Nat.toDigits 16 n, decide (c ≠ '}') = true := by
  intro c hc
  obtain ⟨d, hd⟩ := Digit.value?_of_appendTo (Digit.number_toDigits (by decide) (Nat.le_refl 16) n) c hc
  exact decide_eq_true (Digit.ne_of_value? (Nat.le_refl 16) hd (by decide))

theorem first?_numeric (c : Char) (rest : List Char) : first? (numeric c ++ rest) = some (c, rest) := by
  have hbrace := brace_not_mem_toDigits c.toNat
  have htake : (Nat.toDigits 16 c.toNat ++ '}' :: rest).takeWhile (· ≠ '}') = Nat.toDigits 16 c.toNat := by
    rw [List.takeWhile_append_of_pos hbrace]
    simp
  have hdrop : (Nat.toDigits 16 c.toNat ++ '}' :: rest).dropWhile (· ≠ '}') = '}' :: rest := by
    rw [List.dropWhile_append_of_pos hbrace]
    simp
  calc first? (numeric c ++ rest)
      = escaped? ('u' :: '{' :: (Nat.toDigits 16 c.toNat ++ '}' :: rest)) := by simp [numeric, first?]
    _ = some (Char.ofNat c.toNat, rest) := by
      rw [escaped?, htake, hdrop, Digit.natural?_toDigits (by decide) (Nat.le_refl 16)]
      rfl
    _ = some (c, rest) := by rw [Char.ofNat_toNat]

/-- **Every escape is read back**, whatever follows it. -/
theorem first?_escape (c : Char) (rest : List Char) : first? (escape c ++ rest) = some (c, rest) := by
  unfold escape
  split
  case h_7 hquote hbackslash _ _ _ _ =>
    split
    · exact first?_numeric c rest
    · simp only [List.singleton_append, first?, if_neg hquote, if_neg hbackslash]
  all_goals rfl

/-! ## Texts -/

theorem first?_body (c : Char) (text rest : List Char) :
    first? (body (c :: text) ++ rest) = some (c, body text ++ rest) := by
  rw [body, List.flatMap_cons, List.append_assoc, first?_escape, body]

/-- **A body has one text and one end.** -/
theorem body_append_inj : ∀ {text text' rest rest' : List Char},
    body text ++ '"' :: rest = body text' ++ '"' :: rest' → text = text' ∧ rest = rest'
  | [], [], _, _, h => ⟨rfl, (List.cons.inj h).2⟩
  | [], c :: text', rest, rest', h => by
    have hfirst := congrArg first? h
    rw [first?_body] at hfirst
    cases hfirst
  | c :: text, [], rest, rest', h => by
    have hfirst := congrArg first? h
    rw [first?_body] at hfirst
    cases hfirst
  | c :: text, c' :: text', rest, rest', h => by
    have hfirst := congrArg first? h
    rw [first?_body, first?_body] at hfirst
    obtain ⟨rfl, hbehind⟩ := Prod.mk.inj (Option.some.inj hfirst)
    obtain ⟨rfl, hrest⟩ := body_append_inj hbehind
    exact ⟨rfl, hrest⟩

theorem toList_quote (text : String) : (quote text).toList = '"' :: (body text.toList ++ ['"']) := by
  simp [quote]

/-! ## Lists and sets -/

/-- Texts as they stand behind another one, each after a comma. -/
def following : List String → List Char
  | [] => []
  | text :: rest => ',' :: ' ' :: '"' :: (body text.toList ++ '"' :: following rest)

/-- Texts that follow another one are told apart. -/
theorem following_injective : ∀ {texts texts' : List String}, following texts = following texts' → texts = texts'
  | [], [], _ => rfl
  | [], _ :: _, h => by cases h
  | _ :: _, [], h => by cases h
  | text :: rest, text' :: rest', h => by
    simp only [following, List.cons.injEq, true_and] at h
    obtain ⟨htext, hrest⟩ := body_append_inj h
    rw [String.toList_inj.1 htext, following_injective hrest]

/-- Items are written as behind another one, without the first comma. -/
theorem toList_items : ∀ texts : List String, (items (texts.map quote)).toList = (following texts).drop 2
  | [] => rfl
  | [text] => by simp [items, following, toList_quote]
  | text :: next :: rest => by
    have ih := toList_items (next :: rest)
    simp only [items, String.toList_intercalate, List.map_cons, following, List.drop_succ_cons, List.drop_zero] at ih ⊢
    rw [List.intercalate_cons_cons, ih, toList_quote]
    simp

theorem items_injective {texts texts' : List String} (h : items (texts.map quote) = items (texts'.map quote)) :
    texts = texts' := by
  have hfollowing := congrArg String.toList h
  rw [toList_items, toList_items] at hfollowing
  apply following_injective
  cases texts with
  | nil =>
    cases texts' with
    | nil => rfl
    | cons => cases hfollowing
  | cons =>
    cases texts' with
    | nil => cases hfollowing
    | cons => exact congrArg (fun behind => ',' :: ' ' :: behind) hfollowing

/-- What stands between an opening and a closing bracket. -/
theorem eq_of_bracketed {opening closing text text' : String}
    (h : opening ++ text ++ closing = opening ++ text' ++ closing) : text = text' := by
  have hlist := congrArg String.toList h
  simp only [String.toList_append] at hlist
  exact String.toList_inj.1 (List.append_cancel_left (List.append_cancel_right hlist))

/-- **Lists of texts** are told apart by how they are written. -/
theorem list_injective : Function.Injective list := fun _ _ h => items_injective (eq_of_bracketed h)

/-- **Sets of texts** are told apart by how they are written. -/
theorem set_injective : Function.Injective set := fun _ _ h => items_injective (eq_of_bracketed h)

/-- A text that holds what stands between two others is not taken for them. -/
example : list ["a\", \"b"] = "[\"a\\\", \\\"b\"]" ∧ list ["a", "b"] = "[\"a\", \"b\"]" := by decide +kernel

end RunAudit.Text.Quoted
