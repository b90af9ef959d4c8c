import RunAudit.Json.Quoted
import RunAudit.Value

/-!
# The grammar of documents

What a text must be to write a value: `Derives` has one rule for each way to write a value, a value with blanks around
it, the items of a list, and the members of an object. A dialect may restrict how characters are spelled and stand
in strings, and what stands before a colon; `standard` has no restriction. Of the numbers only the natural ones are
written here.
-/

namespace RunAudit.Json

open RunAudit.Text

/-- Only blanks. -/
def Blank (s : List Char) : Prop := ∀ c ∈ s, isSpace c = true

/-- The letters after a backslash, with what they stand for. -/
def shortEscapes : List (Char × Char) := [('"', '"'), ('\\', '\\'), ('/', '/'), ('b', '\x08'), ('f', '\x0c'),
  ('n', '\n'), ('r', '\r'), ('t', '\t')]

/-- **How a character is spelled** in a string. -/
inductive Spelled : Char → List Char → Prop
  | plain {c : Char} : 0x20 ≤ c.toNat → c ≠ '"' → c ≠ '\\' → Spelled c [c]
  | short {letter c : Char} : (letter, c) ∈ shortEscapes → Spelled c ['\\', letter]
  | code {c : Char} {digits : List Char} : digits.length = 4 → Digit.number 16 digits = .ok c.toNat →
      Spelled c ('\\' :: 'u' :: digits)
  /-- Characters beyond four digits are written as the two halves of a surrogate pair. -/
  | pair {c : Char} {high low : List Char} : 0x10000 ≤ c.toNat → high.length = 4 → low.length = 4 →
      Digit.number 16 high = .ok (0xD800 + (c.toNat - 0x10000) / 0x400) →
      Digit.number 16 low = .ok (0xDC00 + (c.toNat - 0x10000) % 0x400) →
      Spelled c ('\\' :: 'u' :: (high ++ '\\' :: 'u' :: low))

/-- What a dialect allows. -/
structure Dialect where
  /-- How a character may be spelled. -/
  char : Char → List Char → Prop
  /-- How the characters of a string may stand between its quotes. -/
  body : List Char → Prop
  /-- The blanks that may stand between a key as it is written and its colon. -/
  colon : List Char → List Char → Prop

/-- The dialect without restrictions. -/
def standard : Dialect := ⟨Spelled, fun _ => True, fun _ _ => True⟩

/-- The characters of a string as they are spelled. -/
inductive Body (d : Dialect) : List Char → List Char → Prop
  | nil : Body d [] []
  | cons {c : Char} {s text written : List Char} : d.char c s → Body d text written → Body d (c :: text) (s ++ written)

/-- A string between its quotes. -/
def Quoted (d : Dialect) (text : String) (s : List Char) : Prop :=
  ∃ written, Body d text.toList written ∧ d.body written ∧ s = '"' :: written ++ ['"']

/-- What the rules of the grammar are about. -/
inductive Phrase where
  | value (v : Value)
  /-- A value with blanks around it. -/
  | element (v : Value)
  /-- Items with commas between them. -/
  | items (vs : List Value)
  | member (key : String) (v : Value)
  /-- Members with commas between them. -/
  | members (fields : Fields Value)

/-- **What is written as what.** -/
inductive Derives (d : Dialect) : Phrase → List Char → Prop
  | null : Derives d (.value .null) ['n', 'u', 'l', 'l']
  | true : Derives d (.value (.bool true)) ['t', 'r', 'u', 'e']
  | false : Derives d (.value (.bool false)) ['f', 'a', 'l', 's', 'e']
  | natural (n : Nat) : Derives d (.value (.ofNat n)) (Nat.toDigits 10 n)
  | string {text : String} {s : List Char} : Quoted d text s → Derives d (.value (.string text)) s
  | emptyList {b : List Char} : Blank b → Derives d (.value (.list [])) ('[' :: b ++ [']'])
  | list {vs : List Value} {s : List Char} : Derives d (.items vs) s → Derives d (.value (.list vs)) ('[' :: s ++ [']'])
  | emptyObject {b : List Char} : Blank b → Derives d (.value (.object [])) ('{' :: b ++ ['}'])
  | object {fields : Fields Value} {s : List Char} : Derives d (.members fields) s →
      Derives d (.value (.object fields)) ('{' :: s ++ ['}'])
  | element {v : Value} {b s b' : List Char} : Blank b → Derives d (.value v) s → Blank b' →
      Derives d (.element v) (b ++ s ++ b')
  | item {v : Value} {s : List Char} : Derives d (.element v) s → Derives d (.items [v]) s
  | items {v : Value} {vs : List Value} {s t : List Char} : Derives d (.element v) s → Derives d (.items vs) t →
      Derives d (.items (v :: vs)) (s ++ ',' :: t)
  | member {key : String} {v : Value} {b k b' s : List Char} : Blank b → Quoted d key k → Blank b' → d.colon k b' →
      Derives d (.element v) s → Derives d (.member key v) (b ++ k ++ b' ++ ':' :: s)
  | field {key : String} {v : Value} {s : List Char} : Derives d (.member key v) s → Derives d (.members [(key, v)]) s
  | fields {key : String} {v : Value} {fields : Fields Value} {s t : List Char} : Derives d (.member key v) s →
      Derives d (.members fields) t → Derives d (.members ((key, v) :: fields)) (s ++ ',' :: t)

section Mono

variable {d d' : Dialect} (hchar : ∀ c s, d.char c s → d'.char c s) (hbody : ∀ s, d.body s → d'.body s)
include hchar hbody

theorem Quoted.mono {text : String} {s : List Char} (h : Quoted d text s) : Quoted d' text s := by
  have hwritten : ∀ {text written : List Char}, Body d text written → Body d' text written := by
    intro text written hw
    induction hw with
    | nil => exact .nil
    | cons hc _ ih => exact .cons (hchar _ _ hc) ih
  obtain ⟨written, hw, hstand, rfl⟩ := h
  exact ⟨written, hwritten hw, hbody _ hstand, rfl⟩

/-- A text of one dialect is one of any dialect that allows more. -/
theorem Derives.mono (hcolon : ∀ k b, d.colon k b → d'.colon k b) {p : Phrase} {s : List Char} (h : Derives d p s) :
    Derives d' p s := by
  induction h with
  | null => exact .null
  | true => exact .true
  | false => exact .false
  | natural n => exact .natural n
  | string hs => exact .string (hs.mono hchar hbody)
  | emptyList hb => exact .emptyList hb
  | list _ ih => exact .list ih
  | emptyObject hb => exact .emptyObject hb
  | object _ ih => exact .object ih
  | element hb _ hb' ih => exact .element hb ih hb'
  | item _ ih => exact .item ih
  | items _ _ ih ih' => exact .items ih ih'
  | member hb hk hb' hc _ ih => exact .member hb (hk.mono hchar hbody) hb' (hcolon _ _ hc) ih
  | field _ ih => exact .field ih
  | fields _ _ ih ih' => exact .fields ih ih'

end Mono

/-- Whether what follows a value ends it, as a numeral is not ended by another digit. -/
def Ends (rest : List Char) : Prop := ∀ c ∈ rest.head?, isSpace c = true ∨ c = ',' ∨ c = ']' ∨ c = '}'

theorem ends_nil : Ends [] := fun _ h => by cases h

theorem ends_cons {c : Char} (h : c = ',' ∨ c = ']' ∨ c = '}') (s : List Char) : Ends (c :: s) := by
  intro x hx
  cases hx
  exact .inr h

theorem Blank.ends {b rest : List Char} (hb : Blank b) (h : Ends rest) : Ends (b ++ rest) := by
  cases b with
  | nil => exact h
  | cons c b =>
    intro x hx
    cases hx
    exact .inl (hb c List.mem_cons_self)

theorem blank_nil : Blank [] := fun _ h => by cases h

theorem Blank.append {b b' : List Char} (h : Blank b) (h' : Blank b') : Blank (b ++ b') := fun c hc =>
  (List.mem_append.1 hc).elim (h c) (h' c)

end RunAudit.Json
