/-!
# A reading step

What a reader makes of the front of a text: a value, the text that is left, and the fact that no more is
left than there was. Loops over a text end because of that fact.
-/

namespace RunAudit.Json

/-- All of a text is no longer than the text. -/
theorem length_all_le (s : List Char) : s.length ≤ s.length := Nat.le_refl _

/-- What follows a character is no longer than the text with it. -/
theorem length_tail_le (c : Char) (s : List Char) : s.length ≤ (c :: s).length := Nat.le_succ _

/-- What follows a character is shorter than the text with it. -/
theorem length_tail_lt (c : Char) (s : List Char) : s.length < (c :: s).length := Nat.lt_succ_self _

/-- A value read from the front of `input`, and what is left. -/
structure Read (α : Type) (input : List Char) where
  value : α
  rest : List Char
  shorter : rest.length ≤ input.length

namespace Read

variable {α β : Type} {input : List Char}

/-- The same reading step for another value. -/
def map (f : α → β) (r : Read α input) : Read β input := ⟨f r.value, r.rest, r.shorter⟩

/-- A reading step of what is left, seen from the whole. -/
def within {rest : List Char} (r : Read α rest) (h : rest.length ≤ input.length) : Read α input :=
  ⟨r.value, r.rest, Nat.le_trans r.shorter h⟩

/-- A value for which nothing is read. -/
def whole (v : α) : Read α input := ⟨v, input, length_all_le input⟩

/-- A value for which one character is read. -/
def afterOne {c : Char} (v : α) : Read α (c :: input) := ⟨v, input, length_tail_le c input⟩

/-- A reading step that is taken after one character. -/
def behind {c : Char} (r : Read α input) : Read α (c :: input) := r.within (length_tail_le c input)

end Read

/-- Whether a character may stand between tokens. -/
def isSpace (c : Char) : Bool := c = ' ' || c = '\n' || c = '\t' || c = '\r'

/-- What follows the blanks at the front. -/
def skipSpace (s : List Char) : List Char := s.dropWhile isSpace

/-- Dropping characters at the front leaves no more than there was. -/
theorem length_dropWhile_le (p : Char → Bool) (s : List Char) : (s.dropWhile p).length ≤ s.length :=
  (List.dropWhile_sublist p).length_le

/-- Skipping blanks leaves no more than there was. -/
theorem length_skipSpace_le (s : List Char) : (skipSpace s).length ≤ s.length := length_dropWhile_le _ s

end RunAudit.Json
