/-!
# Places and characters

Classes of characters, and the places between the characters of a text. A place counts lines, columns in the
line, and characters in all, each from zero.
-/

namespace RunAudit.Yaml

/-- Whether a character breaks a line. -/
def isBreak (c : Char) : Bool :=
  c = '\n' || c = '\r' || c = '\x85' || c = '\u2028' || c = '\u2029'

/-- Whether a character is blank within a line. -/
def isBlank (c : Char) : Bool := c = ' ' || c = '\t'

/-- Whether a character parts words. -/
def isBlankOrBreak (c : Char) : Bool := isBlank c || c = '\x00' || isBreak c

/-- Whether a text begins with what parts words, or is at its end. -/
def atWordEnd (s : List Char) : Bool := s.head?.all isBlankOrBreak

/-- Whether a character may stand in a name. -/
def isNameChar (c : Char) : Bool := c.isAlphanum || c = '_' || c = '-'

/-- Whether a character means something where a scalar begins, whatever follows it. -/
def isIndicator (c : Char) : Bool :=
  ['#', ',', '[', ']', '{', '}', '&', '*', '!', '|', '>', '\'', '"', '%', '@', '`'].contains c

/-- Whether a character may stand in a document. -/
def isAllowed (c : Char) : Bool :=
  let n := c.toNat
  n = 0x9 || n = 0xA || n = 0xD || (0x20 ≤ n && n ≤ 0x7E) || n = 0x85 || (0xA0 ≤ n && n ≤ 0xD7FF) ||
    (0xE000 ≤ n && n ≤ 0xFFFD) || 0x10000 ≤ n

/-- A place in a text. -/
structure Mark where
  line : Nat
  column : Nat
  index : Nat
  deriving DecidableEq, Repr

namespace Mark

/-- The start of a text. -/
def start : Mark := ⟨0, 0, 0⟩

/-- The place after some characters of the same line. -/
def past (m : Mark) (count : Nat) : Mark := ⟨m.line, m.column + count, m.index + count⟩

/-- The place after a character. -/
def next (m : Mark) : Mark := m.past 1

/-- The place after a line break of some characters. -/
def newLine (m : Mark) (count : Nat) : Mark := ⟨m.line + 1, 0, m.index + count⟩

/-- The wording of a place; the start of the text is not worth a mention. -/
def suffix (m : Mark) : String :=
  if m.line = 0 ∧ m.column = 0 then "" else s!" at line {m.line + 1} column {m.column + 1}"

end Mark

/-- What is left of a text, and the place where that begins. -/
structure Rest where
  text : List Char
  mark : Mark
  deriving DecidableEq, Repr

namespace Rest

/-- Passes over characters of the same line. -/
def past (r : Rest) (count : Nat) : Rest := ⟨r.text.drop count, r.mark.past count⟩

/-- The characters of a kind at the front, and what follows. None of them may break a line. -/
def takeWhile (r : Rest) (p : Char → Bool) : List Char × Rest :=
  let taken := r.text.takeWhile p
  (taken, ⟨r.text.dropWhile p, r.mark.past taken.length⟩)

/-- Passes over characters of a kind. None of them may break a line. -/
def dropWhile (r : Rest) (p : Char → Bool) : Rest := (r.takeWhile p).2

/-- Passes over a line break, if there is one. -/
def skipBreak (r : Rest) : Rest :=
  match r.text with
  | '\r' :: '\n' :: rest => ⟨rest, r.mark.newLine 2⟩
  | c :: rest => if isBreak c then ⟨rest, r.mark.newLine 1⟩ else r
  | [] => r

/-- Passes over blanks and a comment after them, up to the end of the line; nothing else may follow. -/
def toLineEnd? (r : Rest) : Option Rest :=
  let r := r.dropWhile isBlank
  let r := if r.text.head? = some '#' then r.dropWhile fun c => !isBreak c else r
  if r.text.head?.all isBreak then some r.skipBreak else none

end Rest

/-- How a line break counts in a text: the separators of Unicode stay, and every other one is a line feed. -/
def foldBreak (c : Char) : Char := if c = '\u2028' ∨ c = '\u2029' then c else '\n'

/-- Whether a line begins with the mark of a document's start or end. -/
def startsWithDocumentMark (s : List Char) : Bool :=
  match s with
  | '-' :: '-' :: '-' :: rest => atWordEnd rest
  | '.' :: '.' :: '.' :: rest => atWordEnd rest
  | _ => false

end RunAudit.Yaml
