import RunAudit.Xml.Fault
import RunAudit.Text.Utf8

/-!
# Markup items

A document is text with markup in it. `front` finds the first markup at the front of a text: a tag, or
something that says nothing about elements (text, comments, character data sections, instructions, a
document type), or a fault. `scan` lists the tags of a whole text, and the fault that ended it if one did.

A closing tag and an instruction may run to the end of the text; a `<` alone at the end is the end.
-/

namespace RunAudit.Xml

/-- White space of markup. -/
def isSpace (c : Char) : Bool := c = ' ' || c = '\t' || c = '\n' || c = '\r'

/-- A tag as it is written. -/
inductive Item where
  /-- A tag that opens an element: what stands between `<` and `>`. -/
  | opening (content : List Char)
  /-- A tag that is an element without content: what stands between `<` and `/>`. -/
  | empty (content : List Char)
  /-- A tag that closes an element: what stands between `</` and `>`. -/
  | closing (name : List Char)
  deriving DecidableEq, Repr

/-- Splits at the first `>` before which the text, read backwards, is accepted. -/
def splitAtClose (accepts : List Char → Bool) (before : List Char) :
    List Char → Option (List Char × List Char)
  | [] => none
  | c :: rest =>
    if c = '>' && accepts before then some (before.reverse, rest)
    else splitAtClose accepts (c :: before) rest

/-- What follows a split is shorter than what was split. -/
theorem length_splitAtClose {accepts : List Char → Bool} : ∀ {s before content rest : List Char},
    splitAtClose accepts before s = some (content, rest) → rest.length < s.length
  | [], _, _, _, h => by simp [splitAtClose] at h
  | c :: s, before, content, rest, h => by
    unfold splitAtClose at h
    split at h
    · simp only [Option.some.injEq, Prod.mk.injEq] at h
      simp [← h.2]
    · have := length_splitAtClose h
      simp
      omega

/-- A comment ends in two dashes other than those that begin it. -/
def endsComment (before : List Char) : Bool :=
  match before with
  | '-' :: '-' :: _ :: _ :: _ => true
  | _ => false

/-- A character data section ends in two brackets. -/
def endsCdata (before : List Char) : Bool :=
  match before with
  | ']' :: ']' :: _ => true
  | _ => false

/-- A document type ends where its angle brackets balance. -/
def endsDoctype (before : List Char) : Bool := before.count '<' = before.count '>'

/-- Whether a text starts with a word, whatever the case of its letters. -/
def startsWithWord (word s : List Char) : Bool := (s.take word.length).map Char.toUpper = word

/-- What stands between `<` and `>`, where a `>` between quotes does not count; the quote that is open and
the text read (backwards) are given. -/
def tagContent (quote : Option Char) (before : List Char) : List Char → Option (List Char × List Char)
  | [] => none
  | c :: rest =>
    match quote with
    | some q => tagContent (if c = q then none else some q) (c :: before) rest
    | none =>
      if c = '>' then some (before.reverse, rest)
      else tagContent (if c = '"' ∨ c = '\'' then some c else none) (c :: before) rest

/-- What follows a tag is shorter than what its content began. -/
theorem length_tagContent : ∀ {s : List Char} {quote : Option Char} {before content rest : List Char},
    tagContent quote before s = some (content, rest) → rest.length < s.length
  | [], _, _, _, _, h => by simp [tagContent] at h
  | c :: s, quote, before, content, rest, h => by
    unfold tagContent at h
    cases quote with
    | some q =>
      have := length_tagContent h
      simp
      omega
    | none =>
      simp only at h
      split at h
      · simp only [Option.some.injEq, Prod.mk.injEq] at h
        simp [← h.2]
      · have := length_tagContent h
        simp
        omega

/-- The tag of a content: a final `/` makes it an element without content. -/
def Item.ofContent (content : List Char) : Item :=
  if content.getLast? = some '/' then .empty content.dropLast else .opening content

/-- What follows a character is no longer than the text with it. -/
theorem length_rest_le (c : Char) (s : List Char) : s.length ≤ (c :: s).length := Nat.le_succ _

/-- What stands at the front of a text. -/
inductive Front (s : List Char) where
  /-- No more markup. -/
  | done
  | fault (f : Fault)
  /-- Markup that says nothing about elements. -/
  | ignored (rest : List Char) (shorter : rest.length < s.length)
  | item (i : Item) (rest : List Char) (shorter : rest.length < s.length)

/-- The front of a text seen from a longer one. -/
def Front.within {s t : List Char} (f : Front s) (h : s.length ≤ t.length) : Front t :=
  match f with
  | .done => .done
  | .fault f => .fault f
  | .ignored rest shorter => .ignored rest (by omega)
  | .item i rest shorter => .item i rest (by omega)

/-- A declaration after its `<!`. -/
def declaration (s : List Char) : Front s :=
  match s with
  | [] => .fault (.unclosed .bang)
  | c :: rest =>
    if c = '-' then
      match h : splitAtClose endsComment [] (c :: rest) with
      | some (content, rest) =>
        if content.take 2 = ['-', '-'] then .ignored rest (length_splitAtClose h)
        else .fault (.unclosed .comment)
      | none => .fault (.unclosed .comment)
    else if c = '[' then
      match h : splitAtClose endsCdata [] (c :: rest) with
      | some (content, rest) =>
        if startsWithWord "[CDATA[".toList content.dropLast.dropLast then .ignored rest (length_splitAtClose h)
        else .fault (.unclosed .cdata)
      | none => .fault (.unclosed .cdata)
    else if c = 'D' ∨ c = 'd' then
      match h : splitAtClose endsDoctype [] (c :: rest) with
      | some (content, rest) =>
        if !startsWithWord "DOCTYPE".toList content then .fault (.unclosed .doctype)
        else if (content.drop 7).all isSpace then .fault .emptyDoctype
        else .ignored rest (length_splitAtClose h)
      | none => .fault (.unclosed .doctype)
    else .fault (.unknownDeclaration (Char.ofNat (Text.Utf8.leadOctet c)))

/-- What precedes the first `>`, or the end. -/
def untilClose (s : List Char) : List Char := s.takeWhile (· ≠ '>')

/-- What follows the first `>`. -/
def afterClose (s : List Char) : List Char := (s.dropWhile (· ≠ '>')).drop 1

/-- What follows the first `>` is no longer than the text. -/
theorem length_afterClose_le (s : List Char) : (afterClose s).length ≤ s.length := by
  have := (List.dropWhile_sublist (l := s) (· ≠ '>')).length_le
  unfold afterClose
  simp only [List.length_drop]
  omega

/-- What follows the first `>` is shorter than the text with one more character. -/
theorem length_afterClose_lt (c : Char) (s : List Char) : (afterClose s).length < (c :: s).length :=
  Nat.lt_succ_of_le (length_afterClose_le s)

/-- Whether the body of an instruction, after its `<?`, ends in a `?` of its own. -/
def closesInstruction (body : List Char) : Bool := 2 ≤ body.length && body.getLast? = some '?'

/-- Markup after its `<`. -/
def markup (s : List Char) : Front s :=
  match s with
  | [] => .done
  | c :: rest =>
    if c = '!' then (declaration rest).within (length_rest_le c rest)
    else if c = '/' then
      .item (.closing (untilClose rest)) (afterClose rest) (length_afterClose_lt c rest)
    else if c = '?' then
      if closesInstruction (untilClose rest) then .ignored (afterClose rest) (length_afterClose_lt c rest)
      else .fault (.unclosed .instruction)
    else
      match h : tagContent none [] (c :: rest) with
      | some (content, rest) => .item (.ofContent content) rest (length_tagContent h)
      | none => .fault (.unclosed .element)

/-- What stands at the front of a text, after character data. -/
def front (s : List Char) : Front s :=
  match h : s.dropWhile (· ≠ '<') with
  | [] => .done
  | _ :: rest => (markup rest).within (by
      have := (List.dropWhile_sublist (l := s) (· ≠ '<')).length_le
      rw [h] at this
      simp at this
      omega)

/-- The tags of a text in order, and the fault that ended them. -/
structure Scan where
  items : List Item
  fault : Option Fault
  deriving DecidableEq, Repr

/-- The tags of a text after those found already (backwards). -/
def scanFrom (found : List Item) (s : List Char) : Scan :=
  match front s with
  | .done => ⟨found.reverse, none⟩
  | .fault f => ⟨found.reverse, some f⟩
  | .ignored rest _ => scanFrom found rest
  | .item i rest _ => scanFrom (i :: found) rest
termination_by s.length

/-- The tags of a text. -/
def scan (text : List Char) : Scan := scanFrom [] text

end RunAudit.Xml
