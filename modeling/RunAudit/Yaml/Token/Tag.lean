import RunAudit.Text.Digit
import RunAudit.Yaml.Token

/-!
# Names of anchors, tags and directives

What stands after the indicators of anchors, aliases, tags and directives. Percent escapes in tags are octets,
and those of one character stand together.
-/

namespace RunAudit.Yaml.Tag

/-- Characters that may follow the name of an anchor. -/
def endsAnchor (s : List Char) : Bool :=
  s.head?.all fun c => isBlankOrBreak c || ['?', ':', ',', ']', '}', '%', '@', '`'].contains c

/-- The name of an anchor or alias after its indicator. -/
def anchorName? (r : Rest) : Option (String × Rest) :=
  let (name, rest) := r.takeWhile isNameChar
  if name.isEmpty || !endsAnchor rest.text then none else some (String.ofList name, rest)

/-- Characters that may stand in a tag; brackets and commas may where it is written in full. -/
def isTagChar (full : Bool) (c : Char) : Bool :=
  isNameChar c || (";/?:@&=+$.!~*'()".toList).contains c || (full && (",[]".toList).contains c)

/-- How many octets follow the first one of a character. -/
def trailing? (octet : Nat) : Option Nat :=
  if octet < 0x80 then some 0
  else if octet < 0xC0 then none
  else if octet < 0xE0 then some 1
  else if octet < 0xF0 then some 2
  else if octet < 0xF8 then some 3
  else none

/-- Reads the characters of a tag, after those read (backwards); the number of octets that must follow is given. -/
def read (full : Bool) (following : Nat) (text : List Char) (s : List Char) (m : Mark) : Option (List Char × Rest) :=
  match s with
  | '%' :: a :: b :: rest =>
    match Text.Digit.natural? 16 [a, b] with
    | none => none
    | some octet =>
      if following = 0 then
        match trailing? octet with
        | some n => read full n (Char.ofNat octet :: text) rest (m.past 3)
        | none => none
      else if 0x80 ≤ octet ∧ octet < 0xC0 then read full (following - 1) (Char.ofNat octet :: text) rest (m.past 3)
      else none
  | c :: rest =>
    if following ≠ 0 ∨ c = '%' then none
    else if isTagChar full c then read full 0 (c :: text) rest m.next
    else some (text.reverse, ⟨c :: rest, m⟩)
  | [] => if following ≠ 0 then none else some (text.reverse, ⟨[], m⟩)

/-- Reads the characters of a tag, of which there must be one. -/
def readSome (full : Bool) (r : Rest) : Option (String × Rest) :=
  match read full 0 [] r.text r.mark with
  | some (text, rest) => if text.isEmpty then none else some (String.ofList text, rest)
  | none => none

/-- A tag written in full, after `!<`. -/
def inFull? (r : Rest) : Option ((String × String) × Rest) :=
  match readSome true r with
  | some (text, rest) => if rest.text.head? = some '>' then some (("", text), rest.past 1) else none
  | none => none

/-- A tag after its first `!`: a handle that ends in another `!` and a suffix, or a suffix alone. The tag `!` has no
handle. -/
def short? (r : Rest) : Option ((String × String) × Rest) :=
  let (name, rest) := r.takeWhile isNameChar
  if rest.text.head? = some '!' then
    (readSome false (rest.past 1)).map fun (suffix, rest) => (("!" ++ String.ofList name ++ "!", suffix), rest)
  else
    match read false 0 [] rest.text rest.mark with
    | some (text, rest) =>
      let suffix := String.ofList (name ++ text)
      some (if suffix = "" then ("", "!") else ("!", suffix), rest)
    | none => none

/-- A tag after its first `!`: its handle and suffix. A blank must follow it, or a comma inside brackets. -/
def tag? (flow : Bool) (r : Rest) : Option ((String × String) × Rest) :=
  match if r.text.head? = some '<' then inFull? (r.past 1) else short? r with
  | some (tag, rest) =>
    if atWordEnd rest.text || (flow && rest.text.head? = some ',') then some (tag, rest) else none
  | none => none

/-- A number of a version, of at most nine digits. -/
def versionNumber? (r : Rest) : Option (Nat × Rest) :=
  let (digits, rest) := r.takeWhile Char.isDigit
  if 9 < digits.length then none else (Text.Digit.natural? 10 digits).map (·, rest)

/-- The value of a version directive. -/
def version? (r : Rest) : Option (Lexeme × Rest) :=
  match versionNumber? (r.dropWhile isBlank) with
  | none => none
  | some (major, rest) =>
    if rest.text.head? ≠ some '.' then none
    else (versionNumber? (rest.past 1)).map fun (minor, rest) => (.version major minor, rest)

/-- The handle that a tag directive is about: `!`, or a name between two of them. -/
def handle? (r : Rest) : Option (String × Rest) :=
  if r.text.head? ≠ some '!' then none
  else
    let (name, rest) := (r.past 1).takeWhile isNameChar
    if rest.text.head? = some '!' then some ("!" ++ String.ofList name ++ "!", rest.past 1)
    else if name.isEmpty then some ("!", rest)
    else none

/-- The value of a tag directive. -/
def replacement? (r : Rest) : Option (Lexeme × Rest) :=
  match handle? (r.dropWhile isBlank) with
  | none => none
  | some (handle, rest) =>
    if !rest.text.head?.any isBlank then none
    else
      match readSome true (rest.dropWhile isBlank) with
      | some (text, rest) => if atWordEnd rest.text then some (.tagHandle handle text, rest) else none
      | none => none

/-- A directive after its indicator. A comment may follow it. -/
def directive? (r : Rest) : Option (Lexeme × Rest) :=
  let (name, rest) := r.takeWhile isNameChar
  if !atWordEnd rest.text then none
  else
    match (match String.ofList name with
      | "YAML" => version? rest
      | "TAG" => replacement? rest
      | _ => none) with
    | some (lexeme, rest) => rest.toLineEnd?.map (lexeme, ·)
    | none => none

end RunAudit.Yaml.Tag
