import RunAudit.Value
import RunAudit.Yaml.Mark
import RunAudit.Yaml.Scalar

/-!
# Writing documents

Values are written in block style, two blanks further in for each mapping. A list below a key begins in the
column of the key; empty lists and mappings stand in brackets. A text is written plain where it reads back as
that text, and otherwise between quotes or, with line breaks, as a block.

A page is what is written so far, the last character first.
-/

namespace RunAudit.Yaml

/-- What is written so far, backwards. -/
abbrev Page := List Char

/-! ## The style of a text -/

/-- Whether a character may be written as it is. -/
def isPrintable (c : Char) : Bool :=
  let n := c.toNat
  n = 0xA || (0x20 ≤ n && n ≤ 0x7E) || (0xA0 ≤ n && n ≤ 0xD7FF) ||
    (0xE000 ≤ n && n ≤ 0xFFFD && n ≠ 0xFEFF) || 0x10000 ≤ n

/-- Whether the first character keeps a text from being plain; the one after it is given. -/
def indicatesFirst (c : Char) (next : Option Char) : Bool :=
  isIndicator c || ((c = '?' || c = ':' || c = '-') && next.all isBlankOrBreak)

/-- Whether a later character keeps a text from being plain; those around it are given. -/
def indicatesLater (previous c : Char) (next : Option Char) : Bool :=
  (c = ':' && next.all isBlankOrBreak) || (c = '#' && isBlankOrBreak previous)

/-- Whether a character after the first keeps a text from being plain. -/
def hasIndicator (previous : Char) : List Char → Bool
  | [] => false
  | c :: rest => indicatesLater previous c rest.head? || hasIndicator c rest

/-- Whether a text begins like a mark between documents. -/
def startsLikeMark (s : List Char) : Bool := s.take 3 = ['-', '-', '-'] || s.take 3 = ['.', '.', '.']

/-- Whether indicators keep a text from being plain. -/
def indicated : List Char → Bool
  | [] => false
  | c :: rest => startsLikeMark (c :: rest) || indicatesFirst c rest.head? || hasIndicator c rest

/-- Whether a character of one kind stands before one of another. -/
def follows (first second : Char → Bool) : List Char → Bool
  | a :: b :: rest => (first a && second b) || follows first second (b :: rest)
  | _ => false

/-- Whether a character is a space. -/
def isSpace (c : Char) : Bool := c = ' '

/-- Whether a text can only be written with escapes. -/
def needsEscapes (s : List Char) : Bool := !s.all isPrintable || follows isSpace isBreak s

/-- Whether a text may be plain as far as its characters go. -/
def allowsPlain (s : List Char) : Bool :=
  !needsEscapes s && !s.any isBreak && !(s.head?.any isSpace) && !(s.getLast?.any isSpace) && !indicated s

/-- Whether a text may stand between single quotes. -/
def allowsSingle (s : List Char) : Bool := !needsEscapes s && !follows isBreak isSpace s

/-- Whether a text may be a block. -/
def allowsBlock (s : List Char) : Bool := !needsEscapes s && !(s.getLast?.any isSpace)

/-- How a text is written. -/
inductive Style where
  | plain
  | single
  | double
  | block
  deriving DecidableEq, Repr

/-- How a text is written. One with line feeds is a block; one that would read back as something else is
quoted. -/
def styleOf (text : String) : Style :=
  let s := text.toList
  if s.contains '\n' then if allowsBlock s then .block else .double
  else if Scalar.meaning text = .text ∧ !Scalar.isZeroPadded s ∧ allowsPlain s then .plain
  else if allowsSingle s then .single
  else .double

/-! ## Writing a text -/

/-- Writes characters at the end of a page. -/
def Page.add (page : Page) (s : List Char) : Page := s.reverse ++ page

/-- Writes blanks. -/
def Page.pad (page : Page) (count : Nat) : Page := List.replicate count ' ' ++ page

/-- Whether a page ends with a line break. -/
def Page.atLineStart (page : Page) : Bool := page.head?.all isBreak

/-- Begins a line unless one has begun, and moves to a column. -/
def Page.line (page : Page) (indent : Nat) : Page :=
  Page.pad (if page.atLineStart then page else '\n' :: page) indent

/-- The digits of a number in base sixteen, in capitals and at a width. -/
def hexText (width n : Nat) : List Char :=
  let digits := (Nat.toDigits 16 n).map Char.toUpper
  List.replicate (width - digits.length) '0' ++ digits

/-- How a character stands between double quotes. -/
def escapeDouble (c : Char) : List Char :=
  match c with
  | '\x00' => ['\\', '0']
  | '\x07' => ['\\', 'a']
  | '\x08' => ['\\', 'b']
  | '\t' => ['\\', 't']
  | '\n' => ['\\', 'n']
  | '\x0b' => ['\\', 'v']
  | '\x0c' => ['\\', 'f']
  | '\r' => ['\\', 'r']
  | '\x1b' => ['\\', 'e']
  | '"' => ['\\', '"']
  | '\\' => ['\\', '\\']
  | '\x85' => ['\\', 'N']
  | '\u2028' => ['\\', 'L']
  | '\u2029' => ['\\', 'P']
  | c =>
    if isPrintable c then [c]
    else if c.toNat ≤ 0xFF then '\\' :: 'x' :: hexText 2 c.toNat
    else if c.toNat ≤ 0xFFFF then '\\' :: 'u' :: hexText 4 c.toNat
    else '\\' :: 'U' :: hexText 8 c.toNat

/-- Writes the characters between single quotes. What follows a line break is moved in. -/
def Page.addSingle (indent : Nat) (page : Page) : List Char → Page
  | [] => if page.head?.any isBreak then page.pad indent else page
  | c :: rest =>
    let start := if page.head?.any isBreak && !isBreak c then page.pad indent else page
    Page.addSingle indent (if c = '\'' then '\'' :: '\'' :: start else c :: start) rest

/-- Writes the lines of a block. Empty ones are not moved in. -/
def Page.addBlock (indent : Nat) (page : Page) : List Char → Page
  | [] => page
  | c :: rest =>
    let start := if page.atLineStart && !isBreak c then page.pad indent else page
    Page.addBlock indent (c :: start) rest

/-- What tells a reader of a block how far it is moved in and how it ends. -/
def blockHints (s : List Char) : List Char :=
  (if s.head?.any fun c => isSpace c || isBreak c then ['2'] else []) ++
    match s.reverse with
    | a :: rest => if !isBreak a then ['-'] else if rest.head?.all isBreak then ['+'] else []
    | [] => ['-']

/-- Writes a text; its later lines are moved in. -/
def Page.addText (indent : Nat) (page : Page) (text : String) : Page :=
  let s := text.toList
  match styleOf text with
  | .plain => page.add s
  | .single => '\'' :: Page.addSingle indent ('\'' :: page) s
  | .double => page.add ('"' :: s.flatMap escapeDouble ++ ['"'])
  | .block => Page.addBlock indent (page.add ('|' :: blockHints s ++ ['\n'])) s

/-! ## Writing a value -/

/-- Where a value stands. -/
inductive Place where
  /-- Alone in the document. -/
  | root
  /-- On the line of its key, in a mapping at a column. -/
  | afterKey (indent : Nat)
  /-- After an indicator at a column. -/
  | afterMark (indent : Nat)
  deriving DecidableEq, Repr

namespace Place

/-- The column of the items of a list. -/
def itemIndent : Place → Nat
  | root => 0
  | afterKey indent => indent
  | afterMark indent => indent + 2

/-- The column of the keys of a mapping. -/
def keyIndent : Place → Nat
  | root => 0
  | afterKey indent => indent + 2
  | afterMark indent => indent + 2

/-- The column of the later lines of a text. -/
def textIndent : Place → Nat
  | root => 2
  | afterKey indent => indent + 2
  | afterMark indent => indent + 2

/-- Parts a value from what stands before it on its line. -/
def space (place : Place) (page : Page) : Page :=
  match place with
  | root => page
  | _ => ' ' :: page

/-- Goes to where the first entry of a collection stands. -/
def enter (place : Place) (indent : Nat) (page : Page) : Page :=
  match place with
  | root => page
  | afterKey _ => page.line indent
  | afterMark _ => ' ' :: page

end Place

/-- The longest key that stands before a colon, in octets. -/
def maxKeySize : Nat := 128

/-- Whether a key stands before a colon on one line. -/
def isSimpleKey (key : String) : Bool := key.utf8ByteSize ≤ maxKeySize && !key.toList.any isBreak

/-- Where the value of a key stands. -/
def placeOfValue (indent : Nat) (key : String) : Place :=
  if isSimpleKey key then .afterKey indent else .afterMark indent

/-- Writes a key and its colon. A long one has a mark of its own and a line before the colon. -/
def Page.addKey (indent : Nat) (page : Page) (key : String) : Page :=
  if isSimpleKey key then ':' :: page.addText (indent + 2) key
  else ':' :: Page.line (Page.addText (indent + 2) (' ' :: '?' :: page) key) indent

mutual

/-- Writes a value at its place. -/
def Page.addValue (place : Place) (page : Page) : Value → Page
  | .null => (place.space page).add "null".toList
  | .bool b => (place.space page).add (toString b).toList
  | .number n => (place.space page).add n.text.toList
  | .string s => (place.space page).addText place.textIndent s
  | .list [] => (place.space page).add ['[', ']']
  | .list (v :: vs) =>
    let indent := place.itemIndent
    Page.addItems indent (Page.addValue (.afterMark indent) ('-' :: place.enter indent page) v) vs
  | .object [] => (place.space page).add ['{', '}']
  | .object ((key, v) :: rest) =>
    let indent := place.keyIndent
    Page.addFields indent
      (Page.addValue (placeOfValue indent key) (Page.addKey indent (place.enter indent page) key) v) rest

/-- Writes the items after the first. -/
def Page.addItems (indent : Nat) (page : Page) : List Value → Page
  | [] => page
  | v :: vs => Page.addItems indent (Page.addValue (.afterMark indent) ('-' :: page.line indent) v) vs

/-- Writes the fields after the first. -/
def Page.addFields (indent : Nat) (page : Page) : List (String × Value) → Page
  | [] => page
  | (key, v) :: rest =>
    Page.addFields indent
      (Page.addValue (placeOfValue indent key) (Page.addKey indent (page.line indent) key) v) rest

end

/-- A document of its own. -/
def write (v : Value) : List Char := ((Page.addValue .root [] v).line 0).reverse

end RunAudit.Yaml
