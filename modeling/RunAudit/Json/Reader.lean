import RunAudit.Json.Numeral
import RunAudit.Json.Quoted
import RunAudit.Text.Quoted

/-!
# Reading documents

`value` reads one value; lists and objects may nest to a depth that it is given. `readList` reads a whole
text that must hold a list, and reports the first fault with its place.
-/

namespace RunAudit.Json

/-- The characters of a word that must follow, then the given value. -/
def word (input : List Char) (expected : List Char) (v : Value) (s : List Char)
    (h : s.length ≤ input.length) : Except Trouble (Read Value input) :=
  match expected, s with
  | [], s => .ok ⟨v, s, h⟩
  | _ :: _, [] => .error (.before (.endOfText .value) [])
  | e :: es, c :: rest =>
    if c = e then word input es v rest (by simp at h; omega) else .error (.next .expectedIdent (c :: rest))

/-- The items of a list from the place where one must stand. -/
def items {input : List Char} (item : (s : List Char) → Except Trouble (Read Value s)) (before : List Value)
    (s : List Char) (h : s.length ≤ input.length) : Except Trouble (Read Value input) :=
  match item s with
  | .error t => .error t
  | .ok r =>
    have hr := length_skipSpace_le r.rest
    match hs : skipSpace r.rest with
    | [] => .error (.next (.endOfText .list) [])
    | ']' :: rest => .ok ⟨.list (r.value :: before).reverse, rest, by
        have := r.shorter; rw [hs] at hr; simp at hr; omega⟩
    | ',' :: rest =>
      match skipSpace rest with
      | [] => .error (.next (.endOfText .value) [])
      | ']' :: rest => .error (.next .trailingComma (']' :: rest))
      | _ =>
        have := r.shorter
        items item (r.value :: before) rest (by rw [hs] at hr; simp at hr; omega)
    | s => .error (.next .expectedCommaOrBracket s)
termination_by s.length
decreasing_by
  have := r.shorter; rw [hs] at hr; simp at hr; omega

/-- A list after its bracket. -/
def list (item : (s : List Char) → Except Trouble (Read Value s)) (s : List Char) :
    Except Trouble (Read Value s) :=
  have h := length_skipSpace_le s
  match hs : skipSpace s with
  | [] => .error (.next (.endOfText .list) [])
  | ']' :: rest => .ok ⟨.list [], rest, by rw [hs] at h; simp at h; omega⟩
  | _ => items item [] s (length_all_le s)

/-- The value of a field after its key: a colon, then the value. -/
def fieldValue (item : (s : List Char) → Except Trouble (Read Value s)) (s : List Char) :
    Except Trouble (Read Value s) :=
  have h := length_skipSpace_le s
  match hs : skipSpace s with
  | [] => .error (.next (.endOfText .object) [])
  | ':' :: rest => (item rest).map (·.within (by rw [hs] at h; simp at h; omega))
  | s => .error (.next .expectedColon s)

/-- The fields of an object from after the opening quote of a key. -/
def fields {input : List Char} (item : (s : List Char) → Except Trouble (Read Value s))
    (before : Fields Value) (s : List Char) (h : s.length ≤ input.length) :
    Except Trouble (Read Value input) :=
  match body s with
  | .error t => .error t
  | .ok key =>
    match fieldValue item key.rest with
    | .error t => .error t
    | .ok v =>
      have hv := length_skipSpace_le v.rest
      have hk := key.shorter
      have hw := v.shorter
      match hs : skipSpace v.rest with
      | [] => .error (.next (.endOfText .object) [])
      | '}' :: rest => .ok ⟨.object (before.put key.value v.value), rest, by
          rw [hs] at hv; simp at hv; omega⟩
      | ',' :: rest =>
        have hn := length_skipSpace_le rest
        match hq : skipSpace rest with
        | [] => .error (.next (.endOfText .value) [])
        | '"' :: rest =>
          fields item (before.put key.value v.value) rest (by
            rw [hs] at hv; rw [hq] at hn; simp at hv hn; omega)
        | '}' :: rest => .error (.next .trailingComma ('}' :: rest))
        | s => .error (.next .keyNotString s)
      | s => .error (.next .expectedCommaOrBrace s)
termination_by s.length
decreasing_by
  rw [hs] at hv; rw [hq] at hn; simp at hv hn; omega

/-- An object after its brace. -/
def object (item : (s : List Char) → Except Trouble (Read Value s)) (s : List Char) :
    Except Trouble (Read Value s) :=
  have h := length_skipSpace_le s
  match hs : skipSpace s with
  | [] => .error (.next (.endOfText .object) [])
  | '}' :: rest => .ok ⟨.object [], rest, by rw [hs] at h; simp at h; omega⟩
  | '"' :: rest => fields item [] rest (by rw [hs] at h; simp at h; omega)
  | s => .error (.next .keyNotString s)

/-- A value that is neither list nor object, from its first character. -/
def scalar (s : List Char) : Except Trouble (Read Value s) :=
  match s with
  | [] => .error (.next (.endOfText .value) [])
  | 'n' :: rest => (word rest ['u', 'l', 'l'] .null rest (length_all_le rest)).map .behind
  | 't' :: rest => (word rest ['r', 'u', 'e'] (.bool true) rest (length_all_le rest)).map .behind
  | 'f' :: rest => (word rest ['a', 'l', 's', 'e'] (.bool false) rest (length_all_le rest)).map .behind
  | '-' :: rest => (numeral true rest).map fun r => (r.map .number).behind
  | '"' :: rest => (body rest).map fun r => (r.map .string).behind
  | c :: rest =>
    if c.isDigit then (numeral false (c :: rest)).map (·.map .number)
    else .error (.next .expectedValue (c :: rest))

/-- A value whose items and members are read as given. None may be opened when there is no way to read them. -/
def valueOf (inner : Option ((s : List Char) → Except Trouble (Read Value s))) (s : List Char) :
    Except Trouble (Read Value s) :=
  have h := length_skipSpace_le s
  match hs : skipSpace s, inner with
  | '[' :: rest, none => .error (.next .tooDeep ('[' :: rest))
  | '{' :: rest, none => .error (.next .tooDeep ('{' :: rest))
  | '[' :: rest, some item => (list item rest).map (·.within (by rw [hs] at h; simp at h; omega))
  | '{' :: rest, some item => (object item rest).map (·.within (by rw [hs] at h; simp at h; omega))
  | s', _ => (scalar s').map (·.within (by rw [hs] at h; exact h))

/-- A value, with at most `depth` lists and objects around one another. -/
def value : (depth : Nat) → (s : List Char) → Except Trouble (Read Value s)
  | 0 => valueOf none
  | depth + 1 => valueOf (some (value depth))

/-- How many lists and objects a document may open around one another. -/
def depthLimit : Nat := 127

/-- The kind of a value, as a fault names it. -/
def kind : Value → String
  | .null => "null"
  | .bool b => s!"boolean `{b}`"
  | .number (.fraction minus m) => s!"floating point `{(Number.fraction minus m).text}`"
  | .number n => s!"integer `{n.text}`"
  | .string s => "string " ++ Text.Quoted.quote s
  | .list _ => "sequence"
  | .object _ => "map"

/-- The items of a document that is a list. An object in its place is not read any further. -/
def document (s : List Char) : Except Trouble (List Value) :=
  match skipSpace s with
  | [] => .error (.next (.endOfText .value) [])
  | '{' :: rest => .error (.before (.notList "map") ('{' :: rest))
  | s =>
    match value depthLimit s with
    | .error t => .error t
    | .ok r =>
      match r.value, skipSpace r.rest with
      | .list vs, [] => .ok vs
      | .list _, rest => .error (.next .trailingCharacters rest)
      | v, _ => .error (.before (.notList (kind v)) r.rest)

/-- The items of a text that holds a list and nothing else. -/
def readList (text : String) : Except Fault (List Value) :=
  (document text.toList).mapError (·.fault text.toList)

end RunAudit.Json
