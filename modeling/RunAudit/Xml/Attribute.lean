import RunAudit.Xml.Event
import RunAudit.Xml.Reference

/-!
# Attributes

The content of a tag begins with its name, which ends at the first blank. Attributes follow: a key, an
equals sign and a value in either kind of quote, with blanks around them. A key may begin with any
character, and nothing need separate a value from the next key. The references of a value are read before
the next attribute is looked at.
-/

namespace RunAudit.Xml

open RunAudit.Text

/-- An attribute as it is written, and the place of its key. -/
structure RawAttribute where
  key : List Char
  place : Nat
  value : List Char
  deriving DecidableEq, Repr

/-- Whether a character ends a key. -/
def endsKey (c : Char) : Bool := c = '=' || isSpace c

/-- Splits off the blanks at the front: how many, and what follows. -/
def skipBlanks (s : List Char) : Nat × List Char :=
  ((s.takeWhile isSpace).length, s.dropWhile isSpace)

/-- What follows the blanks is no longer than the text. -/
theorem length_skipBlanks_le (s : List Char) : (skipBlanks s).2.length ≤ s.length :=
  (List.dropWhile_sublist isSpace).length_le

/-- A value between quotes, after the equals sign at the given place of a content of `total` octets. -/
def quotedValue (total place : Nat) (s : List Char) : Except AttributeFault (List Char × List Char) :=
  match skipBlanks s with
  | (_, []) => .error (.expectedValue total)
  | (blanks, q :: rest) =>
    if q = '"' ∨ q = '\'' then
      match rest.dropWhile (· ≠ q) with
      | [] => .error (.missingQuote total q)
      | _ :: after => .ok (rest.takeWhile (· ≠ q), after)
    else .error (.unquotedValue (place + 1 + blanks))

/-- What follows a value is no longer than the text before it. -/
theorem length_quotedValue_le {total place : Nat} {s value rest : List Char}
    (h : quotedValue total place s = .ok (value, rest)) : rest.length ≤ s.length := by
  have hs := length_skipBlanks_le s
  unfold quotedValue at h
  split at h
  · simp at h
  · rename_i blanks q r hq
    rw [hq] at hs
    split at h
    · have hd := (List.dropWhile_sublist (l := r) (· ≠ q)).length_le
      split at h
      · simp at h
      · rename_i after hr
        rw [hr] at hd
        simp only [Except.ok.injEq, Prod.mk.injEq] at h
        rw [← h.2]
        simp at hs hd
        omega
    · simp at h

/-- The place of the equals sign after a key that ends at a place, and what follows the sign. -/
def equalsSign (total place : Nat) (s : List Char) : Except AttributeFault (Nat × List Char) :=
  match skipBlanks s with
  | (_, []) => .error (.expectedEquals total)
  | (blanks, c :: rest) =>
    if c = '=' then .ok (place + blanks, rest) else .error (.expectedEquals (place + blanks))

/-- What follows an equals sign is shorter than the text before it. -/
theorem length_equalsSign_le {total place at' : Nat} {s rest : List Char}
    (h : equalsSign total place s = .ok (at', rest)) : rest.length ≤ s.length := by
  have hs := length_skipBlanks_le s
  unfold equalsSign at h
  split at h
  · simp at h
  · rename_i hq
    rw [hq] at hs
    split at h
    · simp only [Except.ok.injEq, Prod.mk.injEq] at h
      rw [← h.2]
      simp at hs
      omega
    · simp at h

/-- Checks that a key has not been used. -/
def checkUnused (seen : List (List Char × Nat)) (key : List Char) (place : Nat) : Except AttributeFault Unit :=
  match seen.find? fun entry => entry.1 == key with
  | some (_, previous) => .error (.repeatedKey place previous)
  | none => .ok ()

/-- The attributes from a place in a content of `total` octets, after those read (backwards). -/
def attributesFrom (total : Nat) (seen : List (List Char × Nat)) (read : List (String × String)) (place : Nat)
    (s : List Char) : Except Fault (List (String × String)) :=
  match _hs : skipBlanks s with
  | (_, []) => .ok read.reverse
  | (blanks, first :: tail) =>
    let start := place + blanks
    let key := first :: tail.takeWhile fun c => !endsKey c
    match _he : equalsSign total (start + Utf8.size key) (tail.dropWhile fun c => !endsKey c) with
    | .error f => .error (.attribute f)
    | .ok (sign, rest) =>
      match checkUnused seen key start with
      | .error f => .error (.attribute f)
      | .ok () =>
        match _hv : quotedValue total sign rest with
        | .error f => .error (.attribute f)
        | .ok (raw, after) =>
          match unescape raw with
          | .error f => .error (.reference f)
          | .ok value =>
            attributesFrom total ((key, start) :: seen) ((String.ofList key, String.ofList value) :: read)
              (place + (Utf8.size s - Utf8.size after)) after
termination_by s.length
decreasing_by
  have h1 := length_skipBlanks_le s
  rw [_hs] at h1
  have h2 := length_equalsSign_le _he
  have h3 := (List.dropWhile_sublist (l := tail) fun c => !endsKey c).length_le
  have h4 := length_quotedValue_le _hv
  simp at h1
  omega

/-- The attributes of a tag with the given content, in order. -/
def attributes (content : List Char) : Except Fault (List (String × String)) :=
  let name := nameOf content
  attributesFrom (Utf8.size content) [] [] (Utf8.size name) (content.drop name.length)

end RunAudit.Xml
