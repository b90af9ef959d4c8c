import RunAudit.Yaml.Token.Fold

/-!
# Plain scalars

A scalar without quotes ends before a colon or a comment that follows a blank, before a line that is not
moved in far enough or begins with the mark of a document, and inside brackets before one of their indicators.
-/

namespace RunAudit.Yaml.Plain

/-- A plain scalar: its text, whether a line has ended after it, and what is left. -/
structure Result where
  text : List Char
  broken : Bool
  rest : Rest

/-- Indicators inside brackets that end a plain scalar. -/
def endsInFlow (c : Char) : Bool := c = ',' || c = '[' || c = ']' || c = '{' || c = '}'

/-- Whether a colon before the given text cannot stand in a plain scalar inside brackets. -/
def clashesInFlow (s : List Char) : Bool := s.head?.any fun c => endsInFlow c || c = '?'

/-- Whether a plain scalar ends before a character that is no blank. -/
def endsBefore (flow : Bool) (indent : Int) (gap : Gap) (m : Mark) (c : Char) (rest : List Char) : Bool :=
  (c = ':' && atWordEnd rest) || (flow && endsInFlow c) ||
    match gap with
    | .none => false
    | _ => c = '#' || (m.column = 0 && startsWithDocumentMark (c :: rest)) || (!flow && (m.column : Int) < indent)

/-- Reads a plain scalar, from after the text (backwards) and the gap that are read. Lines after the first must be
moved in to a column. -/
def read (flow : Bool) (indent : Int) (text : List Char) (gap : Gap) (s : List Char) (m : Mark) : Option Result :=
  let result : Result := ⟨text.reverse, gap.isBroken, ⟨s, m⟩⟩
  match s with
  | [] => some result
  | '\r' :: '\n' :: rest => read flow indent text (gap.addBreak '\n') rest (m.newLine 2)
  | c :: rest =>
    if isBreak c then read flow indent text (gap.addBreak c) rest (m.newLine 1)
    else if isBlank c then
      if gap.isBroken && c = '\t' && (m.column : Int) < indent then none
      else read flow indent text (gap.addBlank c) rest m.next
    else if flow && c = ':' && clashesInFlow rest then none
    else if endsBefore flow indent gap m c rest then some result
    else read flow indent (c :: gap.close text) .none rest m.next

end RunAudit.Yaml.Plain
