import RunAudit.Yaml.Mark

/-!
# Folding lines

Blanks inside a scalar are kept until it is known what follows them. Blanks within a line count as they are; a
single line feed with the blanks around it counts as one space, and of several line breaks all but the first
count. A text is kept backwards.
-/

namespace RunAudit.Yaml

/-- The blanks since the last character of a scalar. -/
inductive Gap where
  | none
  /-- Blanks within a line, backwards. -/
  | blanks (text : List Char)
  /-- The first line break, if it counts, and those after it, backwards. -/
  | breaks (first : Option Char) (more : List Char)
  deriving DecidableEq, Repr

namespace Gap

/-- Adds a blank. Those at the start of a line do not count. -/
def addBlank (g : Gap) (c : Char) : Gap :=
  match g with
  | none => blanks [c]
  | blanks text => blanks (c :: text)
  | breaks first more => breaks first more

/-- Adds a line break. -/
def addBreak (g : Gap) (c : Char) : Gap :=
  match g with
  | breaks first more => breaks first (foldBreak c :: more)
  | _ => breaks (some (foldBreak c)) []

/-- Whether a line has ended. -/
def isBroken : Gap → Bool
  | breaks _ _ => true
  | _ => false

/-- Adds what a gap counts as to a text. -/
def close (g : Gap) (text : List Char) : List Char :=
  match g with
  | none => text
  | blanks bs => bs ++ text
  | breaks (some '\n') [] => ' ' :: text
  | breaks (some '\n') more => more ++ text
  | breaks first more => more ++ first.toList ++ text

end Gap

end RunAudit.Yaml
