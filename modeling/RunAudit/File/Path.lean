/-!
# Paths

A path is a text with names between slashes. `join` puts a path below another as it is written; `steps` are
the names that a walk along a path goes through.
-/

namespace RunAudit.Path

/-- Whether a path begins at the root. -/
def isAbsolute (path : String) : Bool := path.toList.head? == some '/'

/-- A path below another. An absolute one stays as it is, and the empty one has nothing below it. -/
def join (base path : String) : String :=
  if isAbsolute path ∨ base = "" then path
  else if base.toList.getLast? = some '/' then base ++ path
  else base ++ "/" ++ path

/-- Splits a text at its slashes, after the characters (backwards) of the name that is being read. -/
def splitFrom (name : List Char) : List Char → List String
  | [] => [String.ofList name.reverse]
  | c :: rest =>
    if c = '/' then String.ofList name.reverse :: splitFrom [] rest else splitFrom (c :: name) rest

/-- The names between the slashes of a path. -/
def steps (path : String) : List String := splitFrom [] path.toList

/-- Joining to a directory without a name changes nothing. -/
@[simp] theorem join_empty (path : String) : join "" path = path := by simp [join]

/-- An absolute path takes the place of what it is joined to. -/
theorem join_of_isAbsolute {base path : String} (h : isAbsolute path = true) : join base path = path := by
  simp [join, h]

end RunAudit.Path
