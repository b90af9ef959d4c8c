import RunAudit.File.Disk
import RunAudit.File.Path

/-!
# Trees of files

A tree of named files and directories, seen from a working directory. A walk along a path goes down to a
named entry, stays for an empty name or a dot, and goes up for two dots; it needs a directory for every step.
Nothing is known of the directories above the working one but that they are there. `Tree.disk` is the disk
of a tree.
-/

namespace RunAudit

/-- A file, or a directory with its entries. -/
inductive Tree where
  | file (content : ByteArray)
  | directory (entries : List (String × Tree))

namespace Tree

/-- The entry of a name. -/
def named? (name : String) : List (String × Tree) → Option Tree
  | [] => none
  | (n, t) :: rest => if n = name then some t else named? name rest

/-- Changes the entry of a name. -/
def setEntry (name : String) (tree : Tree) : List (String × Tree) → List (String × Tree)
  | [] => [(name, tree)]
  | (n, t) :: rest => if n = name then (name, tree) :: rest else (n, t) :: setEntry name tree rest

/-- No files. -/
def empty : Tree := .directory []

/-- The entries of a directory; a file has none. -/
def entries : Tree → List (String × Tree)
  | .file _ => []
  | .directory es => es

/-- Puts a tree at the end of a way down, with the directories on the way. -/
def graft (new : Tree) : (names : List String) → Tree → Tree
  | [], _ => new
  | name :: rest, t =>
    .directory (setEntry name (graft new rest ((named? name t.entries).getD empty)) t.entries)

/-- Where a walk stands: the tree there, the trees above it, and the names down from the working directory,
the last first, unless it stands outside of that. -/
structure Spot where
  here : Tree
  above : List Tree
  names : Option (List String)

namespace Spot

/-- The working directory. -/
def start (tree : Tree) : Spot := ⟨tree, [], some []⟩

/-- A directory outside of the working one. -/
def outside : Spot := ⟨empty, [], none⟩

/-- The directory above. -/
def up (s : Spot) : Spot :=
  match s.above with
  | t :: rest => ⟨t, rest, s.names.map (·.drop 1)⟩
  | [] => outside

/-- The longest name that may be looked up, in octets. -/
def maxNameSize : Nat := 255

/-- One step of a walk. -/
def step (s : Spot) (name : String) : Except FileFault Spot :=
  match s.here with
  | .file _ => .error .notADirectory
  | .directory es =>
    if name = "" ∨ name = "." then .ok s
    else if name = ".." then .ok s.up
    else if maxNameSize < name.utf8ByteSize then .error .nameTooLong
    else match named? name es with
      | some t => .ok ⟨t, s.here :: s.above, s.names.map (name :: ·)⟩
      | none => .error .notFound

/-- A walk along names. -/
def walk (s : Spot) : List String → Except FileFault Spot
  | [] => .ok s
  | name :: rest =>
    match s.step name with
    | .ok s => s.walk rest
    | .error f => .error f

end Spot

/-- The longest path that may be looked up, in octets. -/
def maxPathSize : Nat := 4095

/-- Where a path leads. -/
def find (tree : Tree) (path : String) : Except FileFault Spot :=
  if path.toList.contains '\x00' then .error .nullInName
  else if path = "" then .error .notFound
  else if maxPathSize < path.utf8ByteSize then .error .nameTooLong
  else (if Path.isAbsolute path then Spot.outside else Spot.start tree).walk (Path.steps path)

/-- The disk of a tree. -/
def disk (tree : Tree) : Disk where
  lookup path :=
    match tree.find path with
    | .error f => .absent f
    | .ok s =>
      match s.here with
      | .file content => .file content
      | .directory _ => .directory

/-- The way down from the working directory to an entry of a directory at a path, if that is in reach. -/
def wayTo? (tree : Tree) (directory name : String) : Option String :=
  match tree.find directory with
  | .ok s => s.names.map fun names => String.intercalate "/" (name :: names).reverse
  | .error _ => none

/-- A tree of files and empty directories by their paths from the working directory. -/
def ofPaths (files : List (String × Tree)) : Tree :=
  files.foldl (fun tree (path, new) => graft new (Path.steps path) tree) empty

end Tree

end RunAudit
