import RunAudit.Error

/-!
# What is on disk

A disk tells of each path what stands there: a file with its content, a directory, or nothing that can be
reached. `exists?` and `read` are what an audit asks of it.
-/

namespace RunAudit

/-- What stands at a path. -/
inductive Lookup where
  | file (content : ByteArray)
  | directory
  | absent (fault : FileFault)

/-- What stands at each path. -/
structure Disk where
  lookup : String → Lookup

namespace Disk

/-- A disk with nothing on it. -/
def empty : Disk := ⟨fun _ => .absent .notFound⟩

/-- Whether there is a file or directory at a path. -/
def holds (disk : Disk) (path : String) : Bool :=
  match disk.lookup path with
  | .absent _ => false
  | _ => true

/-- Whether there is a directory at a path. -/
def isDirectory (disk : Disk) (path : String) : Bool :=
  match disk.lookup path with
  | .directory => true
  | _ => false

/-- The text of octets that were read from a file. -/
def textOf (content : ByteArray) : Except FileFault String :=
  match Text.Utf8.decode content with
  | .ok text => .ok text
  | .error _ => .error .notText

/-- The text of the file at a path. -/
def read (disk : Disk) (path : String) : Except Error String :=
  match disk.lookup path with
  | .file content => (textOf content).mapError .unreadable
  | .directory => .error (.unreadable .isADirectory)
  | .absent fault => .error (.unreadable fault)

/-- Checks that a file that may be written at a path can be. -/
def canWrite (disk : Disk) (path : String) : Except Error Unit :=
  match disk.lookup path with
  | .file _ => .ok ()
  | .absent .notFound => .ok ()
  | .directory => .error (.unreadable .isADirectory)
  | .absent fault => .error (.unreadable fault)

/-- Checks that there is something at a path. -/
def require (disk : Disk) (path : String) : Except Error Unit :=
  if disk.holds path then .ok () else .error (.missingFile path)

/-- Checks that there is something at a path, with a note of what is found. -/
def requireAloud (disk : Disk) (path : String) : Audit Unit := do
  Audit.ofExcept (disk.require path)
  Audit.tell .debug .files s!"found expected file {path}"

end Disk

end RunAudit
