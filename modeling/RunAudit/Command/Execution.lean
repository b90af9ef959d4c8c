import RunAudit.Error
import RunAudit.File.Disk
import RunAudit.File.Path

/-!
# Runs that write

A request writes to its output, or to a file that it makes. What it has written stays written when it ends in an
error later on: `Execution` keeps it apart from how the run ends. `Execution.ofAudit` is a run that only reads.
-/

namespace RunAudit.Command

/-- A file that is written. -/
structure NewFile where
  directory : String
  name : String
  content : String
  deriving DecidableEq, Repr

namespace NewFile

/-- The path of a file to write. -/
def path (f : NewFile) : String := Path.join f.directory f.name

end NewFile

/-- What is written: the output, and the files, the last first. -/
structure Written where
  output : String
  files : List NewFile
  deriving DecidableEq, Repr

namespace Written

/-- Nothing is written. -/
def nothing : Written := ⟨"", []⟩

/-- Adds to the output. -/
def addOutput (w : Written) (text : String) : Written := { w with output := w.output ++ text }

/-- Adds an empty file. -/
def addFile (w : Written) (directory name : String) : Written :=
  { w with files := ⟨directory, name, ""⟩ :: w.files }

/-- Adds to the last file. -/
def addContent (w : Written) (text : String) : Written :=
  { w with files := w.files.modifyHead fun f => { f with content := f.content ++ text } }

end Written

/-- Where a request writes to. -/
inductive Target where
  | output
  /-- The file that was made last. -/
  | file
  deriving DecidableEq, Repr

/-- A run that logs and writes, and ends in a value or an error. -/
abbrev Execution := ExceptT Error (StateT Written Logged)

namespace Execution

variable {α β : Type}

/-- How a run ends, after something was written. -/
def result (x : Execution α) (w : Written) : Except Error α := (x.run.run w).value.1

/-- What is written after a run. -/
def written (x : Execution α) (w : Written) : Written := (x.run.run w).value.2

/-- The entries that a run logs. -/
def entries (x : Execution α) (w : Written) : List Entry := (x.run.run w).entries

/-- A run that writes nothing. -/
def ofAudit (x : Audit α) : Execution α := ExceptT.mk fun w => ⟨(x.result, w), x.entries⟩

/-- Changes what is written. -/
def change (f : Written → Written) : Execution Unit := ExceptT.mk fun w => ⟨(.ok (), f w), []⟩

section Steps

variable (x : Execution α) (f : α → Execution β) (w : Written)

/-- A run in two steps ends as its second step, unless the first ends in an error. -/
theorem result_bind : (x >>= f).result w = (x.result w).bind fun a => (f a).result (x.written w) := by
  show (ExceptT.bindCont (fun a => f a) (x.run.run w).value.1 (x.run.run w).value.2).value.1 = _
  unfold result written
  cases (x.run.run w).value.1 <;> rfl

/-- What the first of two steps has written stays. -/
theorem written_bind : (x >>= f).written w =
    match x.result w with
    | .ok a => (f a).written (x.written w)
    | .error _ => x.written w := by
  show (ExceptT.bindCont (fun a => f a) (x.run.run w).value.1 (x.run.run w).value.2).value.2 = _
  unfold result written
  cases (x.run.run w).value.1 <;> rfl

theorem entries_bind : (x >>= f).entries w = x.entries w ++
    match x.result w with
    | .ok a => (f a).entries (x.written w)
    | .error _ => [] := by
  show (x.run.run w).entries ++
    (ExceptT.bindCont (fun a => f a) (x.run.run w).value.1 (x.run.run w).value.2).entries = _
  unfold result written entries
  cases (x.run.run w).value.1 <;> rfl

end Steps

section Simple

variable (a : α) (x : Audit α) (f : Written → Written) (w : Written)

@[simp] theorem result_pure : (pure a : Execution α).result w = .ok a := rfl

@[simp] theorem written_pure : (pure a : Execution α).written w = w := rfl

@[simp] theorem entries_pure : (pure a : Execution α).entries w = [] := rfl

@[simp] theorem result_ofAudit : (ofAudit x).result w = x.result := rfl

@[simp] theorem written_ofAudit : (ofAudit x).written w = w := rfl

@[simp] theorem entries_ofAudit : (ofAudit x).entries w = x.entries := rfl

@[simp] theorem result_change : (change f).result w = .ok () := rfl

@[simp] theorem written_change : (change f).written w = f w := rfl

@[simp] theorem entries_change : (change f).entries w = [] := rfl

end Simple

/-- Writes a text. -/
def write (target : Target) (text : String) : Execution Unit :=
  change fun w =>
    match target with
    | .output => w.addOutput text
    | .file => w.addContent text

/-- Makes an empty file in a directory, in place of one that is there already. -/
def create (disk : Disk) (directory name : String) : Execution Target := do
  ofAudit (Audit.ofExcept (disk.canWrite (Path.join directory name)))
  change fun w => w.addFile directory name
  pure .file

end Execution

end RunAudit.Command
