import RunAudit.Command.Script
import RunAudit.Program

/-!
# The executable

Looks up the paths that a command line is about, reads standard input if it is asked for, and writes what the run
of the program says.
-/

namespace RunAudit.Executable

open RunAudit.Command

/-- What an error of the system says about a file. -/
def faultOf (e : IO.Error) : FileFault :=
  match e with
  | .noFileOrDirectory _ _ _ => .notFound
  | .inappropriateType _ code _ =>
    if code = 20 ∨ code = 0 - 20 then .notADirectory
    else if code = 21 ∨ code = 0 - 21 then .isADirectory
    else .described (toString e)
  | e => .described (toString e)

/-- What stands at a path. -/
def lookUp (path : String) : IO Lookup := do
  if path.toList.contains '\x00' then return .absent .nullInName
  try
    return .file (← IO.FS.readBinFile path)
  catch e =>
    match faultOf e with
    | .isADirectory => return .directory
    | fault => return .absent fault

/-- What stands at each of some paths. -/
def lookUpAll (paths : List String) : IO Disk := do
  let found ← paths.mapM fun path => do return (path, ← lookUp path)
  return ⟨fun path => ((found.find? fun entry => entry.1 == path).map Prod.snd).getD (.absent .notFound)⟩

/-- What a request looks at. The expectations tell which reports to look at. -/
def diskOf (r : Request) : IO Disk := do
  let expectations ← lookUpAll (r.paths .empty)
  lookUpAll (r.paths expectations)

/-- How long it takes to evaluate a run. -/
def measure (run : Unit → Audit Unit) : IO Check.Milliseconds := do
  let before ← IO.monoMsNow
  discard <| IO.lazyPure fun () => (run ()).entries.length
  return .ofNat 128 ((← IO.monoMsNow) - before)

/-- How long each check of a request takes, by its place among those that the request selects. -/
def elapsedOf (disk : Disk) : Request → IO (Nat → Check.Milliseconds)
  | .verify r => do
    match (expectationsOf disk r.expectations).result, Check.select r.checks with
    | .ok e, .ok checks =>
      let times ← checks.mapM fun check => measure fun () => check.run (contextOf disk r e)
      return fun place => times.getD place 0
    | _, _ => return fun _ => 0
  | _ => return fun _ => 0

/-- What a command line reads from. -/
def environmentOf (words : List String) : IO Environment := do
  let coloured ← (← IO.getStdout).isTty
  match (Program.grammar.read words).bind (·.request) with
  | .error _ => return ⟨.empty, ⟨.empty⟩, coloured, fun _ => 0, Shell.script⟩
  | .ok r =>
    let disk ← diskOf r
    let input ← if r.readsInput then (← IO.getStdin).readBinToEnd else pure .empty
    return ⟨disk, ⟨input⟩, coloured, ← elapsedOf disk r, Shell.script⟩

end RunAudit.Executable

/-- Runs the program on the words of a command line. -/
def main (words : List String) : IO UInt32 := do
  let run := RunAudit.Program.run (← RunAudit.Executable.environmentOf words) words
  if let some file := run.file then IO.FS.writeFile file.path file.content
  IO.print run.output
  IO.eprint run.messages
  return UInt32.ofNat run.code
