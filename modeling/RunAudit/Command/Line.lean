import RunAudit.Command.Request

/-!
# Command lines

A command line has switches of the program, then a command with switches of its own. `help` before a command asks
for help with it. Some switches of the program may also follow the command.
-/

namespace RunAudit.Command

/-- What stands before and after a command on a command line. -/
structure Line where
  /-- The switches before the command. -/
  before : List Given
  /-- The command, and the switches after it. -/
  command : Option (Verb × List Given)

/-- The switches of a command line besides those of its command. -/
structure Grammar where
  /-- Switches that stand before a command only. -/
  leading : List Switch
  /-- Switches that stand before a command or after it. -/
  anywhere : List Switch

namespace Grammar

/-- The switches that may stand before a command. -/
def before (g : Grammar) : List Switch := Verb.help :: g.leading ++ g.anywhere

/-- The switches that may stand after a command. -/
def after (g : Grammar) (verb : Verb) : List Switch := Verb.help :: verb.switches ++ g.anywhere

/-- What `help` before words asks for: help with a command, or with itself. -/
def help : List String → UsageFault
  | [] => .helpRequested
  | [word] => if word = "help" || (Verb.ofName? word).isSome then .helpRequested else .invalidCommand
  | _ => .invalidCommand

/-- Reads the words after two dashes, where no command may stand. -/
def afterEscape : List String → Except UsageFault Unit
  | [] => .ok ()
  | word :: _ => .error (if word = "help" || (Verb.ofName? word).isSome then .unknownArgument else .invalidCommand)

/-- Reads words from the front of a command line. -/
def readFrom (g : Grammar) (r : Reading) : List String → Except UsageFault Line
  | [] => r.settle.map fun r => ⟨r.given, none⟩
  | word :: rest =>
    match Word.ofString word with
    | .escape => (afterEscape rest).bind fun () => r.settle.map fun r => ⟨r.given, none⟩
    | .long name attached => (r.takeLong g.before name attached).bind fun r => readFrom g r rest
    | .short letters => (r.takeShort g.before letters).bind fun r => readFrom g r rest
    | .bare text =>
      if text = "help" then .error (help rest)
      else
        match Verb.ofName? text with
        | some verb =>
          match Reading.empty.takeAll (g.after verb) rest with
          | .ok given => r.settle.map fun r => ⟨r.given, some (verb, given)⟩
          | .error f => .error f
        | none => .error .invalidCommand

/-- Reads a command line. -/
def read (g : Grammar) (words : List String) : Except UsageFault Line := readFrom g .empty words

end Grammar

/-- The request of a command line. -/
def Line.request (line : Line) : Except UsageFault Request :=
  match line.command with
  | some (verb, given) => Request.ofGiven verb given
  | none => .error .noCommand

/-- How often a switch was given: after the command, or else before it. -/
def Line.times (line : Line) (long : String) : Nat :=
  match line.command with
  | some (_, given) => if isGiven given long then timesGiven given long else timesGiven line.before long
  | none => timesGiven line.before long

end RunAudit.Command
