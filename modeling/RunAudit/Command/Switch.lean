/-!
# Switches

A command line is a list of words. A word is a switch by its long name after two dashes, or by its letter after
one, where several letters may stand together; anything else is a value or a word of its own. The value of a
switch is attached to it or is the next word. It is checked when the next switch is read or the words end, unless
it is attached.
-/

namespace RunAudit.Command

/-- Why a command line is refused, or what it asks for instead of a command. -/
inductive UsageFault where
  | noCommand
  | invalidCommand
  | unknownArgument
  /-- A value that is not allowed, or that is missing. -/
  | invalidValue
  | tooManyValues
  | repeatedSwitch
  | missingSwitch
  | helpRequested
  | versionRequested
  deriving DecidableEq, Repr

/-- What a switch does. -/
inductive Arity where
  /-- It is there or not. -/
  | flag
  /-- It counts how often it is there. -/
  | count
  /-- It takes a value, one of those allowed if they are told, once or repeatedly. -/
  | value (allowed : Option (List String)) (repeatable : Bool)
  /-- It ends the reading. -/
  | ends (fault : UsageFault)
  deriving DecidableEq, Repr

/-- A switch. -/
structure Switch where
  long : String
  short : Char
  arity : Arity
  deriving DecidableEq, Repr

namespace Switch

/-- Whether a switch takes a value. -/
def takesValue (s : Switch) : Bool :=
  match s.arity with
  | .value _ _ => true
  | _ => false

/-- Whether a switch may be given again. -/
def isRepeatable (s : Switch) : Bool :=
  match s.arity with
  | .value _ repeatable => repeatable
  | .count => true
  | _ => false

/-- Whether a switch allows a value. -/
def allows (s : Switch) (value : String) : Bool :=
  match s.arity with
  | .value (some allowed) _ => allowed.contains value
  | _ => true

end Switch

/-- A switch as it was given, with its value if it takes one. -/
structure Given where
  long : String
  value : String
  deriving DecidableEq, Repr

/-- The value of a switch that was given. -/
def valueOf? (given : List Given) (long : String) : Option String :=
  (given.find? fun g => g.long == long).map Given.value

/-- The values of a switch, in order. -/
def valuesOf (given : List Given) (long : String) : List String :=
  (given.filter fun g => g.long == long).map Given.value

/-- Whether a switch was given. -/
def isGiven (given : List Given) (long : String) : Bool := given.any fun g => g.long == long

/-- How often a switch was given. -/
def timesGiven (given : List Given) (long : String) : Nat := given.countP fun g => g.long == long

/-- A word by its form. -/
inductive Word where
  /-- Two dashes: no switches follow. -/
  | escape
  | long (name : String) (attached : Option String)
  | short (letters : List Char)
  | bare (text : String)
  deriving DecidableEq, Repr

/-- The form of a word. A dash alone is a value. -/
def Word.ofString (text : String) : Word :=
  match text.toList with
  | ['-', '-'] => .escape
  | '-' :: '-' :: rest =>
    let name := String.ofList (rest.takeWhile (· ≠ '='))
    match rest.dropWhile (· ≠ '=') with
    | [] => .long name none
    | _ :: value => .long name (some (String.ofList value))
  | '-' :: c :: rest => .short (c :: rest)
  | _ => .bare text

/-- The switches read, and one that is read but not checked, with its value if that is read. -/
structure Reading where
  given : List Given
  pending : Option (Switch × Option String)

namespace Reading

/-- Nothing read. -/
def empty : Reading := ⟨[], none⟩

/-- Adds a switch with its value. -/
def add (r : Reading) (s : Switch) (value : Option String) : Except UsageFault Reading :=
  if s.takesValue && value.isNone then .error .invalidValue
  else if !s.isRepeatable && isGiven r.given s.long then .error .repeatedSwitch
  else if !s.allows (value.getD "") then .error .invalidValue
  else .ok ⟨r.given ++ [⟨s.long, value.getD ""⟩], none⟩

/-- Checks the switch that is read but not checked. -/
def settle (r : Reading) : Except UsageFault Reading :=
  match r.pending with
  | some (s, value) => add ⟨r.given, none⟩ s value
  | none => .ok r

/-- Reads a switch, with an attached value if there is one. -/
def take (r : Reading) (s : Switch) (attached : Option String) : Except UsageFault Reading :=
  match s.arity, attached with
  | .ends fault, _ => r.settle.bind fun _ => .error fault
  | .value _ _, none => r.settle.map fun r => { r with pending := some (s, none) }
  | _, attached => r.settle.bind fun r => r.add s attached

/-- Reads a switch by its long name. -/
def takeLong (switches : List Switch) (r : Reading) (name : String) (attached : Option String) :
    Except UsageFault Reading :=
  match switches.find? fun s => s.long == name with
  | none => .error .unknownArgument
  | some s => if attached.isSome && !s.takesValue then .error .tooManyValues else r.take s attached

/-- Reads switches by their letters. What follows the letter of one that takes a value is its value. -/
def takeShort (switches : List Switch) (r : Reading) : List Char → Except UsageFault Reading
  | [] => .ok r
  | c :: rest =>
    match switches.find? fun s => s.short == c with
    | none => .error .unknownArgument
    | some s =>
      if s.takesValue then
        match rest with
        | [] => r.take s none
        | '=' :: value => r.take s (some (String.ofList value))
        | value => r.take s (some (String.ofList value))
      else
        match r.take s none with
        | .ok r => takeShort switches r rest
        | .error f => .error f

/-- Reads a word that is no switch: the value of a switch that waits for one. -/
def takeBare (r : Reading) (text : String) : Except UsageFault Reading :=
  match r.pending with
  | some (s, none) => .ok { r with pending := some (s, some text) }
  | _ => .error .unknownArgument

/-- Reads the words of a command that has only switches. Nothing may follow two dashes. -/
def takeAll (switches : List Switch) (r : Reading) : List String → Except UsageFault (List Given)
  | [] => r.settle.map (·.given)
  | word :: rest =>
    let next :=
      match Word.ofString word with
      | .escape => if rest.isEmpty then r.settle else .error .unknownArgument
      | .long name attached => r.takeLong switches name attached
      | .short letters => r.takeShort switches letters
      | .bare text => r.takeBare text
    match next with
    | .ok r => takeAll switches r rest
    | .error f => .error f

end Reading

end RunAudit.Command
