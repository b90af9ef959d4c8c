/-!
# Diagnostics

What a run tells about itself besides its result: entries with a level, the part of the program that speaks,
and a message. `Logged α` is a value with the entries written on the way to it, in order.
-/

namespace RunAudit

/-- How much an entry matters. -/
inductive Level where
  | error
  | info
  | debug
  | trace
  deriving DecidableEq, Repr

namespace Level

/-- The place of a level, the gravest first. -/
def rank : Level → Nat
  | .error => 0
  | .info => 1
  | .debug => 2
  | .trace => 3

/-- Whether entries of a level are kept when entries up to another level are. -/
def admits (limit level : Level) : Bool := level.rank ≤ limit.rank

/-- The name of a level. -/
def label : Level → String
  | .error => "ERROR"
  | .info => "INFO"
  | .debug => "DEBUG"
  | .trace => "TRACE"

/-- The name of a level in five columns. -/
def column : Level → String
  | .error => "ERROR"
  | .info => "INFO "
  | .debug => "DEBUG"
  | .trace => "TRACE"

end Level

/-- The part of the program that writes an entry. -/
inductive Speaker where
  | verify
  | junitCases
  | completions
  | checks
  | expectations
  | junit
  | events
  | files
  | reader
  deriving DecidableEq, Repr

/-- How a part of the program is called in a written entry. -/
def Speaker.label : Speaker → String
  | .verify => "run_results_verifier::commands::verify"
  | .junitCases => "run_results_verifier::commands::junit_cases"
  | .completions => "run_results_verifier::commands::completions"
  | .checks => "run_results_verifier::checks"
  | .expectations => "run_results_verifier::checks::expectations"
  | .junit => "run_results_verifier::reports::junit"
  | .events => "run_results_verifier::reports::events"
  | .files => "run_results_verifier::reports::files"
  | .reader => "run_results_verifier::utils::reader"

/-- An entry of the log. -/
structure Entry where
  level : Level
  speaker : Speaker
  message : String
  deriving DecidableEq, Repr

namespace Entry

/-- An entry as a line of text. -/
def line (e : Entry) : String := e.level.column ++ " [" ++ e.speaker.label ++ "] " ++ e.message ++ "\n"

/-- The lines of the entries up to a level. -/
def lines (limit : Level) (entries : List Entry) : String :=
  String.join ((entries.filter fun e => limit.admits e.level).map line)

end Entry

/-- A value and the entries written on the way to it. -/
structure Logged (α : Type) where
  value : α
  entries : List Entry

namespace Logged

variable {α β : Type}

instance : Monad Logged where
  pure a := ⟨a, []⟩
  bind x f :=
    let y := f x.value
    ⟨y.value, x.entries ++ y.entries⟩

/-- Writes an entry. -/
def tell (level : Level) (speaker : Speaker) (message : String) : Logged Unit := ⟨(), [⟨level, speaker, message⟩]⟩

@[simp] theorem value_pure (a : α) : (pure a : Logged α).value = a := rfl

@[simp] theorem value_bind (x : Logged α) (f : α → Logged β) : (x >>= f).value = (f x.value).value := rfl

@[simp] theorem entries_pure (a : α) : (pure a : Logged α).entries = [] := rfl

@[simp] theorem entries_bind (x : Logged α) (f : α → Logged β) :
    (x >>= f).entries = x.entries ++ (f x.value).entries := rfl

instance : LawfulMonad Logged :=
  .mk' Logged (fun x => by simp [Functor.map]) (fun _ _ => rfl) (fun x f g => by simp [bind])

@[simp] theorem value_map (f : α → β) (x : Logged α) : (f <$> x).value = f x.value := rfl

@[simp] theorem entries_map (f : α → β) (x : Logged α) : (f <$> x).entries = x.entries := List.append_nil _

end Logged

end RunAudit
