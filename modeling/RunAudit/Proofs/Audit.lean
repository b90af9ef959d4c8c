import RunAudit.Error

/-!
# Runs in steps

A computation in two steps gives a value just when the first step gives one from which the second step gives it
(`bind_eq_ok_iff`, `map_eq_ok_iff`). Of the entries that a run writes, `errors` are those that are always shown; a run
is quiet if it writes none of these, and a run in quiet steps is (`Quiet.bind`).
-/

namespace RunAudit

section Except

variable {ε α β : Type}

/-- Two steps that give a value. -/
theorem bind_eq_ok_iff {x : Except ε α} {f : α → Except ε β} {b : β} :
    x.bind f = .ok b ↔ ∃ a, x = .ok a ∧ f a = .ok b := by
  cases x with
  | error e => simp [Except.bind]
  | ok a => simp [Except.bind]

/-- A step that gives nothing but whether it passes, and another one. -/
theorem bind_unit_eq_ok_iff {x : Except ε Unit} {f : Unit → Except ε β} {b : β} :
    x.bind f = .ok b ↔ x = .ok () ∧ f () = .ok b := by
  rw [bind_eq_ok_iff]
  constructor
  · rintro ⟨_, hx, hf⟩
    exact ⟨hx, hf⟩
  · rintro ⟨hx, hf⟩
    exact ⟨(), hx, hf⟩

/-- A step whose value is changed. -/
theorem map_eq_ok_iff {x : Except ε α} {f : α → β} {b : β} : x.map f = .ok b ↔ ∃ a, x = .ok a ∧ f a = b := by
  cases x with
  | error e => simp [Except.map]
  | ok a => simp [Except.map]

/-- A step whose error is changed. -/
theorem mapError_eq_ok_iff {ε' : Type} {x : Except ε α} {f : ε → ε'} {a : α} : x.mapError f = .ok a ↔ x = .ok a := by
  cases x with
  | error e => exact ⟨nofun, nofun⟩
  | ok b =>
    constructor
    · intro h
      cases (h : (Except.ok b : Except ε' α) = .ok a)
      rfl
    · intro h
      cases h
      rfl

/-- A value that is given, when no error is asked for. -/
theorem toOption_eq_some_iff {x : Except ε α} {a : α} : x.toOption = some a ↔ x = .ok a := by
  cases x with
  | error e => exact ⟨nofun, nofun⟩
  | ok b => exact ⟨fun h => congrArg Except.ok (Option.some.inj h), fun h => congrArg some (Except.ok.inj h)⟩

end Except

namespace Audit

variable {α : Type}

/-- What writes log entries only does not end in an error. -/
@[simp] theorem result_lift (x : Logged α) : result (ExceptT.lift x : Audit α) = .ok x.value := rfl

end Audit

/-! ## Entries that are always shown -/

/-- The entries at the level of errors. -/
def errors (entries : List Entry) : List Entry := entries.filter fun e => e.level = .error

/-- What is shown when nothing more is asked for. -/
theorem lines_error (entries : List Entry) :
    Entry.lines .error entries = String.join ((errors entries).map Entry.line) := by
  have h : (fun e : Entry => Level.error.admits e.level) = fun e => decide (e.level = .error) := by
    funext e
    cases e.level <;> rfl
  rw [Entry.lines, h, errors]

@[simp] theorem errors_append (entries more : List Entry) : errors (entries ++ more) = errors entries ++ errors more :=
  List.filter_append ..

/-- An entry is a line of its own. -/
theorem Entry.line_ne_empty (e : Entry) : e.line ≠ "" := by
  simp [Entry.line]

namespace Audit

variable {α β : Type}

/-- A run that shows nothing unless it is asked to. -/
def Quiet (x : Audit α) : Prop := errors x.entries = []

theorem quiet_pure (a : α) : (pure a : Audit α).Quiet := rfl

theorem quiet_ofExcept (x : Except Error α) : (ofExcept x).Quiet := rfl

theorem quiet_tell {level : Level} (h : level ≠ .error) (speaker : Speaker) (message : String) :
    (tell level speaker message).Quiet := by
  show errors [⟨level, speaker, message⟩] = []
  simp [errors, h]

theorem entries_lift (x : Logged α) : entries (ExceptT.lift x : Audit α) = x.entries := List.append_nil _

/-- The second of two steps writes its entries behind those of the first, unless the first ends in an error. -/
theorem entries_bind (x : Audit α) (f : α → Audit β) :
    (x >>= f).entries = x.entries ++ match x.result with
      | .ok a => (f a).entries
      | .error _ => [] := by
  obtain ⟨value, entries⟩ := x
  cases value <;> rfl

/-- **Quiet steps** make a quiet run. -/
theorem Quiet.bind {x : Audit α} {f : α → Audit β} (hx : x.Quiet) (hf : ∀ a, (f a).Quiet) : (x >>= f).Quiet := by
  rw [Quiet, entries_bind, errors_append, hx]
  cases x.result with
  | ok a => exact hf a
  | error e => rfl

/-- A quiet step leaves what is shown to the next. -/
theorem Quiet.errors_bind {x : Audit α} (hx : x.Quiet) (f : α → Audit β) :
    errors (x >>= f).entries = match x.result with
      | .ok a => errors (f a).entries
      | .error _ => [] := by
  rw [entries_bind, errors_append, hx]
  cases x.result <;> rfl

end Audit

end RunAudit
