/-!
# Names of tests

Lists of names are compared in sorted order with duplicates kept, sets of names without duplicates.
Both are ordered by code point. A `NameSet` keeps its names strictly ascending, so two sets with the
same members are equal.
-/

namespace RunAudit

/-- The names in ascending order, duplicates kept. -/
def sortedNames (names : List String) : List String := names.mergeSort fun a b => decide (a ≤ b)

/-- A finite set of names. -/
structure NameSet where
  /-- The members in ascending order. -/
  toList : List String
  ascending : toList.Pairwise (· < ·) := by simp
  deriving DecidableEq

namespace NameSet

/-- Puts a name into an ascending list unless it is there. -/
def insertInto (name : String) : List String → List String
  | [] => [name]
  | first :: rest =>
    if name < first then name :: first :: rest
    else if first < name then first :: insertInto name rest
    else first :: rest

/-- Two names that precede each other in neither order are the same name. -/
theorem eq_of_not_lt {a b : String} (h : ¬a < b) (h' : ¬b < a) : a = b :=
  String.le_antisymm (String.not_lt.1 h') (String.not_lt.1 h)

/-- The members after an insertion. -/
theorem mem_insertInto {name x : String} : ∀ {names : List String},
    x ∈ insertInto name names ↔ x = name ∨ x ∈ names
  | [] => by simp [insertInto]
  | first :: rest => by
    unfold insertInto
    split
    · simp
    · split
      · simp only [List.mem_cons, @mem_insertInto name x rest]
        constructor <;> rintro (h | h | h) <;> simp [h]
      · rename_i h h'
        rw [eq_of_not_lt h h']
        simp

/-- An insertion keeps a list ascending. -/
theorem pairwise_insertInto {name : String} : ∀ {names : List String},
    names.Pairwise (· < ·) → (insertInto name names).Pairwise (· < ·)
  | [], _ => by simp [insertInto]
  | first :: rest, h => by
    obtain ⟨hf, hr⟩ := List.pairwise_cons.1 h
    unfold insertInto
    split
    · rename_i hlt
      refine List.pairwise_cons.2 ⟨fun x hx => ?_, h⟩
      rcases List.mem_cons.1 hx with rfl | hx
      · exact hlt
      · exact String.lt_trans hlt (hf x hx)
    · split
      · rename_i hlt
        refine List.pairwise_cons.2 ⟨fun x hx => ?_, pairwise_insertInto hr⟩
        rcases mem_insertInto.1 hx with rfl | hx
        · exact hlt
        · exact hf x hx
      · exact h

/-- No names. -/
def empty : NameSet := ⟨[], List.Pairwise.nil⟩

/-- The set with one more name. -/
def insert (names : NameSet) (name : String) : NameSet :=
  ⟨insertInto name names.toList, pairwise_insertInto names.ascending⟩

/-- The names of a list. -/
def ofList (names : List String) : NameSet := names.foldl insert empty

instance : Membership String NameSet := ⟨fun names name => name ∈ names.toList⟩

/-- The members after an insertion. -/
@[simp]
theorem mem_insert {names : NameSet} {name x : String} : x ∈ names.insert name ↔ x = name ∨ x ∈ names :=
  mem_insertInto

/-- The empty set has no members. -/
@[simp]
theorem not_mem_empty {x : String} : x ∉ empty := by
  show x ∉ ([] : List String)
  simp

end NameSet

end RunAudit
