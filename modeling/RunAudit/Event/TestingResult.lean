import RunAudit.Error
import RunAudit.Json.Reader

/-!
# Testing results

What an event says about the tests that were found and run. A record is written as an object, whose other
fields do not matter, or as a list of its fields in order. The fields of an object are decoded in the order
they stand in, so the first that does not decode decides the fault; fields that are missing come after that.
-/

namespace RunAudit.Event

/-- A test: its method and, where that is known, its class. -/
structure TestEntry where
  methodName : String
  className : Option String
  deriving DecidableEq, Repr

/-- The tests of a target. -/
structure Bucket where
  testEntries : List TestEntry
  deriving DecidableEq, Repr

/-- A run of a test. -/
structure TestRun where
  succeeded : Bool
  testEntry : TestEntry
  deriving DecidableEq, Repr

/-- The tests of a target and the runs of them, repeated ones included. -/
structure TestingResult where
  bucket : Bucket
  unfilteredTestRuns : List TestRun
  deriving DecidableEq, Repr

/-- What decoding gives. -/
abbrev Decoded (α : Type) := Except DecodeFault α

section Decoding

variable {α β : Type}

/-- The fault of a value of another type than expected. -/
def unexpected (v : Value) (expected : String) : DecodeFault := .wrongType (Json.kind v) expected

/-- A text. -/
def text : Value → Decoded String
  | .string s => .ok s
  | v => .error (unexpected v "a string")

/-- A text or nothing. -/
def optionalText : Value → Decoded (Option String)
  | .null => .ok none
  | v => (text v).map some

/-- A truth value. -/
def truthValue : Value → Decoded Bool
  | .bool b => .ok b
  | v => .error (unexpected v "a boolean")

/-- A list of items. -/
def list (item : Value → Decoded α) : Value → Decoded (List α)
  | .list vs => vs.mapM item
  | v => .error (unexpected v "a sequence")

/-- The entries of two keys among fields, decoded in the order they stand in. -/
def twoFields (key₁ : String) (read₁ : Value → Decoded α) (key₂ : String) (read₂ : Value → Decoded β)
    (found₁ : Option α) (found₂ : Option β) : Fields Value → Decoded (Option α × Option β)
  | [] => .ok (found₁, found₂)
  | (key, v) :: rest =>
    if key = key₁ then
      match read₁ v with
      | .ok a => twoFields key₁ read₁ key₂ read₂ (some a) found₂ rest
      | .error f => .error f
    else if key = key₂ then
      match read₂ v with
      | .ok b => twoFields key₁ read₁ key₂ read₂ found₁ (some b) rest
      | .error f => .error f
    else twoFields key₁ read₁ key₂ read₂ found₁ found₂ rest

/-- The entry of a key among fields. -/
def oneField (key : String) (read : Value → Decoded α) (fields : Fields Value) : Decoded (Option α) :=
  match fields.get? key with
  | some v => (read v).map some
  | none => .ok none

/-- An entry that must be there. -/
def required (key : String) : Option α → Decoded α
  | some a => .ok a
  | none => .error (.missingField key)

/-- The entry at a place in a list of fields that must be that long. -/
def itemAt (items : List Value) (index : Nat) (read : Value → Decoded α) (expected : String) : Decoded α :=
  match items[index]? with
  | some v => read v
  | none => .error (.tooShort items.length expected)

/-- Checks that a list holds no more than a number of fields. -/
def atMost (items : List Value) (count : Nat) : Decoded Unit :=
  if items.length ≤ count then .ok () else .error (.tooLong items.length)

end Decoding

namespace TestEntry

/-- What a test decodes from. -/
def expected : String := "struct TestEntry with 2 elements"

/-- A test from a value. Its class may be left out. -/
def ofValue : Value → Decoded TestEntry
  | .object fields => do
    let (methodName, className) ← twoFields "methodName" text "className" optionalText none none fields
    return ⟨← required "methodName" methodName, className.join⟩
  | .list items => do
    let methodName ← itemAt items 0 text expected
    let className ← (match items[1]? with
      | some v => optionalText v
      | none => .ok none)
    atMost items 2
    return ⟨methodName, className⟩
  | v => .error (unexpected v "struct TestEntry")

/-- A test as an object. An unknown class is left out. -/
def toValue (e : TestEntry) : Value :=
  .object (("methodName", .string e.methodName) ::
    match e.className with
    | some c => [("className", .string c)]
    | none => [])

end TestEntry

namespace Bucket

/-- The tests of a target from a value. -/
def ofValue : Value → Decoded Bucket
  | .object fields => do
    let testEntries ← oneField "testEntries" (list TestEntry.ofValue) fields
    return ⟨← required "testEntries" testEntries⟩
  | .list items => do
    let testEntries ← itemAt items 0 (list TestEntry.ofValue) "struct Bucket with 1 element"
    atMost items 1
    return ⟨testEntries⟩
  | v => .error (unexpected v "struct Bucket")

/-- The tests of a target as an object. -/
def toValue (b : Bucket) : Value := .object [("testEntries", .list (b.testEntries.map TestEntry.toValue))]

end Bucket

namespace TestRun

/-- What a run decodes from. -/
def expected : String := "struct TestRun with 2 elements"

/-- A run from a value. -/
def ofValue : Value → Decoded TestRun
  | .object fields => do
    let (succeeded, testEntry) ←
      twoFields "succeeded" truthValue "testEntry" TestEntry.ofValue none none fields
    return ⟨← required "succeeded" succeeded, ← required "testEntry" testEntry⟩
  | .list items => do
    let succeeded ← itemAt items 0 truthValue expected
    let testEntry ← itemAt items 1 TestEntry.ofValue expected
    atMost items 2
    return ⟨succeeded, testEntry⟩
  | v => .error (unexpected v "struct TestRun")

/-- A run as an object. -/
def toValue (r : TestRun) : Value :=
  .object [("succeeded", .bool r.succeeded), ("testEntry", r.testEntry.toValue)]

end TestRun

namespace TestingResult

/-- What a testing result decodes from. -/
def expected : String := "struct TestingResult with 2 elements"

/-- A testing result from a value. -/
def ofValue : Value → Decoded TestingResult
  | .object fields => do
    let (bucket, runs) ←
      twoFields "bucket" Bucket.ofValue "unfilteredTestRuns" (list TestRun.ofValue) none none fields
    return ⟨← required "bucket" bucket, ← required "unfilteredTestRuns" runs⟩
  | .list items => do
    let bucket ← itemAt items 0 Bucket.ofValue expected
    let runs ← itemAt items 1 (list TestRun.ofValue) expected
    atMost items 2
    return ⟨bucket, runs⟩
  | v => .error (unexpected v "struct TestingResult")

/-- A testing result as an object. -/
def toValue (r : TestingResult) : Value :=
  .object [("bucket", r.bucket.toValue), ("unfilteredTestRuns", .list (r.unfilteredTestRuns.map TestRun.toValue))]

end TestingResult

end RunAudit.Event
