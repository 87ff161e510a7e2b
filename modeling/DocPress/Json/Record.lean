import DocPress.Json.Shape

/-!
Records: objects with known fields, which may also be written as lists of the values of those fields
in their order.
-/

namespace DocPress.Json

/-- The fields of a record as they are written. -/
structure Record where
  /-- What the record is, in words. -/
  title : String
  /-- The known fields in their order. -/
  names : List String
  fields : List (String × Json)
  /-- The number of values, for a record that is written as a list. -/
  length : Option Nat

namespace Record

/-- The record in a value. -/
def ofJson (title : String) (names : List String) : Json → Except ShapeError Record
  | .object fields => .ok ⟨title, names, fields, none⟩
  | .array items => .ok ⟨title, names, names.zip items, some items.length⟩
  | value => mistyped value title

/-- The words for a count of things. -/
def counted (n : Nat) (one : String) : String :=
  toString n ++ " " ++ one ++ (if n = 1 then "" else "s")

/-- Reads a field that must be there. -/
def required {α : Type} (name : String) (read : Json → Except ShapeError α) (record : Record) :
    Except ShapeError α :=
  match record.fields.find? (·.1 == name), record.length with
  | some (_, value), _ => read value
  | none, none => .error (.missingField name)
  | none, some length =>
    .error (.invalidLength length
      (record.title ++ " with " ++ counted record.names.length "element"))

/-- Checks the fields in the order in which they are written. -/
def check (readers : List (String × (Json → Except ShapeError Unit))) (record : Record) :
    Except ShapeError Unit :=
  checkFields readers [] record.fields

/-- Checks that a list holds no more values than there are fields; `expected` says how many values
there may be. -/
def atMost (expected : String) (record : Record) : Except ShapeError Unit :=
  match record.length with
  | some length =>
    if record.names.length < length then .error (.invalidLength length expected) else .ok ()
  | none => .ok ()

/-- Checks that a list that is a part of a larger value holds no more values than there are fields. -/
def checkLength (record : Record) : Except ShapeError Unit :=
  record.atMost (counted record.names.length "element" ++ " in sequence")

end Record

end DocPress.Json
