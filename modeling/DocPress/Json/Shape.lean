import DocPress.Json.Located
import DocPress.Text.Quoted

/-!
Why a JSON value does not have the shape that a reader wants, and readers for the simple shapes.
-/

namespace DocPress.Json

open DocPress.Text (quoted)

/-- Why a value does not have the wanted shape. -/
inductive ShapeError where
  | missingField (name : String)
  | duplicateField (name : String)
  | unknownVariant (found : String) (expected : List String)
  | invalidType (found : String) (expected : String)
  | invalidValue (found : String) (expected : String)
  | invalidLength (length : Nat) (expected : String)
  deriving DecidableEq, Repr

/-- A name between backticks. -/
def ticked (name : String) : String :=
  String.singleton (Char.ofNat 96) ++ name ++ String.singleton (Char.ofNat 96)

/-- The names that were expected, in words. -/
def oneOf : List String → String
  | [] => "there are no variants"
  | [a] => "expected " ++ ticked a
  | [a, b] => "expected " ++ ticked a ++ " or " ++ ticked b
  | names => "expected one of " ++ ", ".intercalate (names.map ticked)

/-- The wording of a shape error. -/
def ShapeError.message : ShapeError → String
  | .missingField name => "missing field " ++ ticked name
  | .duplicateField name => "duplicate field " ++ ticked name
  | .unknownVariant found [] => "unknown variant " ++ ticked found ++ ", there are no variants"
  | .unknownVariant found expected =>
    "unknown variant " ++ ticked found ++ ", " ++ oneOf expected
  | .invalidType found expected => "invalid type: " ++ found ++ ", expected " ++ expected
  | .invalidValue found expected => "invalid value: " ++ found ++ ", expected " ++ expected
  | .invalidLength length expected =>
    "invalid length " ++ toString length ++ ", expected " ++ expected

/-- What a value is, in words. -/
def describe : Json → String
  | .null => "null"
  | .bool b => "boolean " ++ ticked (if b then "true" else "false")
  | .number (.int n) => "integer " ++ ticked (toString n)
  | .number (.float x) => "floating point " ++ ticked (numberLayout.write x)
  | .string text => "string " ++ quoted text
  | .array _ => "sequence"
  | .object _ => "map"

/-- The error for a value of another type than the wanted one. -/
def mistyped {α : Type} (value : Json) (expected : String) : Except ShapeError α :=
  .error (.invalidType (describe value) expected)

/-- Reads a text. -/
def readString : Json → Except ShapeError String
  | .string text => .ok text
  | value => mistyped value "a string"

/-- Reads a truth value. -/
def readBool : Json → Except ShapeError Bool
  | .bool b => .ok b
  | value => mistyped value "a boolean"

/-- Reads a natural number below `bound`, the bound of the type with the given name. -/
def readBelow (bound : Nat) (typeName : String) : Json → Except ShapeError Nat
  | .number (.int n) =>
    if 0 ≤ n && n < bound then .ok n.toNat
    else .error (.invalidValue (describe (.number (.int n))) typeName)
  | value => mistyped value typeName

/-- Reads a value that may be null. -/
def readOptional {α : Type} (read : Json → Except ShapeError α) :
    Json → Except ShapeError (Option α)
  | .null => .ok none
  | value => (read value).map some

/-- Reads an array item by item. -/
def readList {α : Type} (read : Json → Except ShapeError α) : Json → Except ShapeError (List α)
  | .array items => items.mapM read
  | value => mistyped value "a sequence"

/-- Reads a name out of `names`, which stands alone or as the only key of an object over null. -/
def readVariant {α : Type} (names : List (String × α)) (value : Json) : Except ShapeError α :=
  let pick (name : String) : Except ShapeError α :=
    match names.find? (·.1 == name) with
    | some entry => .ok entry.2
    | none => .error (.unknownVariant name (names.map (·.1)))
  match value with
  | .string name => pick name
  | .object [(name, payload)] => do
    let found ← pick name
    match payload with
    | .null => .ok found
    | other => mistyped other "unit"
  | .object _ => .error (.invalidValue "map" "map with a single key")
  | other => mistyped other "string or map"

/-- The names of fields that occur more than once or are missing are the reader's business: the
values of the fields called `name`, in order. -/
def valuesOf (name : String) (fields : List (String × Json)) : List Json :=
  (fields.filter (·.1 == name)).map (·.2)

/-- Checks fields in the order in which they are written: no field of `readers` occurs twice, and
each has the shape that its reader wants. -/
def checkFields (readers : List (String × (Json → Except ShapeError Unit))) :
    List String → List (String × Json) → Except ShapeError Unit
  | _, [] => .ok ()
  | seen, (key, value) :: rest =>
    match readers.find? (·.1 == key) with
    | none => checkFields readers seen rest
    | some (_, read) =>
      if seen.contains key then .error (.duplicateField key)
      else do
        read value
        checkFields readers (key :: seen) rest

/-- Reads a field that must be there. -/
def required {α : Type} (name : String) (read : Json → Except ShapeError α)
    (fields : List (String × Json)) : Except ShapeError α :=
  match fields.find? (·.1 == name) with
  | some (_, value) => read value
  | none => .error (.missingField name)

/-- Reads a field that has a default. -/
def defaulted {α : Type} (name : String) (default : α) (read : Json → Except ShapeError α)
    (fields : List (String × Json)) : Except ShapeError α :=
  match fields.find? (·.1 == name) with
  | some (_, value) => read value
  | none => .ok default

/-- Forgets what was read, for a check. -/
def checked {α : Type} (read : Json → Except ShapeError α) (value : Json) : Except ShapeError Unit :=
  (read value).map fun _ => ()

end DocPress.Json
