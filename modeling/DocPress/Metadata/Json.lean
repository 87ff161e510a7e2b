import DocPress.Json.Record
import DocPress.Metadata.Schema

/-!
Metadata from the fields of a JSON record, and declarations of fields as JSON. The schema tells which
texts are dates; all other values keep the type that they have.
-/

namespace DocPress

/-- Why the fields of a record are not metadata. -/
inductive RecordFault where
  | invalidDate (name text : String)
  | nestedList (name : String)
  | nestedObject (name : String)
  deriving DecidableEq, Repr

/-- The wording of a fault. -/
def RecordFault.message : RecordFault → String
  | .invalidDate name text => (MetadataFault.invalidDate name text).message
  | .nestedList name => fieldNamed name ++ ": list items must be strings"
  | .nestedObject name => fieldNamed name ++ ": nested objects are not metadata"

namespace Metadata

/-- The value of a field of a record; null is no value. -/
def readField (schema : Schema) (name : String) : Json → Except RecordFault (Option MetaValue)
  | .null => .ok none
  | .bool value => .ok (some (.flag value))
  | .number value => .ok (some (.text value.text))
  | .string value =>
    match schema.field? name with
    | some ⟨_, .date, _⟩ =>
      match Instant.parse? value with
      | some date => .ok (some (.date date))
      | none => .error (.invalidDate name value)
    | _ => .ok (some (.text value))
  | .array items =>
    match items.mapM Json.text? with
    | some texts => .ok (some (.list texts))
    | none => .error (.nestedList name)
  | .object _ => .error (.nestedObject name)

/-- Adds the fields of a record, apart from those under the names `skip`. -/
def readFields (schema : Schema) (skip : List String) :
    List (String × Json) → Metadata → Except RecordFault Metadata
  | [], metadata => .ok metadata
  | (name, value) :: rest, metadata =>
    if skip.contains name then readFields schema skip rest metadata
    else do
      match ← readField schema name value with
      | some value => readFields schema skip rest (metadata.insert name value)
      | none => readFields schema skip rest metadata

/-- The metadata in a record. -/
def ofJsonFields (schema : Schema) (skip : List String) (fields : List (String × Json)) :
    Except RecordFault Metadata :=
  readFields schema skip fields .empty

end Metadata

namespace FieldSpec

/-- A declaration as JSON. -/
def toJson (spec : FieldSpec) : Json :=
  .object [("name", .string spec.name), ("type", .string spec.type.keyword),
    ("required", .bool spec.required)]

/-- Reads a declaration; it need not say whether the field is required. -/
def ofJson (value : Json) : Except Json.ShapeError FieldSpec := do
  let readType := Json.readVariant FieldType.all
  let record ← Json.Record.ofJson "struct FieldSpec" ["name", "type", "required"] value
  record.check
    [("name", Json.checked Json.readString), ("type", Json.checked readType),
      ("required", Json.checked Json.readBool)]
  let name ← record.required "name" Json.readString
  let type ← record.required "type" readType
  let required ← Json.defaulted "required" false Json.readBool record.fields
  record.atMost "fewer elements in array"
  return ⟨name, type, required⟩

end FieldSpec

end DocPress
