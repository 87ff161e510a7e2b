import DocPress.Metadata

/-!
Schemas of metadata: which fields there may be, of which type, and which of them there must be. A
schema turns the values of a header, which know no dates, into typed values.
-/

namespace DocPress

/-- The type of a field. -/
inductive FieldType where
  | string
  | date
  | boolean
  | list
  deriving DecidableEq, Repr

/-- The keyword for a type. -/
def FieldType.keyword : FieldType → String
  | .string => "string"
  | .date => "date"
  | .boolean => "boolean"
  | .list => "list"

/-- The name of a type in messages. -/
def FieldType.title : FieldType → String
  | .string => "String"
  | .date => "Date"
  | .boolean => "Boolean"
  | .list => "List"

/-- The types by their keywords. -/
def FieldType.all : List (String × FieldType) :=
  [FieldType.string, .date, .boolean, .list].map fun type => (type.keyword, type)

/-- A declared field. -/
structure FieldSpec where
  name : String
  type : FieldType
  /-- Whether metadata must have the field. -/
  required : Bool
  deriving DecidableEq, Repr

/-- The fields that metadata may have. -/
structure Schema where
  fields : Fields FieldSpec
  /-- Whether fields that are not declared are refused. -/
  strict : Bool
  deriving DecidableEq

/-- Why metadata is refused. -/
inductive MetadataFault where
  | missingField (name : String)
  | unknownField (name : String)
  | mismatch (name : String) (expected : FieldType) (found : String)
  | invalidDate (name text : String)
  | nestedList (name : String)
  | unsupportedValue (name : String)
  | notMapping
  | keyNotText
  /-- A header without its closing line. -/
  | unclosed (delimiter : String)
  /-- A header that cannot be read, for the given reason. -/
  | unreadable (reason : String)
  deriving DecidableEq, Repr

/-- A name between backticks, with the word for a field in front. -/
def fieldNamed (name : String) : String :=
  "field " ++ String.singleton (Char.ofNat 96) ++ name ++ String.singleton (Char.ofNat 96)

/-- The wording of a fault. -/
def MetadataFault.message : MetadataFault → String
  | .missingField name => "missing required " ++ fieldNamed name
  | .unknownField name => "unknown " ++ fieldNamed name
  | .mismatch name expected found =>
    fieldNamed name ++ " expects " ++ expected.title ++ ", found " ++ found
  | .invalidDate name text =>
    fieldNamed name ++ ": invalid date " ++ String.singleton (Char.ofNat 96) ++ text ++
      String.singleton (Char.ofNat 96)
  | .nestedList name => fieldNamed name ++ ": list items must be scalars"
  | .unsupportedValue name => fieldNamed name ++ ": unsupported value"
  | .notMapping => "metadata header must be a mapping"
  | .keyNotText => "metadata keys must be strings"
  | .unclosed delimiter =>
    "unterminated metadata header: missing closing " ++ String.singleton (Char.ofNat 96) ++
      delimiter ++ String.singleton (Char.ofNat 96)
  | .unreadable reason => reason

/-- A fault of metadata and the line of the document that it is about. -/
structure MetadataError where
  line : Nat
  fault : MetadataFault
  deriving DecidableEq, Repr

/-- The wording of an error. -/
def MetadataError.message (error : MetadataError) : String :=
  "Malformed metadata at line " ++ toString error.line ++ ": " ++ error.fault.message

/-- A value of a header before a schema gives it a type. -/
inductive RawValue where
  | text (value : String)
  | flag (value : Bool)
  | list (items : List String)
  deriving DecidableEq, Repr

/-- The value of a field that is not declared. -/
def RawValue.untyped : RawValue → MetaValue
  | .text value => .text value
  | .flag value => .flag value
  | .list items => .list items

namespace Schema

/-- Declares a field, in place of an earlier one of its name. -/
def declare (spec : FieldSpec) (schema : Schema) : Schema :=
  { schema with fields := schema.fields.insert spec.name spec }

/-- Nothing is declared, and every field is passed on. -/
def permissive : Schema :=
  ⟨.empty, false⟩

/-- A schema of the given fields. -/
def ofFields (strict : Bool) (specs : List FieldSpec) : Schema :=
  specs.foldl (fun schema spec => schema.declare spec) ⟨.empty, strict⟩

/-- The fields that every document must have. -/
def basicFields : List FieldSpec :=
  [⟨"title", .string, true⟩, ⟨"date", .date, true⟩]

/-- Title and date alone. -/
def basic (strict : Bool) : Schema :=
  ofFields strict basicFields

/-- The fields of a post: those of every document, and the usual optional ones. -/
def blog : Schema :=
  ofFields false (basicFields ++
    [⟨"tags", .list, false⟩, ⟨"lastmod", .date, false⟩, ⟨"draft", .boolean, false⟩,
      ⟨"summary", .string, false⟩, ⟨"images", .list, false⟩, ⟨"layout", .string, false⟩,
      ⟨"series", .string, false⟩, ⟨"bibliography", .string, false⟩,
      ⟨"canonicalUrl", .string, false⟩])

/-- The declaration of a field. -/
def field? (name : String) (schema : Schema) : Option FieldSpec :=
  schema.fields.get? name

/-- The first required field that is missing. -/
def missing? (schema : Schema) (metadata : Metadata) : Option FieldSpec :=
  schema.fields.values.find? fun spec => spec.required && !metadata.contains spec.name

/-- Checks that every required field is there; an error is about the given line. -/
def validate (schema : Schema) (metadata : Metadata) (line : Nat) : Except MetadataError Unit :=
  match schema.missing? metadata with
  | some spec => .error ⟨line, .missingField spec.name⟩
  | none => .ok ()

/-- The names of the optional fields that are missing, as they were declared. -/
def missingOptional (schema : Schema) (metadata : Metadata) : List String :=
  (schema.fields.values.filter fun spec =>
    !spec.required && !metadata.contains spec.name).map (·.name)

/-- The names of the optional fields, as they were declared. -/
def optionalNames (schema : Schema) : List String :=
  (schema.fields.values.filter (!·.required)).map (·.name)

/-- The value of a field under its declared type. A text is a list of itself, a truth value is a
text, and the words for the truth values are truth values. -/
def typed (spec : FieldSpec) (name : String) : RawValue → Except MetadataFault MetaValue
  | .text value =>
    match spec.type with
    | .string => .ok (.text value)
    | .date =>
      match Instant.parse? value with
      | some date => .ok (.date date)
      | none => .error (.invalidDate name value)
    | .boolean =>
      if value = "true" then .ok (.flag true)
      else if value = "false" then .ok (.flag false)
      else .error (.mismatch name .boolean "text")
    | .list => .ok (.list [value])
  | .flag value =>
    match spec.type with
    | .string => .ok (.text (MetaValue.flagWord value))
    | .boolean => .ok (.flag value)
    | type => .error (.mismatch name type "a boolean")
  | .list items =>
    match spec.type with
    | .list => .ok (.list items)
    | type => .error (.mismatch name type "a list")

/-- The value of a field of a header. -/
def coerce (schema : Schema) (name : String) (value : RawValue) :
    Except MetadataFault MetaValue :=
  match schema.field? name with
  | some spec => typed spec name value
  | none => if schema.strict then .error (.unknownField name) else .ok value.untyped

end Schema

end DocPress
