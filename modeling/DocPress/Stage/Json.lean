import DocPress.Json.Record
import DocPress.Stage

/-!
Stages as JSON: a record with the name of the stage under `stage` and its options beside it.
-/

namespace DocPress

open Json (ShapeError Record checked readBool readBelow mistyped)

/-- A size as JSON. -/
def ImageSize.toJson (size : ImageSize) : Json :=
  .object [("width", .ofNat size.width.toNat), ("height", .ofNat size.height.toNat)]

/-- Reads a size. -/
def ImageSize.ofJson (value : Json) : Except ShapeError ImageSize := do
  let readLength (value : Json) : Except ShapeError UInt32 :=
    (readBelow UInt32.size "u32" value).map UInt32.ofNat
  let record ← Record.ofJson "struct ImageSize" ["width", "height"] value
  record.check [("width", checked readLength), ("height", checked readLength)]
  let width ← record.required "width" readLength
  let height ← record.required "height" readLength
  record.checkLength
  return ⟨width, height⟩

namespace Stage

/-- The options of a stage as JSON. -/
def options : Stage → List (String × Json)
  | .footnotes options =>
    [("inline_notes", .bool options.inlineNotes), ("inline_short", .bool options.inlineShort),
      ("inline_max_len", .ofNat options.shortLength)]
  | .imageComponent sizes =>
    [("dimensions", .object (sizes.entries.map fun entry => (entry.1, entry.2.toJson)))]
  | .highlight strict => [("strict", .bool strict)]
  | _ => []

/-- A stage as JSON. -/
def toJson (stage : Stage) : Json :=
  .object (("stage", .string stage.name) :: stage.options)

/-- Reads the sizes of images by url. -/
def readSizes : Json → Except ShapeError (Catalog ImageSize)
  | .object fields => do
    let entries ← fields.mapM fun field => return (field.1, ← ImageSize.ofJson field.2)
    return .ofList entries
  | value => mistyped value "a map"

/-- The record of the options of a stage, which stand in an object or a list. -/
def optionRecord (title : String) (names : List String) (options : Json) :
    Except ShapeError Record :=
  Record.ofJson ("struct variant StageConfig::" ++ title) names options

/-- The stage of a name with its options, which are an object or a list of their values. -/
def ofOptions (name : String) (options : Json) : Except ShapeError Stage :=
  match name with
  | "footnotes" => do
    let readLength := readBelow UInt64.size "usize"
    let record ← optionRecord "Footnotes" ["inline_notes", "inline_short", "inline_max_len"] options
    record.check [("inline_notes", checked readBool), ("inline_short", checked readBool),
      ("inline_max_len", checked readLength)]
    let default : FootnoteOptions := {}
    let inlineNotes ← Json.defaulted "inline_notes" default.inlineNotes readBool record.fields
    let inlineShort ← Json.defaulted "inline_short" default.inlineShort readBool record.fields
    let shortLength ← Json.defaulted "inline_max_len" default.shortLength readLength record.fields
    record.checkLength
    return .footnotes ⟨inlineNotes, inlineShort, shortLength⟩
  | "image-component" => do
    let record ← optionRecord "ImageComponent" ["dimensions"] options
    record.check [("dimensions", checked readSizes)]
    let sizes ← Json.defaulted "dimensions" .empty readSizes record.fields
    record.checkLength
    return .imageComponent sizes
  | "highlight" => do
    let record ← optionRecord "Highlight" ["strict"] options
    record.check [("strict", checked readBool)]
    let strict ← Json.defaulted "strict" false readBool record.fields
    record.checkLength
    return .highlight strict
  | _ => do
    let record ← Record.ofJson "a stage" [] options
    record.checkLength
    match name with
    | "code-title" => return .codeTitle
    | "heading-slug" => return .headingSlug
    | "minify" => return .minify
    | _ => .error (.unknownVariant name names)

/-- Reads the name of a stage, which may also be given as its number. -/
def readName : Json → Except ShapeError String
  | .string name =>
    if names.contains name then .ok name else .error (.unknownVariant name names)
  | .number (.int (.ofNat n)) =>
    match names[n]? with
    | some name => .ok name
    | none => .error (.invalidValue (Json.describe (.ofNat n)) "variant index 0 <= i < 6")
  | value => mistyped value "variant identifier"

/-- Takes the name of the stage out of the fields. -/
def splitName (name : Option String) :
    List (String × Json) → Except ShapeError (String × List (String × Json))
  | [] =>
    match name with
    | some name => .ok (name, [])
    | none => .error (.missingField "stage")
  | (key, value) :: rest =>
    if key = "stage" then
      match name with
      | some _ => .error (.duplicateField "stage")
      | none => do splitName (some (← readName value)) rest
    else do
      let (name, others) ← splitName name rest
      return (name, (key, value) :: others)

/-- Reads a stage. -/
def ofJson : Json → Except ShapeError Stage
  | .object fields => do
    let (name, others) ← splitName none fields
    ofOptions name (.object others)
  | .array [] => .error (.missingField "stage")
  | .array (first :: rest) => do
    let name ← readName first
    ofOptions name (.array rest)
  | value => mistyped value "internally tagged enum StageConfig"

end Stage

end DocPress
