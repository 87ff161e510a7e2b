import DocPress.Metadata.Schema
import DocPress.Text.Blank
import DocPress.Yaml.Write
import DocPress.Toml.Document

/-!
Headers of documents. A document may open with metadata between two lines of `---`, in YAML, or of
`+++`, in TOML. What follows the second line is the body, to the character.
-/

namespace DocPress

/-- The format of a header. -/
inductive HeaderFormat where
  | yaml
  | toml
  deriving DecidableEq, Repr

/-- The line that opens and closes a header. -/
def HeaderFormat.delimiter : HeaderFormat → String
  | .yaml => "---"
  | .toml => "+++"

/-- Whether a line, blanks at its end apart, is a delimiter. -/
def HeaderFormat.isDelimiter (format : HeaderFormat) (line : List Char) : Bool :=
  Text.trimEnd line = format.delimiter.toList

/-- The format that a first line opens a header of. -/
def HeaderFormat.ofLine? (line : List Char) : Option HeaderFormat :=
  [HeaderFormat.yaml, .toml].find? fun format => format.isDelimiter line

/-- A header and the body behind it. Lines are numbered from one. -/
structure Header where
  format : HeaderFormat
  /-- The text between the delimiters. -/
  text : List Char
  /-- The line of the closing delimiter. -/
  closingLine : Nat
  /-- The text behind the line of the closing delimiter. -/
  body : List Char

namespace Header

/-- The line on which the text of a header starts. -/
def firstLine : Nat := 2

/-- The lines up to the closing delimiter, and those behind it. -/
def splitLines? (format : HeaderFormat) :
    List (List Char) → Option (List (List Char) × List (List Char))
  | [] => none
  | line :: rest =>
    if format.isDelimiter line then some ([], rest)
    else (splitLines? format rest).map fun parts => (line :: parts.1, parts.2)

/-- Splits a source into header and body. A source without a header is not split. -/
def split (source : List Char) : Except MetadataError (Option Header) :=
  match Text.linesWithEnds (Text.withoutMark source) with
  | [] => .ok none
  | opening :: lines =>
    match HeaderFormat.ofLine? opening with
    | none => .ok none
    | some format =>
      match splitLines? format lines with
      | none => .error ⟨1, .unclosed format.delimiter⟩
      | some (header, body) =>
        .ok (some ⟨format, header.flatten, header.length + 2, body.flatten⟩)

/-- Whether the character is a quotation mark. -/
def isQuote (c : Char) : Bool :=
  c = '"' || c = '\''

/-- Whether a line of a header declares a key: the key, in quotes or not, and a colon or equals
sign. -/
def declares (key line : List Char) : Bool :=
  match Text.stripStart? key (line.dropWhile isQuote) with
  | none => false
  | some rest =>
    match Text.trimStart (rest.dropWhile isQuote) with
    | c :: _ => c = ':' || c = '='
    | [] => false

/-- The line of the document on which a key is declared, or the first line of the header if none
is found. -/
def keyLine (header : Header) (key : String) : Nat :=
  let lines := Text.lines header.text
  match lines.findIdx? (declares key.toList) with
  | some index => firstLine + index
  | none => firstLine

/-- The text of a scalar of YAML. -/
def yamlScalar? : Yaml.Value → Option String
  | .string value => some value
  | .int value => some (toString value)
  | .float value => some (Yaml.floatText value)
  | .bool value => some (MetaValue.flagWord value)
  | _ => none

/-- The value of a field of YAML; null is no value. -/
def ofYamlValue (key : String) : Yaml.Value → Except MetadataFault (Option RawValue)
  | .null => .ok none
  | .bool value => .ok (some (.flag value))
  | .sequence items =>
    match items.mapM yamlScalar? with
    | some texts => .ok (some (.list texts))
    | none => .error (.nestedList key)
  | value =>
    match yamlScalar? value with
    | some text => .ok (some (.text text))
    | none => .error (.unsupportedValue key)

/-- The text of a key of YAML, whatever its tag. -/
def yamlKey? : Yaml.Value → Option String
  | .string key => some key
  | .tagged _ key => yamlKey? key
  | _ => none

/-- The fields of a map of YAML. -/
def ofYamlEntries (header : Header) :
    List (Yaml.Value × Yaml.Value) → Except MetadataError (List (String × RawValue))
  | [] => .ok []
  | (key, value) :: rest =>
    match yamlKey? key with
    | none => .error ⟨firstLine, .keyNotText⟩
    | some key =>
      match ofYamlValue key value with
      | .error fault => .error ⟨header.keyLine key, fault⟩
      | .ok none => ofYamlEntries header rest
      | .ok (some value) => do
        let fields ← ofYamlEntries header rest
        return (key, value) :: fields

/-- The fields of a YAML header. One that is blank has none. -/
def readYaml (header : Header) : Except MetadataError (List (String × RawValue)) :=
  if header.text.all Text.isBlank then .ok []
  else
    match Yaml.parse (String.ofList header.text) with
    | .error error =>
      let line := (error.mark?.map (·.line)).getD 0
      .error ⟨firstLine + line, .unreadable error.message⟩
    | .ok (.mapping entries) => header.ofYamlEntries entries
    | .ok _ => .error ⟨firstLine, .notMapping⟩

/-- The value of a field of TOML. -/
def ofTomlValue (key : String) : Toml.Value → Except MetadataFault RawValue
  | .boolean value => .ok (.flag value)
  | .array items =>
    match items.mapM Toml.Value.text? with
    | some texts => .ok (.list texts)
    | none => .error (.nestedList key)
  | value =>
    match value.text? with
    | some text => .ok (.text text)
    | none => .error (.unsupportedValue key)

/-- The fields of a TOML header. -/
def readToml (header : Header) : Except MetadataError (List (String × RawValue)) :=
  match Toml.parse (String.ofList header.text) with
  | .error fault => .error ⟨firstLine + fault.linesBefore header.text, .unreadable fault.message⟩
  | .ok entries =>
    entries.mapM fun (key, value) =>
      match ofTomlValue key value with
      | .ok value => .ok (key, value)
      | .error fault => .error ⟨header.keyLine key, fault⟩

/-- The fields of a header before a schema gives them types. -/
def fields (header : Header) : Except MetadataError (List (String × RawValue)) :=
  match header.format with
  | .yaml => header.readYaml
  | .toml => header.readToml

/-- Gives fields their types, one after the other. -/
def coerceFields (schema : Schema) (header : Header) :
    List (String × RawValue) → Metadata → Except MetadataError Metadata
  | [], metadata => .ok metadata
  | (key, value) :: rest, metadata =>
    match schema.coerce key value with
    | .error fault => .error ⟨header.keyLine key, fault⟩
    | .ok value => coerceFields schema header rest (metadata.insert key value)

/-- The metadata of a header. -/
def metadata (schema : Schema) (header : Header) : Except MetadataError Metadata := do
  coerceFields schema header (← header.fields) .empty

end Header

/-- A source after its header has been read. -/
structure Extracted where
  metadata : Metadata
  body : String
  /-- The line of the closing delimiter, or 1 without a header. -/
  headerEndLine : Nat
  deriving DecidableEq

/-- Reads the header of a source. Without one, all of the source is its body. -/
def extract (schema : Schema) (source : String) : Except MetadataError Extracted := do
  match ← Header.split source.toList with
  | none => return ⟨.empty, source, 1⟩
  | some header =>
    let metadata ← header.metadata schema
    return ⟨metadata, String.ofList header.body, header.closingLine⟩

/-- A value as it is written in a header. -/
def MetaValue.toFlat : MetaValue → Yaml.Flat
  | .text value => .text value
  | .date value => .text value.format
  | .flag value => .flag value
  | .list items => .list items

/-- Metadata as a header. -/
def Metadata.toHeader (metadata : Metadata) : String :=
  "---\n" ++ Yaml.writeMap (metadata.entries.map fun entry => (entry.1, entry.2.toFlat)) ++ "---\n"

end DocPress
