import DocPress.Node
import DocPress.Json.Shape

/-!
Trees as JSON. A node is an object with its kind under `type`, the attributes of the kind, and its
children under `children`; attributes and children that hold nothing are left out. Reading takes
any order of keys, passes over unknown ones and fills in what was left out.
-/

namespace DocPress

open Json

/-! ### Writing -/

/-- A field that is left out when there is no value. -/
def optionalField {α : Type} (name : String) (write : α → Json) : Option α → List (String × Json)
  | some value => [(name, write value)]
  | none => []

/-- A field with a text that is left out when the text is empty. -/
def nonemptyField (name text : String) : List (String × Json) :=
  if text = "" then [] else [(name, .string text)]

/-- The alignment of a column, null for none. -/
def alignJson (align : Option Align) : Json :=
  .ofText? (align.map (·.keyword))

/-- The attributes of a kind as fields. -/
def NodeKind.fields : NodeKind → List (String × Json)
  | .heading level id =>
    ("level", .ofNat level.toNat) :: optionalField "id" .string id
  | .text value => [("value", .string value)]
  | .inlineCode value => [("value", .string value)]
  | .codeBlock language info code =>
    optionalField "language" .string language ++ optionalField "meta" .string info ++
      [("raw_text", .string code)]
  | .codeBlockWithTitle title language code =>
    ("title", .string title) :: optionalField "language" .string language ++
      [("raw_text", .string code)]
  | .token className => [("class", .string className)]
  | .image url title => ("url", .string url) :: nonemptyField "title" title
  | .imageComponent url alt width height =>
    [("url", .string url), ("alt", .string alt)] ++
      optionalField "width" (fun n => .ofNat n.toNat) width ++
      optionalField "height" (fun n => .ofNat n.toNat) height
  | .link url title => ("url", .string url) :: nonemptyField "title" title
  | .list ordered start =>
    ("ordered", .bool ordered) :: optionalField "start" (fun n => .ofNat n.toNat) start
  | .listItem checked => optionalField "checked" .bool checked
  | .table alignments => [("alignments", .array (alignments.map alignJson))]
  | .tableCell header align =>
    ("header", .bool header) :: optionalField "align" (fun a => .string a.keyword) align
  | .html value => [("value", .string value)]
  | .footnoteReference label => [("label", .string label)]
  | .footnoteDefinition label => [("label", .string label)]
  | .footnoteCrossReference label ordinal =>
    [("label", .string label), ("ordinal", .ofNat ordinal.toNat)]
  | .brokenReference label => [("label", .string label)]
  | .inlineNote label => [("label", .string label)]
  | .footnoteItem label ordinal => [("label", .string label), ("ordinal", .ofNat ordinal.toNat)]
  | .section depth => [("depth", .ofNat depth.toNat)]
  | .expression name => [("name", .string name)]
  | .custom name attributes =>
    ("name", .string name) ::
      if attributes.isEmpty then []
      else [("attributes", .object (attributes.entries.map fun e => (e.1, .string e.2)))]
  | _ => []

mutual

/-- A tree as JSON. -/
def Node.toJson : Node → Json
  | ⟨kind, children⟩ =>
    .object (("type", .string kind.name) :: kind.fields ++
      match children with
      | [] => []
      | child :: rest => [("children", .array (child.toJson :: Node.toJsons rest))])

/-- Trees as JSON. -/
def Node.toJsons : List Node → List Json
  | [] => []
  | node :: rest => node.toJson :: Node.toJsons rest

end

/-! ### Reading kinds -/

/-- The names of all kinds. -/
def NodeKind.names : List String :=
  ["document", "heading", "paragraph", "text", "emphasis", "strong", "strikethrough",
    "inline-code", "code-block", "code-block-with-title", "token", "image", "image-component",
    "link", "block-quote", "list", "list-item", "table", "table-head", "table-body", "table-row",
    "table-cell", "thematic-break", "soft-break", "hard-break", "html", "footnote-reference",
    "footnote-definition", "footnote-cross-reference", "broken-reference", "inline-note",
    "footnote-list", "footnote-item", "section", "fragment", "expression", "custom"]

/-- Reads a number of 8 bits. -/
def readByte (value : Json) : Except ShapeError UInt8 :=
  (readBelow UInt8.size "u8" value).map UInt8.ofNat

/-- Reads a number of 32 bits. -/
def readSize (value : Json) : Except ShapeError UInt32 :=
  (readBelow UInt32.size "u32" value).map UInt32.ofNat

/-- Reads a start number of a list, a number of 64 bits. -/
def readStart (value : Json) : Except ShapeError UInt64 :=
  (readBelow UInt64.size "u64" value).map UInt64.ofNat

/-- Reads the ordinal of a footnote, a number of 64 bits. -/
def readOrdinal (value : Json) : Except ShapeError UInt64 :=
  (readBelow UInt64.size "usize" value).map UInt64.ofNat

/-- Reads an alignment. -/
def readAlign : Json → Except ShapeError Align :=
  readVariant [("left", .left), ("center", .center), ("right", .right)]

/-- Reads a map of texts. -/
def readAttributes : Json → Except ShapeError Attributes
  | .object fields => do
    let entries ← fields.mapM fun field => return (field.1, ← readString field.2)
    return .ofList entries
  | value => mistyped value "a map"

/-- A reader for a kind: the fields it knows, and the kind that it makes of them. -/
structure KindReader where
  checks : List (String × (Json → Except ShapeError Unit))
  make : List (String × Json) → Except ShapeError NodeKind

/-- The reader for a kind without attributes. -/
def KindReader.plain (kind : NodeKind) : KindReader :=
  ⟨[], fun _ => .ok kind⟩

/-- The reader for a kind with one text. -/
def KindReader.ofText (name : String) (make : String → NodeKind) : KindReader :=
  ⟨[(name, checked readString)], fun fields => return make (← required name readString fields)⟩

/-- The reader for a kind with a url and perhaps a title. -/
def KindReader.target (make : String → String → NodeKind) : KindReader :=
  ⟨[("url", checked readString), ("title", checked readString)], fun fields => do
    let url ← required "url" readString fields
    let title ← defaulted "title" "" readString fields
    return make url title⟩

/-- The reader for a kind with a footnote's label and ordinal. -/
def KindReader.numbered (make : String → UInt64 → NodeKind) : KindReader :=
  ⟨[("label", checked readString), ("ordinal", checked readOrdinal)], fun fields => do
    let label ← required "label" readString fields
    let ordinal ← required "ordinal" readOrdinal fields
    return make label ordinal⟩

/-- The reader for the kind with the given name. -/
def NodeKind.reader? : String → Option KindReader
  | "document" => some (.plain .document)
  | "heading" => some
    ⟨[("level", checked readByte), ("id", checked (readOptional readString))], fun fields => do
      let level ← required "level" readByte fields
      let id ← defaulted "id" none (readOptional readString) fields
      return .heading level id⟩
  | "paragraph" => some (.plain .paragraph)
  | "text" => some (.ofText "value" .text)
  | "emphasis" => some (.plain .emphasis)
  | "strong" => some (.plain .strong)
  | "strikethrough" => some (.plain .strikethrough)
  | "inline-code" => some (.ofText "value" .inlineCode)
  | "code-block" => some
    ⟨[("language", checked (readOptional readString)), ("meta", checked (readOptional readString)),
      ("raw_text", checked readString)], fun fields => do
      let language ← defaulted "language" none (readOptional readString) fields
      let info ← defaulted "meta" none (readOptional readString) fields
      let code ← required "raw_text" readString fields
      return .codeBlock language info code⟩
  | "code-block-with-title" => some
    ⟨[("title", checked readString), ("language", checked (readOptional readString)),
      ("raw_text", checked readString)], fun fields => do
      let title ← required "title" readString fields
      let language ← defaulted "language" none (readOptional readString) fields
      let code ← required "raw_text" readString fields
      return .codeBlockWithTitle title language code⟩
  | "token" => some (.ofText "class" .token)
  | "image" => some (.target .image)
  | "image-component" => some
    ⟨[("url", checked readString), ("alt", checked readString),
      ("width", checked (readOptional readSize)), ("height", checked (readOptional readSize))],
      fun fields => do
      let url ← required "url" readString fields
      let alt ← required "alt" readString fields
      let width ← defaulted "width" none (readOptional readSize) fields
      let height ← defaulted "height" none (readOptional readSize) fields
      return .imageComponent url alt width height⟩
  | "link" => some (.target .link)
  | "block-quote" => some (.plain .blockQuote)
  | "list" => some
    ⟨[("ordered", checked readBool), ("start", checked (readOptional readStart))], fun fields => do
      let ordered ← required "ordered" readBool fields
      let start ← defaulted "start" none (readOptional readStart) fields
      return .list ordered start⟩
  | "list-item" => some
    ⟨[("checked", checked (readOptional readBool))], fun fields =>
      return .listItem (← defaulted "checked" none (readOptional readBool) fields)⟩
  | "table" => some
    ⟨[("alignments", checked (readList (readOptional readAlign)))], fun fields =>
      return .table (← required "alignments" (readList (readOptional readAlign)) fields)⟩
  | "table-head" => some (.plain .tableHead)
  | "table-body" => some (.plain .tableBody)
  | "table-row" => some (.plain .tableRow)
  | "table-cell" => some
    ⟨[("header", checked readBool), ("align", checked (readOptional readAlign))], fun fields => do
      let header ← defaulted "header" false readBool fields
      let align ← defaulted "align" none (readOptional readAlign) fields
      return .tableCell header align⟩
  | "thematic-break" => some (.plain .thematicBreak)
  | "soft-break" => some (.plain .softBreak)
  | "hard-break" => some (.plain .hardBreak)
  | "html" => some (.ofText "value" .html)
  | "footnote-reference" => some (.ofText "label" .footnoteReference)
  | "footnote-definition" => some (.ofText "label" .footnoteDefinition)
  | "footnote-cross-reference" => some (.numbered .footnoteCrossReference)
  | "broken-reference" => some (.ofText "label" .brokenReference)
  | "inline-note" => some (.ofText "label" .inlineNote)
  | "footnote-list" => some (.plain .footnoteList)
  | "footnote-item" => some (.numbered .footnoteItem)
  | "section" => some
    ⟨[("depth", checked readByte)], fun fields =>
      return .section (← required "depth" readByte fields)⟩
  | "fragment" => some (.plain .fragment)
  | "expression" => some (.ofText "name" .expression)
  | "custom" => some
    ⟨[("name", checked readString), ("attributes", checked readAttributes)], fun fields => do
      let name ← required "name" readString fields
      let attributes ← defaulted "attributes" .empty readAttributes fields
      return .custom name attributes⟩
  | _ => none

/-- Reads the name of a kind, which may also be given as its number. -/
def NodeKind.readName : Json → Except ShapeError String
  | .string name =>
    if NodeKind.names.contains name then .ok name
    else .error (.unknownVariant name NodeKind.names)
  | .number (.int (.ofNat n)) =>
    match NodeKind.names[n]? with
    | some name => .ok name
    | none => .error (.invalidValue (describe (.ofNat n)) "variant index 0 <= i < 37")
  | value => mistyped value "variant identifier"

/-- Takes the name of the kind out of the fields of a node. -/
def NodeKind.splitType (name : Option String) :
    List (String × Json) → Except ShapeError (String × List (String × Json))
  | [] =>
    match name with
    | some name => .ok (name, [])
    | none => .error (.missingField "type")
  | (key, value) :: rest =>
    if key = "type" then
      match name with
      | some _ => .error (.duplicateField "type")
      | none => do splitType (some (← readName value)) rest
    else do
      let (name, others) ← splitType name rest
      return (name, (key, value) :: others)

/-- Reads a kind from the fields of a node other than its children. -/
def NodeKind.ofFields (fields : List (String × Json)) : Except ShapeError NodeKind := do
  let (name, others) ← splitType none fields
  match reader? name with
  | none => .error (.unknownVariant name names)
  | some reader =>
    checkFields reader.checks [] others
    reader.make others

/-! ### Reading trees -/

/-- Why a tree cannot be read. -/
inductive TreeError where
  /-- The text is not JSON. -/
  | text (reason : Break)
  /-- The value is not a tree; the place is where the faulty part ends. -/
  | shape (reason : ShapeError) (place : Place)

/-- The wording without the place. -/
def TreeError.cause : TreeError → String
  | .text reason => reason.fault.message
  | .shape reason _ => reason.message

/-- Where the fault is. -/
def TreeError.place : TreeError → Place
  | .text reason => reason.place
  | .shape _ place => place

/-- The wording with the place. -/
def TreeError.message (error : TreeError) : String :=
  error.cause ++ " at line " ++ toString error.place.line ++ " column " ++
    toString error.place.column

/-- Puts a fault of the data at a place. -/
def atPlace {α : Type} (place : Place) : Except ShapeError α → Except TreeError α
  | .ok value => .ok value
  | .error reason => .error (.shape reason place)

/-- The value of a field that is not read as a tree. A key may occur twice in it. -/
def eraseField (value : Located) : Except TreeError Json :=
  match value.unplaced with
  | .ok value => .ok value
  | .error reason => .error (.text reason)

/-- Passes on the end of a list or an object that was closed. -/
def closed : Except Break Place → Except TreeError Place
  | .ok place => .ok place
  | .error reason => .error (.text reason)

mutual

/-- Reads a tree. Faults are reported in the order in which the text is read: the children of a
node while its fields are read, its kind at its end. -/
def Node.ofLocated : Located → Except TreeError Node
  | .object _ fields close => do
    let (others, children) ← readNodeFields fields none
    let stop ← closed close
    let kind ← atPlace stop (NodeKind.ofFields others)
    return ⟨kind, children.getD []⟩
  | .array start _ _ => .error (.shape (.invalidType "sequence" "struct Node") start)
  | .scalar value stop => .error (.shape (.invalidType (describe value) "struct Node") stop)
  | .broken reason => .error (.text reason)

/-- Reads the fields of a node: the fields other than its children, and its children. -/
def readNodeFields : List (String × Place × Located) → Option (List Node) →
    Except TreeError (List (String × Json) × Option (List Node))
  | [], children => .ok ([], children)
  | (key, place, value) :: rest, children =>
    if key = "children" then
      match children with
      | some _ => .error (.shape (.duplicateField "children") place)
      | none => do
        let children ← readChildren value
        readNodeFields rest (some children)
    else do
      let value ← eraseField value
      let (others, children) ← readNodeFields rest children
      return ((key, value) :: others, children)

/-- Reads the children of a node. -/
def readChildren : Located → Except TreeError (List Node)
  | .array _ items close => do
    let children ← Node.ofLocateds items
    let _ ← closed close
    return children
  | .object start _ _ => .error (.shape (.invalidType "map" "a sequence") start)
  | .scalar value stop => .error (.shape (.invalidType (describe value) "a sequence") stop)
  | .broken reason => .error (.text reason)

/-- Reads trees. -/
def Node.ofLocateds : List Located → Except TreeError (List Node)
  | [] => .ok []
  | item :: rest => do
    let node ← Node.ofLocated item
    let nodes ← Node.ofLocateds rest
    return node :: nodes

end

/-- Reads a tree from a value. -/
def Node.ofJson (value : Json) : Except TreeError Node :=
  Node.ofLocated value.toLocated

/-- Reads a tree from a text that holds nothing else. -/
def Node.parse (text : String) : Except TreeError Node := do
  let (value, trailing) := locate usualDepth text.toList
  let node ← Node.ofLocated value
  match trailing with
  | some reason => .error (.text reason)
  | none => return node

/-- The text of a tree. -/
def Node.write (node : Node) : String :=
  node.toJson.write

end DocPress
