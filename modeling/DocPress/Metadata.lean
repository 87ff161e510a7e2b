import DocPress.Fields
import DocPress.Date
import DocPress.Json.Value

/-!
Metadata of documents: typed values under names, in the order of the header.
-/

namespace DocPress

/-- A value of metadata. -/
inductive MetaValue where
  | text (value : String)
  | date (value : Instant)
  | flag (value : Bool)
  | list (items : List String)
  deriving DecidableEq

namespace MetaValue

/-- The text, if the value is one. -/
def text? : MetaValue → Option String
  | .text value => some value
  | _ => none

/-- The date, if the value is one. -/
def date? : MetaValue → Option Instant
  | .date value => some value
  | _ => none

/-- The word for a truth value. -/
def flagWord (value : Bool) : String :=
  if value then "true" else "false"

/-- The value as it is shown in a page. -/
def display : MetaValue → String
  | .text value => value
  | .date value => value.display
  | .flag value => flagWord value
  | .list items => ", ".intercalate items

/-- The value as JSON, where a date is a text. -/
def toJson : MetaValue → Json
  | .text value => .string value
  | .date value => .string value.format
  | .flag value => .bool value
  | .list items => .ofTexts items

end MetaValue

/-- The metadata of a document. -/
abbrev Metadata := Fields MetaValue

namespace Metadata

/-- The text under a name, if there is one. -/
def text? (name : String) (metadata : Metadata) : Option String :=
  (metadata.get? name).bind MetaValue.text?

/-- The title. -/
def title? (metadata : Metadata) : Option String :=
  metadata.text? "title"

/-- The fields of a JSON object. -/
def toJsonFields (metadata : Metadata) : List (String × Json) :=
  metadata.entries.map fun entry => (entry.1, entry.2.toJson)

/-- Metadata as a JSON object. -/
def toJson (metadata : Metadata) : Json :=
  .object metadata.toJsonFields

end Metadata

end DocPress
