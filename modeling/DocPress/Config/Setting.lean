import DocPress.Json.Shape
import DocPress.Toml.Value

/-!
Settings: values that have no type yet, put together from a file and from the environment. A path
leads from a table to a value in it through keys and through positions in lists.
-/

namespace DocPress

/-- A setting. Each knows the name of its source, apart from what was made on the way to another. -/
inductive Setting where
  | absent
  | text (value : String) (source : Option String)
  | integer (value : Int) (source : Option String)
  | float (value : Float) (source : Option String)
  | flag (value : Bool) (source : Option String)
  | list (items : List Setting) (source : Option String)
  | table (entries : List (String × Setting)) (source : Option String)
  deriving Inhabited

/-- A step into a setting. A negative position counts from the end of a list. -/
inductive SettingStep where
  | key (name : String)
  | index (position : Int)
  deriving DecidableEq, Repr

namespace Setting

/-- The name of the source. -/
def source? : Setting → Option String
  | .absent => none
  | .text _ source | .integer _ source | .float _ source | .flag _ source | .list _ source
  | .table _ source => source

mutual

/-- The setting that a value of a file is. A date is a text if `datesAreTexts` says so, and otherwise
a table with one entry that is no setting. -/
def ofToml (datesAreTexts : Bool) (source : Option String) : Toml.Value → Setting
  | .string value => .text value source
  | .integer value => .integer value source
  | .float value => .float value source
  | .boolean value => .flag value source
  | .moment value =>
    if datesAreTexts then .text value.text source
    else .table [("date-time", .text value.text source)] source
  | .array items => .list (ofTomlItems datesAreTexts source items) source
  | .table entries => .table (ofTomlEntries datesAreTexts source entries) source

/-- The settings that the items of an array are. -/
def ofTomlItems (datesAreTexts : Bool) (source : Option String) : List Toml.Value → List Setting
  | [] => []
  | item :: rest => ofToml datesAreTexts source item :: ofTomlItems datesAreTexts source rest

/-- The settings that the entries of a table are. -/
def ofTomlEntries (datesAreTexts : Bool) (source : Option String) :
    List (String × Toml.Value) → List (String × Setting)
  | [] => []
  | (key, value) :: rest =>
    (key, ofToml datesAreTexts source value) :: ofTomlEntries datesAreTexts source rest

end

mutual

/-- A setting as JSON. -/
def toJson : Setting → Json
  | .absent => .null
  | .text value _ => .string value
  | .integer value _ => .number (.int value)
  | .float value _ => .number (.float value)
  | .flag value _ => .bool value
  | .list items _ => .array (toJsons items)
  | .table entries _ => .object (toJsonFields entries)

/-- Settings as JSON. -/
def toJsons : List Setting → List Json
  | [] => []
  | item :: rest => item.toJson :: toJsons rest

/-- The entries of a table as JSON. -/
def toJsonFields : List (String × Setting) → List (String × Json)
  | [] => []
  | (key, value) :: rest => (key, value.toJson) :: toJsonFields rest

end

/-- What a setting is, in words. -/
def describe : Setting → String
  | .absent => "unit value"
  | setting => setting.toJson.describe

/-! ### Putting settings together -/

/-- Changes the entry of a name, which is absent at first. -/
def changeEntry (name : String) (change : Setting → Setting) :
    List (String × Setting) → List (String × Setting)
  | [] => [(name, change .absent)]
  | entry :: rest =>
    if entry.1 = name then (name, change entry.2) :: rest
    else entry :: changeEntry name change rest

/-- Changes what is under a key; what is no table becomes one. -/
def changeKey (name : String) (change : Setting → Setting) : Setting → Setting
  | .table entries source => .table (changeEntry name change entries) source
  | _ => .table [(name, change .absent)] none

/-- Changes what is at a position; what is no list becomes one, and a list becomes long enough. -/
def changeIndex (position : Int) (change : Setting → Setting) (setting : Setting) : Setting :=
  let (items, source) := match setting with
    | .list items source => (items, source)
    | _ => ([], none)
  let fromEnd := items.length + position
  if 0 ≤ position then
    let items := items ++ List.replicate (position.toNat + 1 - items.length) Setting.absent
    .list (items.modify position.toNat change) source
  else if 0 ≤ fromEnd then .list (items.modify fromEnd.toNat change) source
  else
    .list ((List.replicate fromEnd.natAbs Setting.absent ++ items).modify 0 change) source

/-- Changes what is at the end of a path. -/
def change : List SettingStep → (Setting → Setting) → Setting → Setting
  | [], f, setting => f setting
  | .key name :: rest, f, setting => changeKey name (change rest f) setting
  | .index position :: rest, f, setting => changeIndex position (change rest f) setting

mutual

/-- Puts a setting over another one: the entries of a table go over those that are there, and
anything else takes the place of what is there. -/
def onTop : Setting → Setting → Setting
  | .table entries _, below =>
    let base := match below with
      | .table entries source => .table entries source
      | _ => .table [] none
    entriesOver entries base
  | setting, _ => setting

/-- Puts entries over those of a table. -/
def entriesOver : List (String × Setting) → Setting → Setting
  | [], below => below
  | (key, value) :: rest, below => entriesOver rest (changeKey key (onTop value) below)

end

/-! ### Paths -/

/-- Whether the character may stand in a key of a path. -/
def isKeyChar (c : Char) : Bool :=
  c.isAlphanum || c = '_' || c = '-'

/-- Takes a key of a path. -/
def takeKey (text : List Char) : Option (String × List Char) :=
  let name := text.takeWhile isKeyChar
  if name.isEmpty then none else some (String.ofList name, text.dropWhile isKeyChar)

/-- Whether the character may stand around a position. -/
def isSpace (c : Char) : Bool :=
  c = ' ' || c = '\t'

/-- Takes a position and the bracket behind it. -/
def takePosition (text : List Char) : Option (Int × List Char) :=
  let text := text.dropWhile isSpace
  let (negative, text) := match text with
    | '-' :: rest => (true, rest)
    | _ => (false, text)
  let digits := text.takeWhile Char.isDigit
  let size : Nat := digits.foldl (fun n c => 10 * n + (c.toNat - 48)) 0
  match (text.dropWhile Char.isDigit).dropWhile isSpace with
  | ']' :: rest =>
    if digits.isEmpty || 1 <<< 63 ≤ (if negative then size - 1 else size) then none
    else some (if negative then -(size : Int) else size, rest)
  | _ => none

/-- Takes the steps of a path after the first one. -/
def takeSteps : Nat → List Char → Option (List SettingStep)
  | _, [] => some []
  | 0, _ => none
  | fuel + 1, '.' :: rest => do
    let (name, rest) ← takeKey rest
    return .key name :: (← takeSteps fuel rest)
  | fuel + 1, '[' :: rest => do
    let (position, rest) ← takePosition rest
    return .index position :: (← takeSteps fuel rest)
  | _, _ => none

/-- Reads a path. -/
def readPath? (text : List Char) : Option (List SettingStep) := do
  let (name, rest) ← takeKey text
  return .key name :: (← takeSteps rest.length rest)

/-- Puts a setting at the place that a text names: the end of a path, or a single key if the text is
no path. -/
def put (setting : Setting) (name : String) (value : Setting) : Setting :=
  change ((readPath? name.toList).getD [.key name]) (onTop value) setting

/-- Puts settings over others, one after the other. -/
def putAll (entries : List (String × Setting)) (setting : Setting) : Setting :=
  entries.foldl (fun setting entry => setting.put entry.1 entry.2) setting

end Setting

end DocPress
