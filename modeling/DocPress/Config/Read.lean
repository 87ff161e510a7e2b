import DocPress.Config
import DocPress.Config.Setting
import DocPress.Stage.Json
import DocPress.Metadata.Json
import DocPress.Text.LetterCase

/-!
Reading a configuration out of settings. Settings have their types in a file; settings that also come
from the environment, where all is text, are turned into texts and truth values where these are
wanted. Either way the options of stages have their types already.
-/

namespace DocPress

open Json (ShapeError)
open Text (quoted)

/-- What is wrong with a setting. -/
inductive SettingFault where
  | shape (cause : ShapeError)
  /-- A value that cannot be turned into what is expected, with the source that it is from. -/
  | mistyped (found expected : String) (source : Option String)
  | noKeyword (type keyword : String)
  | notKeyword (type : String)
  deriving DecidableEq, Repr

/-- A fault and the path to the setting that is at fault. -/
structure SettingError where
  path : List SettingStep
  fault : SettingFault
  deriving DecidableEq, Repr

/-- The text of a path. A point stands in front of a key only where a key is behind it in the path,
and never next to a position. -/
def SettingStep.pathText : List SettingStep → List Char
  | [] => []
  | .key name :: rest =>
    let tail := pathText rest
    match tail with
    | [] | '[' :: _ => name.toList ++ tail
    | _ => name.toList ++ '.' :: tail
  | .index position :: rest =>
    '[' :: (toString position).toList ++ ']' :: pathText rest

namespace SettingError

/-- The wording of a fault at a place. -/
def message (error : SettingError) : String :=
  let at_ :=
    if error.path.isEmpty then ""
    else " for key " ++ Json.ticked (String.ofList (SettingStep.pathText error.path))
  match error.fault with
  | .shape cause => cause.message ++ at_
  | .mistyped found expected source =>
    "invalid type: " ++ found ++ ", expected " ++ expected ++ at_ ++
      match source with
      | some source => " in " ++ source
      | none => ""
  | .noKeyword type keyword =>
    "enum " ++ type ++ " does not have variant constructor " ++ keyword ++ at_
  | .notKeyword type =>
    "value of enum " ++ type ++
      " should be represented by either string or table with exactly one key" ++ at_

/-- Moves the place of a fault into the setting under a step. -/
def under (step : SettingStep) (error : SettingError) : SettingError :=
  { error with path := step :: error.path }

end SettingError

namespace Setting

/-- A fault of the setting itself. -/
def fault {α : Type} (fault : SettingFault) : Except SettingError α :=
  .error ⟨[], fault⟩

/-- The fault of a setting of another type than the expected one. -/
def unexpected {α : Type} (setting : Setting) (expected : String) : Except SettingError α :=
  fault (.shape (.invalidType setting.describe expected))

/-- How texts, truth values and keywords are read. -/
structure Typing where
  text : Setting → Except SettingError String
  flag : Setting → Except SettingError Bool
  /-- Reads a keyword out of those of a type. -/
  keyword : String → List String → Setting → Except SettingError String

/-- Whether nothing is in a list or a table. -/
def isEmptyGroup : Setting → Bool
  | .list [] _ | .table [] _ => true
  | _ => false

/-- Values have the types that are wanted. A keyword may stand as the only key of a table, over
nothing. -/
def typed : Typing where
  text
    | .text value _ => .ok value
    | setting => setting.unexpected "a string"
  flag
    | .flag value _ => .ok value
    | setting => setting.unexpected "a boolean"
  keyword _ names setting :=
    let pick (name : String) : Except SettingError String :=
      if names.contains name then .ok name else fault (.shape (.unknownVariant name names))
    match setting with
    | .text name _ => pick name
    | .table [(name, content)] _ =>
      if content.isEmptyGroup then pick name else content.unexpected "an empty table"
    | _ => setting.unexpected "string or table"

/-- The text of a value that is one. -/
def asText? : Setting → Option String
  | .text value _ => some value
  | .integer value _ => some (toString value)
  | .float value _ => (Toml.Value.float value).text?
  | .flag value _ => some (if value then "true" else "false")
  | _ => none

/-- The truth value that a word stands for, in any case. -/
def wordFlag? (word : String) : Option Bool :=
  if ["1", "true", "on", "yes"].contains word then some true
  else if ["0", "false", "off", "no"].contains word then some false
  else none

/-- Numbers and truth values are turned into texts, and numbers and words into truth values. -/
def converted : Typing where
  text setting :=
    match setting.asText? with
    | some value => .ok value
    | none => fault (.mistyped setting.describe "a string" setting.source?)
  flag
    | .flag value _ => .ok value
    | .integer value _ => .ok (value != 0)
    | .float value _ => .ok (value != 0)
    | .text value source =>
      let word := String.ofList (Text.toLower value.toList)
      match wordFlag? word with
      | some value => .ok value
      | none => fault (.mistyped ("string " ++ quoted word) "a boolean" source)
    | setting => fault (.mistyped setting.describe "a boolean" setting.source?)
  keyword type names setting :=
    let pick (name : String) : Except SettingError String :=
      if names.contains name then .ok name else fault (.noKeyword type name)
    match setting with
    | .text name _ => pick name
    | .table [(name, _)] _ => pick name
    | _ => fault (.notKeyword type)

/-! ### Groups of settings -/

/-- The settings under known names, in the order of the names. A list holds them in that order. -/
structure Group where
  /-- What the group is, in words. -/
  title : String
  names : List String
  entries : List (String × SettingStep × Setting)
  /-- The number of settings, for a group that is written as a list. -/
  length : Option Nat

/-- Items with their positions from a number on. -/
def numberedFrom (n : Nat) : List Setting → List (SettingStep × Setting)
  | [] => []
  | item :: rest => (.index n, item) :: numberedFrom (n + 1) rest

/-- The group in a setting. -/
def group (title : String) (names : List String) : Setting → Except SettingError Group
  | .table entries _ =>
    .ok ⟨title, names, entries.map fun entry => (entry.1, .key entry.1, entry.2), none⟩
  | .list items _ => .ok ⟨title, names, names.zip (numberedFrom 0 items), some items.length⟩
  | setting => setting.unexpected title

/-- Reads a setting of a group, if it is there. -/
def Group.read? {α : Type} (group : Group) (name : String)
    (read : Setting → Except SettingError α) : Except SettingError (Option α) :=
  match group.entries.find? (·.1 == name) with
  | some (_, step, setting) => ((read setting).mapError (·.under step)).map some
  | none => .ok none

/-- Takes what was read for a setting that must be there. -/
def Group.demand {α : Type} (group : Group) (name : String) :
    Option α → Except SettingError α
  | some value => .ok value
  | none =>
    match group.length with
    | none => fault (.shape (.missingField name))
    | some length =>
      fault (.shape (.invalidLength length
        (group.title ++ " with " ++ Json.Record.counted group.names.length "element")))

/-- Reads settings at steps, one after the other. -/
def readEach {α : Type} (read : Setting → Except SettingError α) :
    List (SettingStep × Setting) → Except SettingError (List α)
  | [] => .ok []
  | (step, setting) :: rest => do
    let first ← (read setting).mapError (·.under step)
    return first :: (← readEach read rest)

/-- Reads the items of a list. -/
def readList {α : Type} (read : Setting → Except SettingError α) :
    Setting → Except SettingError (List α)
  | .list items _ => readEach read (numberedFrom 0 items)
  | setting => setting.unexpected "a sequence"

/-- Reads the entries of a table. -/
def readCatalog {α : Type} (read : Setting → Except SettingError α) :
    Setting → Except SettingError (Catalog α)
  | .table entries _ => do
    let values ← readEach read (entries.map fun entry => (.key entry.1, entry.2))
    return .ofList ((entries.map (·.1)).zip values)
  | setting => setting.unexpected "a map"

/-- Reads a value that may be absent. -/
def readOptional {α : Type} (read : Setting → Except SettingError α) :
    Setting → Except SettingError (Option α)
  | .absent => .ok none
  | setting => (read setting).map some

end Setting

/-! ### The parts of a configuration -/

open Setting (Typing group readList readCatalog readOptional)

/-- A keyword out of a table of keywords. -/
def Setting.pick {α : Type} (typing : Typing) (type : String) (all : List (String × α))
    (setting : Setting) : Except SettingError α := do
  let word ← typing.keyword type (all.map (·.1)) setting
  match all.find? (·.1 == word) with
  | some entry => return entry.2
  | none => Setting.fault (.noKeyword type word)

/-- Reads the declaration of a field. -/
def FieldSpec.ofSetting (typing : Typing) (setting : Setting) : Except SettingError FieldSpec := do
  let group ← group "struct FieldSpec" ["name", "type", "required"] setting
  let name ← group.read? "name" typing.text
  let type ← group.read? "type" (Setting.pick typing "FieldType" FieldType.all)
  let required ← group.read? "required" typing.flag
  return ⟨← group.demand "name" name, ← group.demand "type" type, required.getD false⟩

/-- Reads a stage. A fault of its name is under the name, any other one under the stage. -/
def Stage.ofSetting (setting : Setting) : Except SettingError Stage :=
  let shaped (path : List SettingStep) {α : Type} :
      Except ShapeError α → Except SettingError α
    | .ok value => .ok value
    | .error cause => .error ⟨path, .shape cause⟩
  match setting with
  | .table entries _ =>
    match entries.find? (·.1 == "stage") with
    | some (_, .text name _) => do
      let name ← shaped [.key "stage"] (Stage.readName (.string name))
      shaped [] (Stage.ofOptions name
        (.object (Setting.toJsonFields (entries.filter (·.1 != "stage")))))
    | some (_, other) => .error ⟨[.key "stage"],
        .shape (.invalidType other.describe "variant identifier")⟩
    | none => shaped [] (.error (.missingField "stage"))
  | .list (.text name _ :: rest) _ => do
    let name ← shaped [.index 0] (Stage.readName (.string name))
    shaped [] (Stage.ofOptions name (.array (Setting.toJsons rest)))
  | .list (other :: _) _ => .error ⟨[.index 0],
      .shape (.invalidType other.describe "variant identifier")⟩
  | .list [] _ => shaped [] (.error (.missingField "stage"))
  | other => other.unexpected "internally tagged enum StageConfig"

/-- Reads a backend. -/
def Backend.ofSetting (typing : Typing) (setting : Setting) : Except SettingError Backend := do
  let group ← group "struct BackendConfig" ["strategy", "strict_metadata", "pre", "post"] setting
  let strategy ← group.read? "strategy" (Setting.pick typing "CompileStrategy" Strategy.all)
  let strict ← group.read? "strict_metadata" (readOptional typing.flag)
  let pre ← group.read? "pre" (readList Stage.ofSetting)
  let post ← group.read? "post" (readList Stage.ofSetting)
  return ⟨← group.demand "strategy" strategy, strict.getD none, pre.getD [], post.getD []⟩

/-- Reads a configuration. What it does not say is as in the default configuration. -/
def Config.ofSetting (typing : Typing) (setting : Setting) : Except SettingError Config := do
  let root ← group "struct Config" ["content", "cache", "metadata", "backends"] setting
  let backends ← root.read? "backends" (readCatalog (Backend.ofSetting typing))
  let cacheDir ← root.read? "cache" fun setting => do
    let cache ← group "struct CacheConfig" ["dir"] setting
    cache.read? "dir" typing.text
  let content ← root.read? "content" fun setting => do
    let content ← group "struct ContentConfig" ["dir", "extension"] setting
    return (← content.read? "dir" typing.text, ← content.read? "extension" typing.text)
  let metadata ← root.read? "metadata" fun setting => do
    let metadata ← group "struct MetadataConfig" ["strict", "fields"] setting
    return (← metadata.read? "strict" typing.flag,
      ← metadata.read? "fields" (readList (FieldSpec.ofSetting typing)))
  let base := Config.default
  return {
    contentDir := (content.bind (·.1)).getD base.contentDir
    extension := (content.bind (·.2)).getD base.extension
    cacheDir := (cacheDir.bind id).getD base.cacheDir
    strictMetadata := (metadata.bind (·.1)).getD base.strictMetadata
    fields := (metadata.bind (·.2)).getD base.fields
    backends := backends.getD base.backends }

end DocPress
