import DocPress.Config.Read
import DocPress.Toml.Document

/-!
Loading a configuration: from a file alone, or from a file and from variables of the environment that
go over what the file says. A variable names a setting by the keys that lead to it, with two
underscores between them.
-/

namespace DocPress

/-- Why no configuration can be loaded. -/
inductive ConfigError where
  | refused (fault : ConfigFault)
  /-- A file that cannot be read, by the place of the fault as a line and a column. -/
  | text (line column : Nat)
  | setting (error : SettingError)
  /-- A failure of the file system. -/
  | files (reason : String)
  deriving DecidableEq, Repr

namespace ConfigError

/-- The wording of the cause of an error, if it is apart from the error. -/
def cause? : ConfigError → Option String
  | .refused _ => none
  | .text line column =>
    some ("TOML parse error at line " ++ toString line ++ ", column " ++ toString column)
  | .setting error => some error.message
  | .files reason => some reason

/-- The wording of an error. -/
def message (error : ConfigError) : String :=
  match error with
  | .refused fault => fault.message
  | .files reason => "IO error: " ++ reason
  | _ => "Config crate error: " ++ error.cause?.getD ""

end ConfigError

namespace Config

/-- The configuration in settings, if a site can be built with it. -/
def checked (config : Config) : Except ConfigError Config :=
  match config.validate with
  | .ok () => .ok config
  | .error fault => .error (.refused fault)

/-- The configuration in the text of a file of the given name. -/
def parse (fileName text : String) : Except ConfigError Config :=
  match Toml.parse text with
  | .error _ => .error (.refused (.unreadable fileName))
  | .ok entries =>
    let setting := Setting.ofToml false none (.table entries)
    match Config.ofSetting Setting.typed setting with
    | .error _ => .error (.refused (.unreadable fileName))
    | .ok config => config.checked

/-- What the names of variables for settings start with. -/
def variableStart : List Char :=
  "folio__".toList

/-- A name with a point for every two underscores. -/
def pointed : List Char → List Char
  | '_' :: '_' :: rest => '.' :: pointed rest
  | c :: rest => c :: pointed rest
  | [] => []

/-- The setting that a variable is for, if it is for one. The case of its name does not count. -/
def settingOf? (assignment : String × String) : Option (String × Setting) :=
  let name := Text.toLower assignment.1.toList
  if variableStart.isPrefixOf name then
    some (String.ofList (pointed (name.drop variableStart.length)),
      .text assignment.2 (some "the environment"))
  else none

/-- The settings in a file that there may be. -/
def fileSettings : Option (String × String) → Except ConfigError (List (String × Setting))
  | none => .ok []
  | some (fileName, text) =>
    match Toml.parse text with
    | .error fault =>
      let (line, column) := fault.position text
      .error (.text line column)
    | .ok entries => .ok (Setting.ofTomlEntries true (some fileName) entries)

/-- The configuration in a file, given by its name and its text, and in variables. -/
def ofLayers (file : Option (String × String)) (assignments : List (String × String)) :
    Except ConfigError Config := do
  let entries ← fileSettings file
  let setting := (Setting.table [] none).putAll (entries ++ assignments.filterMap settingOf?)
  match Config.ofSetting Setting.converted setting with
  | .error error => .error (.setting error)
  | .ok config => config.checked

end Config

end DocPress
