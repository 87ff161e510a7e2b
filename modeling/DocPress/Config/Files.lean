import DocPress.Config.Load
import DocPress.FileTree

/-!
Configurations in files. A configuration is in the file of the given path or, if there is none, in the
one with the extension `toml` put to its end. There need not be any.
-/

namespace DocPress.Config

/-- The path of a file as it is called in messages. -/
def calledPath (path : List Char) : List Char :=
  Path.join ((Path.parts path).filterMap fun part =>
    match part with
    | .name text => some text
    | .up => some ['.', '.']
    | .root => some []
    | .here => none)

/-- The extension of files of configurations. -/
def fileExtension : List Char :=
  "toml".toList

/-- The path of the file for a path, if there is one that can be a configuration. -/
def filePath? (files : FileTree) (path : List Char) : Option (List Char) :=
  if files.isFile path then
    if Path.extension? path = some fileExtension then some path else none
  else
    let path := Text.dropEndWhile (· = '/') path ++ '.' :: fileExtension
    if files.isFile path then some path else none

/-- The name and the text of the file for a path, if there is one. -/
def fileAt? (files : FileTree) (path : List Char) : Option (String × String) := do
  let path ← filePath? files path
  match files.read path with
  | .ok content =>
    some (String.ofList (calledPath path),
      String.ofList (Text.withoutMark content.anyText.toList))
  | .error _ => none

/-- The configuration in the file for a path and in variables. -/
def ofFiles (files : FileTree) (path : String) (assignments : List (String × String)) :
    Except ConfigError Config :=
  ofLayers (fileAt? files path.toList) assignments

end DocPress.Config
