import DocPress.Path

/-!
Identifiers of documents and the paths of their files.
-/

namespace DocPress

namespace Identifier

/-- Why there is no path for an identifier. -/
structure Invalid where
  identifier : String
  deriving DecidableEq, Repr

/-- The wording of the error. -/
def Invalid.message (error : Invalid) : String :=
  "Invalid document identifier '" ++ error.identifier ++ "'"

/-- A text without slashes at its ends. -/
def trimSlashes (text : List Char) : List Char :=
  Text.dropEndWhile (· = '/') (text.dropWhile (· = '/'))

/-- The identifier of a file below `root`: its path without the extension. A file called `index`
stands for the directory around it. -/
def ofPath? (root path : List Char) : Option (List Char) :=
  let path := (Path.stripRoot? root path).getD path
  (Path.stem? path).bind fun stem =>
    let parent := Path.parent path
    let text :=
      if parent.isEmpty then stem
      else if stem = "index".toList then parent
      else parent ++ '/' :: stem
    let text := trimSlashes (text.map fun c => if c = '\\' then '/' else c)
    if text.isEmpty then none else some text

/-- The path of an identifier with an extension. -/
def fileOf (identifier extension : List Char) : List Char :=
  identifier ++ '.' :: extension

/-- The path of an identifier below a directory, if it does not lead out of it. -/
def toPath (identifier extension : List Char) : Except Invalid (List Char) :=
  let path := fileOf identifier extension
  if identifier.isEmpty || identifier.head? = some '/' || identifier.contains '\\' ||
      !(Path.parts path).all Path.isName then
    .error ⟨String.ofList identifier⟩
  else .ok path

end Identifier

end DocPress
