import DocPress.Path

/-!
Trees of files. A path leads from the working directory, or from the top if it starts with a slash,
part by part through directories. Reading never changes a tree, and writing gives a new one.
-/

namespace DocPress

/-- The content of a file. -/
inductive FileContent where
  | text (value : String)
  /-- Bytes that are no text in UTF-8. -/
  | binary (bytes : List UInt8)
  deriving DecidableEq

/-- The content with the given bytes. -/
def FileContent.ofBytes (bytes : List UInt8) : FileContent :=
  match String.fromUTF8? ⟨bytes.toArray⟩ with
  | some value => .text value
  | none => .binary bytes

namespace FileContent

/-- The number of bytes of the character that bytes start with. -/
def charLength? (bytes : List UInt8) : Option Nat :=
  [1, 2, 3, 4].find? fun count =>
    count ≤ bytes.length && (String.fromUTF8? ⟨(bytes.take count).toArray⟩).isSome

/-- The number of bytes, at least one, that bytes which start with no character share with the start
of one. -/
def brokenLength (bytes : List UInt8) : Nat :=
  let canGoOn (count : Nat) : Bool :=
    [1, 2].any fun missing =>
      charLength? (bytes.take count ++ List.replicate missing 128) = some (count + missing)
  ([3, 2].find? fun count => count ≤ bytes.length && canGoOn count).getD 1

/-- The text of bytes, with a replacement character for what is none; `fuel` bounds the number of
characters. -/
def decode : Nat → List UInt8 → List Char
  | 0, _ => []
  | _, [] => []
  | fuel + 1, bytes =>
    match charLength? bytes with
    | some count =>
      ((String.fromUTF8? ⟨(bytes.take count).toArray⟩).getD "").toList ++
        decode fuel (bytes.drop count)
    | none => '\uFFFD' :: decode fuel (bytes.drop (brokenLength bytes))

/-- A content as a text, whatever it is. -/
def anyText : FileContent → String
  | .text value => value
  | .binary bytes => String.ofList (decode bytes.length bytes)

end FileContent

/-- What there is at a place of a tree. -/
inductive FileEntry where
  | directory
  | file (content : FileContent)
  deriving DecidableEq

/-- A place in a tree: the names on the way from the top. -/
abbrev Location := List (List Char)

/-- Files and directories at their places, and the working directory. The top and the working
directory are always there. -/
structure FileTree where
  entries : List (Location × FileEntry)
  workingDirectory : Location := []

/-- Why a path cannot be used as wanted. -/
inductive FileFault where
  | noEntry
  | notDirectory
  | isDirectory
  | exists
  | nameTooLong
  /-- A path with a null character, where a name is looked up. -/
  | nullInName
  /-- A path with a null character, where a file is to be placed. -/
  | invalidArgument
  /-- A file that is no text. -/
  | notText
  deriving DecidableEq, Repr

/-- The wording of a fault. -/
def FileFault.message : FileFault → String
  | .noEntry => "No such file or directory (os error 2)"
  | .notDirectory => "Not a directory (os error 20)"
  | .isDirectory => "Is a directory (os error 21)"
  | .exists => "File exists (os error 17)"
  | .nameTooLong => "File name too long (os error 36)"
  | .nullInName => "file name contained an unexpected NUL byte"
  | .invalidArgument => "Invalid argument (os error 22)"
  | .notText => "stream did not contain valid UTF-8"

namespace FileTree

/-- The tree without files. -/
def empty : FileTree := { entries := [] }

/-- What there is at a place. -/
def entry? (tree : FileTree) (place : Location) : Option FileEntry :=
  if place.isPrefixOf tree.workingDirectory then some .directory
  else (tree.entries.find? (·.1 = place)).map (·.2)

/-- The tree with an entry at a place. -/
def set (tree : FileTree) (place : Location) (entry : FileEntry) : FileTree :=
  { tree with entries := tree.entries.filter (·.1 ≠ place) ++ [(place, entry)] }

/-- The tree without what is at a place and below it. -/
def erase (tree : FileTree) (place : Location) : FileTree :=
  { tree with entries := tree.entries.filter (!place.isPrefixOf ·.1) }

/-! ### Where paths lead -/

/-- The largest number of bytes in a name. -/
def longestName : Nat := 255

/-- Where a part of a path leads from a place. -/
def step (place : Location) : PathPart → Except FileFault Location
  | .root => .ok []
  | .here => .ok place
  | .up => .ok place.dropLast
  | .name text =>
    if longestName < (String.ofList text).utf8ByteSize then .error .nameTooLong
    else .ok (place ++ [text])

/-- Checks that there is a directory at a place. -/
def requireDirectory (tree : FileTree) (place : Location) : Except FileFault Unit :=
  match tree.entry? place with
  | some .directory => .ok ()
  | some (.file _) => .error .notDirectory
  | none => .error .noEntry

/-- Where parts of a path lead from a place. All parts but the last lead to directories. -/
def follow (tree : FileTree) : Location → List PathPart → Except FileFault Location
  | place, [] => .ok place
  | place, part :: rest => do
    tree.requireDirectory place
    tree.follow (← step place part) rest

/-- Whether a path asks for a directory by the way it ends. -/
def asksForDirectory (path : List Char) : Bool :=
  match (Text.splitOn Path.isSeparator path).getLast? with
  | some last => last.isEmpty || last = ['.']
  | none => false

/-- The place that a path leads to. The last part need not be there. -/
def locate (tree : FileTree) (path : List Char) : Except FileFault Location := do
  if path.contains '\x00' then throw .nullInName
  if path.isEmpty then throw .noEntry
  let place ← tree.follow tree.workingDirectory (Path.parts path)
  if asksForDirectory path then tree.requireDirectory place
  return place

/-- What there is at a path. -/
def look (tree : FileTree) (path : List Char) : Except FileFault FileEntry := do
  match tree.entry? (← tree.locate path) with
  | some entry => return entry
  | none => throw .noEntry

/-- Whether there is a file at a path. -/
def isFile (tree : FileTree) (path : List Char) : Bool :=
  match tree.look path with
  | .ok (.file _) => true
  | _ => false

/-! ### Reading -/

/-- The content of the file at a path. -/
def read (tree : FileTree) (path : List Char) : Except FileFault FileContent := do
  match ← tree.look path with
  | .file content => return content
  | .directory => throw .isDirectory

/-- The text of the file at a path. -/
def readText (tree : FileTree) (path : List Char) : Except FileFault String := do
  match ← tree.read path with
  | .text value => return value
  | .binary _ => throw .notText

/-- The names on the way from one place to another below it. -/
def namesBelow? (top place : Location) : Option (List (List Char)) :=
  if top.isPrefixOf place then some (place.drop top.length) else none

/-- The path of a place below a directory that a path leads to. -/
def pathBelow (path : List Char) (names : List (List Char)) : List Char :=
  names.foldl Path.within path

/-- The paths of the files at a path and below it. -/
def filesBelow (tree : FileTree) (path : List Char) : Except FileFault (List (List Char)) := do
  let top ← tree.locate path
  match tree.entry? top with
  | none => throw .noEntry
  | some (.file _) => return [path]
  | some .directory =>
    return tree.entries.filterMap fun (place, entry) =>
      match entry with
      | .file _ => (namesBelow? top place).map (pathBelow path)
      | .directory => none

/-! ### Writing -/

/-- Makes the directories on the way through parts of a path, from a place on. Those that were made
before a failure stay. -/
def makeWay : FileTree → Location → List PathPart → FileTree × Except FileFault Unit
  | tree, _, [] => (tree, .ok ())
  | tree, place, part :: rest =>
    match step place part with
    | .error fault => (tree, .error fault)
    | .ok next =>
      match tree.entry? next with
      | some .directory => makeWay tree next rest
      | some (.file _) => (tree, .error (if rest.isEmpty then .exists else .notDirectory))
      | none => makeWay (tree.set next .directory) next rest

/-- Makes the directory at a path, and those on the way to it. -/
def makeDirectories (tree : FileTree) (path : List Char) : FileTree × Except FileFault Unit :=
  if path.contains '\x00' then (tree, .error .nullInName)
  else makeWay tree tree.workingDirectory (Path.parts path)

/-- Places a file at a path, instead of one that is there. -/
def place (tree : FileTree) (path : List Char) (content : FileContent) :
    Except FileFault FileTree := do
  if path.contains '\x00' then throw .invalidArgument
  let place ← tree.locate path
  match tree.entry? place with
  | some .directory => throw .isDirectory
  | _ => return tree.set place (.file content)

/-- Removes the file at a path. -/
def removeFile (tree : FileTree) (path : List Char) : Except FileFault FileTree := do
  let place ← tree.locate path
  match tree.entry? place with
  | some (.file _) => return tree.erase place
  | some .directory => throw .isDirectory
  | none => throw .noEntry

end FileTree

end DocPress
