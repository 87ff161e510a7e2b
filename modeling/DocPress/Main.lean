import DocPress.Command.Files

/-!
The program. It loads the files that its command line is about, performs the command on them, makes the
changes on the disk and prints what there is to print. All that is decided is decided elsewhere.
-/

namespace DocPress.Program

/-- The path of a place on the disk. -/
def diskPath (place : Location) : String :=
  "/" ++ "/".intercalate (place.map String.ofList)

/-- The result of an action, if it does not fail. -/
def attempt {α : Type} (action : IO α) : IO (Option α) := do
  try
    return some (← action)
  catch _ =>
    return none

/-- The names in the directory at a place, if there is one. -/
def namesAt? (place : Location) : IO (Option (List (List Char))) := do
  let top ← IO.currentDir
  let found ← attempt (top / diskPath place).readDir
  return found.map fun entries => entries.toList.map (·.fileName.toList)

/-- Loads what there is at a place, without what is below it. -/
def loadAt (files : FileTree) (place : Location) : IO FileTree := do
  if (← namesAt? place).isSome then
    return files.set place .directory
  match ← attempt (IO.FS.readBinFile (diskPath place)) with
  | some bytes => return files.set place (.file (.ofBytes bytes.toList))
  | none => return files

/-- Loads what there is at a place and below it. -/
partial def loadBelow (files : FileTree) (place : Location) : IO FileTree := do
  let files ← loadAt files place
  let names := (← namesAt? place).getD []
  names.foldlM (fun files name => loadBelow files (place ++ [name])) files

/-- Loads what there is on the way to where a path leads. -/
def loadWay (files : FileTree) (path : List Char) : IO FileTree :=
  (files.placesOnWay path).foldlM loadAt files

/-- Loads what there is on the way to where a path leads, and below that. -/
def loadAll (files : FileTree) (path : List Char) : IO FileTree := do
  let way ← loadWay files path
  (files.placesOnWay path).getLast?.elim (pure way) (loadBelow way)

/-- Writes a file, so that at no time there is a part of it. -/
def writeWhole (path : String) (bytes : ByteArray) : IO Unit := do
  let draft := path ++ ".draft"
  IO.FS.writeBinFile draft bytes
  IO.FS.rename draft path

/-- Makes a change on the disk. -/
def perform : FileChange → IO Unit
  | .makeDirectory place => IO.FS.createDirAll (diskPath place)
  | .write place (.text value) => writeWhole (diskPath place) value.toUTF8
  | .write place (.binary bytes) => writeWhole (diskPath place) ⟨bytes.toArray⟩
  | .remove place => IO.FS.removeFile (diskPath place)

/-- The variables of the environment. -/
def assignments : IO (List (String × String)) := do
  let bytes := (← attempt (IO.FS.readBinFile "/proc/self/environ")).getD .empty
  let text := (FileContent.ofBytes bytes.toList).anyText.toList
  return (Text.splitOn (· = '\x00') text).filterMap fun assignment =>
    match assignment.span (· ≠ '=') with
    | (name, _ :: value) => some (String.ofList name, String.ofList value)
    | _ => none

/-- The tree in which only the working directory is known. -/
def emptyTree : IO FileTree := do
  let path := (← IO.currentDir).toString.toList
  let names := (Path.parts path).filterMap fun part =>
    match part with
    | .name text => some text
    | _ => none
  return { entries := [], workingDirectory := names }

/-- Does what a command line asks for, and gives the status to end with. -/
def run (words : List String) : IO UInt32 := do
  let start ← IO.monoMsNow
  let invocation := Invocation.ofWords words
  let assignments ← assignments
  let files ← invocation.configPaths.foldlM loadWay (← emptyTree)
  let files ← (invocation.directoryPaths assignments files).foldlM loadAll files
  let (after, outcome) := invocation.perform assignments files
  (files.changes after).forM perform
  let elapsed := elapsedLine ((← IO.monoMsNow) - start)
  (← IO.getStdout).putStr (outcome.text (some elapsed))
  (← IO.getStderr).putStr outcome.reportText
  return outcome.status.toUInt32

end DocPress.Program

/-- Runs the program with the words of its command line. -/
def main (words : List String) : IO UInt32 :=
  DocPress.Program.run words
