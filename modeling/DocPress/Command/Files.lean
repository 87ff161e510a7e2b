import DocPress.Command.Run

/-!
What a command line has to do with a disk: which paths it is about, and which changes make one tree of
files into another. A program that loads those paths, performs the command on the tree and then makes
the changes has done to the disk what the command does to the tree.
-/

namespace DocPress

/-- The paths where the configuration of a command line may be. -/
def Invocation.configPaths : Invocation → List (List Char)
  | .run request =>
    let path := request.configPath.toList
    [path, Text.dropEndWhile (· = '/') path ++ '.' :: Config.fileExtension]
  | _ => []

/-- The paths of the directories that a configuration is about. -/
def Config.directoryPaths (config : Config) : List (List Char) :=
  [config.contentDir.toList, config.cacheDir.toList]

/-- The paths that a command line is about, once its configuration can be read in a tree. -/
def Invocation.directoryPaths (assignments : List (String × String)) (files : FileTree) :
    Invocation → List (List Char)
  | .run request =>
    match Config.ofFiles files request.configPath assignments with
    | .ok config => config.directoryPaths
    | .error _ => []
  | _ => []

/-- A change of what there is at a place. -/
inductive FileChange where
  | makeDirectory (place : Location)
  | write (place : Location) (content : FileContent)
  | remove (place : Location)
  deriving DecidableEq

namespace FileTree

/-- The places on the way to where a path leads by its parts alone, and that place as the last one. -/
def placesOnWay (tree : FileTree) (path : List Char) : List Location :=
  let rec go (place : Location) : List PathPart → List Location
    | [] => [place]
    | part :: rest =>
      match step place part with
      | .ok next => place :: go next rest
      | .error _ => [place]
  go tree.workingDirectory (Path.parts path)

/-- The change that makes an entry. -/
def changeFor : Location × FileEntry → FileChange
  | (place, .directory) => .makeDirectory place
  | (place, .file content) => .write place content

/-- The changes that make a tree into another one. Directories come before what is in them. -/
def changes (old new : FileTree) : List FileChange :=
  let gone := old.entries.filter fun (place, _) => (new.entry? place).isNone
  let made := new.entries.filter fun (place, entry) => old.entry? place ≠ some entry
  gone.map (fun (place, _) => .remove place) ++ made.map changeFor

end FileTree

/-- The line that tells how long a command took. -/
def elapsedLine (milliseconds : Nat) : String :=
  let hundredths := (milliseconds + 5) / 10
  let rest := hundredths % 100
  "  Duration:   " ++ toString (hundredths / 100) ++ "." ++ (if rest < 10 then "0" else "") ++
    toString rest ++ "s\n"

/-- What is said about a command that failed: the causes from the outermost on, with numbers. -/
def Outcome.reportText (outcome : Outcome) : String :=
  let line : Nat × String → String := fun (number, cause) =>
    "   " ++ toString number ++ ": " ++ cause ++ "\n"
  if outcome.report.isEmpty then ""
  else "Error:\n" ++ String.join ((List.range outcome.report.length |>.zip outcome.report).map line)

end DocPress
