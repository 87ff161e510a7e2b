import DocPress.FileTree
import DocPress.Identifier
import DocPress.Json.Bytes
import DocPress.Metadata.Json
import DocPress.Pipeline

/-!
Caches: the artifacts of a backend, each in a file of JSON. The file holds the metadata field by field
and then the code; that the metadata has no field called `code` is checked when it is written.
-/

namespace DocPress

open Json (ticked)

/-- The artifacts of a backend. -/
structure Cache where
  directory : String
  /-- The strategy of all artifacts. -/
  strategy : Strategy
  /-- What tells which texts of the metadata are dates. -/
  schema : Schema

/-- Why the file of an artifact cannot be understood. -/
inductive RecordError where
  | text (reason : Json.Break)
  | notObject
  | noCode
  | metadata (fault : RecordFault)

/-- Why a cache does not do what is asked for. -/
inductive CacheError where
  | notFound (identifier : String)
  | corrupt (identifier : String) (cause : RecordError)
  | invalidIdentifier (identifier : String)
  /-- Metadata with a field of the name for the code. -/
  | reservedField
  | files (path : String) (fault : FileFault)

/-- The name of the field for the code. -/
def Cache.codeField : String := "code"

/-- The extension of the files of artifacts. -/
def Cache.extension : String := "json"

/-- The wording of a fault and where it is. -/
def Json.Break.message (reason : Json.Break) : String :=
  reason.fault.message ++ " at line " ++ toString reason.place.line ++ " column " ++
    toString reason.place.column

/-- The wording of an error. -/
def RecordError.message : RecordError → String
  | .text reason => reason.message
  | .notObject => "record is not an object"
  | .noCode => "missing string field " ++ ticked Cache.codeField
  | .metadata fault => fault.message

/-- The wording of an error. -/
def CacheError.message : CacheError → String
  | .notFound identifier => "no cache entry for " ++ ticked identifier
  | .corrupt identifier cause =>
    "corrupt cache entry for " ++ ticked identifier ++ ": " ++ cause.message
  | .invalidIdentifier identifier => "invalid identifier " ++ ticked identifier
  | .reservedField =>
    "metadata field " ++ ticked Cache.codeField ++ " is reserved for the artifact code"
  | .files path fault => "I/O error at " ++ path ++ ": " ++ fault.message

/-- The wordings of the causes of an error. -/
def CacheError.causes : CacheError → List String
  | .files _ fault => [fault.message]
  | _ => []

namespace Cache

/-- The cache of a backend below a directory for all caches. -/
def ofPipeline (root : String) (pipeline : Pipeline) : Cache where
  directory := String.ofList (Path.within root.toList pipeline.backend.toList)
  strategy := pipeline.strategy
  schema := pipeline.schema

/-- The path of the file of an artifact. -/
def entryPath (cache : Cache) (identifier : String) : Except CacheError (List Char) :=
  match Identifier.toPath identifier.toList extension.toList with
  | .ok path => .ok (Path.within cache.directory.toList path)
  | .error _ => .error (.invalidIdentifier identifier)

/-! ### Records -/

/-- What the file of an artifact holds. -/
def record (artifact : Artifact) : Json :=
  .object (artifact.metadata.toJsonFields ++ [(codeField, .string artifact.code)])

/-- The JSON in the file of an artifact. -/
def parseContent : FileContent → Except Json.Break Json
  | .text value => Json.parse value
  | .binary bytes => .error (Json.brokenBytes bytes)

/-- The metadata and the code in the file of an artifact. -/
def readRecord (schema : Schema) (content : FileContent) :
    Except RecordError (Metadata × String) := do
  match ← (parseContent content).mapError .text with
  | .object fields =>
    match ((Json.object fields).field? codeField).bind Json.text? with
    | some code =>
      let metadata ← (Metadata.ofJsonFields schema [codeField] fields).mapError .metadata
      return (metadata, code)
    | none => throw .noCode
  | _ => throw .notObject

/-! ### Access -/

/-- Writes an artifact, and tells its path. -/
def write (cache : Cache) (artifact : Artifact) (files : FileTree) :
    FileTree × Except CacheError (List Char) :=
  if artifact.metadata.contains codeField then (files, .error .reservedField)
  else
    match cache.entryPath artifact.identifier with
    | .error error => (files, .error error)
    | .ok path =>
      let parent := Path.parent path
      match files.makeDirectories parent with
      | (files, .error fault) => (files, .error (.files (String.ofList parent) fault))
      | (files, .ok ()) =>
        match files.place path (.text (record artifact).write) with
        | .ok files => (files, .ok path)
        | .error fault => (files, .error (.files (String.ofList path) fault))

/-- Reads an artifact. -/
def read (cache : Cache) (files : FileTree) (identifier : String) : Except CacheError Artifact := do
  let path ← cache.entryPath identifier
  match files.read path with
  | .error .noEntry => throw (.notFound identifier)
  | .error fault => throw (.files (String.ofList path) fault)
  | .ok content =>
    let (metadata, code) ← (readRecord cache.schema content).mapError (.corrupt identifier)
    return ⟨identifier, metadata, cache.strategy, code⟩

/-- Whether there is an artifact for the identifier. -/
def contains (cache : Cache) (files : FileTree) (identifier : String) : Bool :=
  match cache.entryPath identifier with
  | .ok path => files.isFile path
  | .error _ => false

/-- Removes an artifact, and tells whether it was there. -/
def remove (cache : Cache) (identifier : String) (files : FileTree) :
    FileTree × Except CacheError Bool :=
  match cache.entryPath identifier with
  | .error error => (files, .error error)
  | .ok path =>
    match files.removeFile path with
    | .ok files => (files, .ok true)
    | .error .noEntry => (files, .ok false)
    | .error fault => (files, .error (.files (String.ofList path) fault))

/-- The identifier of the artifact in a file, if the file has the extension of artifacts. -/
def identifierOf? (cache : Cache) (path : List Char) : Option String :=
  if Path.extension? path = some extension.toList then
    (Path.stripRoot? cache.directory.toList path).map fun path =>
      String.ofList ((Path.withoutExtension path).map fun c => if c = '\\' then '/' else c)
  else none

/-- The identifiers of all artifacts, sorted. A directory that is not there has none. -/
def identifiers (cache : Cache) (files : FileTree) : List String :=
  match files.filesBelow cache.directory.toList with
  | .error _ => []
  | .ok paths => (paths.filterMap cache.identifierOf?).mergeSort fun a b => decide (a ≤ b)

end Cache

end DocPress
