import DocPress.FileTree
import DocPress.Identifier
import DocPress.Pipeline

/-!
Stores of documents: the files with one extension below a directory. The document `notes/tea` is the
file of that name, or the file `index` in the directory of that name.
-/

namespace DocPress

/-- A directory of documents. -/
structure Store where
  root : String
  /-- The extension of the files of documents. -/
  extension : String
  deriving DecidableEq, Repr

/-- Why a store does not give what is asked for. -/
inductive StoreError where
  | notFound (identifier : String)
  | invalidIdentifier (identifier : String)
  /-- A document that cannot be read. -/
  | unreadable (path : String) (fault : FileFault)
  /-- A directory that cannot be listed. -/
  | unlistable (path : String) (fault : FileFault)
  deriving DecidableEq, Repr

namespace StoreError

/-- The wordings of the causes of an error, one the cause of the other. -/
def causes : StoreError → List String
  | .notFound _ => []
  | .invalidIdentifier _ => []
  | .unreadable _ fault => [fault.message]
  | .unlistable path fault =>
    ["IO error for operation on " ++ path ++ ": " ++ fault.message, fault.message]

/-- The wording of an error. -/
def message (error : StoreError) : String :=
  match error with
  | .notFound identifier => "document not found: " ++ identifier
  | .invalidIdentifier identifier => "invalid identifier " ++ Json.ticked identifier
  | .unreadable path _ | .unlistable path _ =>
    "I/O error at " ++ path ++ ": " ++ error.causes.head?.getD ""

end StoreError

namespace Store

/-- The path of the file that is named as the document. -/
def directPath (store : Store) (identifier : String) : Except StoreError (List Char) :=
  match Identifier.toPath identifier.toList store.extension.toList with
  | .ok path => .ok (Path.within store.root.toList path)
  | .error _ => .error (.invalidIdentifier identifier)

/-- The path of the index in the directory that is named as the document. -/
def indexPath (store : Store) (identifier : String) : List Char :=
  Path.within (Path.within store.root.toList identifier.toList)
    (Identifier.fileOf "index".toList store.extension.toList)

/-- The path of a document, if it is there. -/
def locate (store : Store) (files : FileTree) (identifier : String) :
    Except StoreError (Option (List Char)) := do
  let direct ← store.directPath identifier
  if files.isFile direct then return some direct
  let index := store.indexPath identifier
  return if files.isFile index then some index else none

/-- Reads a document. -/
def resolve (store : Store) (files : FileTree) (identifier : String) :
    Except StoreError Document := do
  match ← store.locate files identifier with
  | none => throw (.notFound identifier)
  | some path =>
    match files.readText path with
    | .ok source => return ⟨identifier, source⟩
    | .error fault => throw (.unreadable (String.ofList path) fault)

/-- Whether a document is there. -/
def contains (store : Store) (files : FileTree) (identifier : String) : Bool :=
  match store.locate files identifier with
  | .ok (some _) => true
  | _ => false

/-- The identifier of the document in a file, if the file has the extension of documents. -/
def identifierOf? (store : Store) (path : List Char) : Option String :=
  if Path.extension? path = some store.extension.toList then
    (Identifier.ofPath? store.root.toList path).map String.ofList
  else none

/-- The identifiers of all documents, sorted. -/
def identifiers (store : Store) (files : FileTree) : Except StoreError (List String) :=
  match files.filesBelow store.root.toList with
  | .error fault => .error (.unlistable store.root fault)
  | .ok paths =>
    .ok ((paths.filterMap store.identifierOf?).mergeSort fun a b => decide (a ≤ b)).eraseReps

end Store

/-- The store of the documents of a site. -/
def Config.store (config : Config) : Store :=
  ⟨config.contentDir, config.plainExtension⟩

end DocPress
