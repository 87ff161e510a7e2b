import DocPress.Cache
import DocPress.Store

/-!
Builds: all documents of a site, or some of them, go through the pipeline of a backend, and what comes
out goes into its cache. A document that fails does not stop the others.
-/

namespace DocPress

/-- Why no artifact of a document is kept. -/
inductive PublishError where
  | pipeline (cause : PipelineError)
  | cache (cause : CacheError)

namespace PublishError

/-- The step that failed. -/
def stage : PublishError → String
  | .pipeline cause => cause.stage
  | .cache _ => "cache"

/-- The diagnostic for a document that failed. -/
def diagnostic (identifier : String) : PublishError → Diagnostic
  | .pipeline cause => cause.diagnostic identifier
  | .cache cause => (Diagnostic.error "cache" cause.message).forDocument identifier

end PublishError

/-- Makes a document into an artifact and puts it into a cache, if there is one. -/
def Pipeline.publish (pipeline : Pipeline) (cache : Option Cache) (document : Document)
    (files : FileTree) : FileTree × Except PublishError Compiled :=
  match pipeline.run document, cache with
  | .error error, _ => (files, .error (.pipeline error))
  | .ok compiled, none => (files, .ok compiled)
  | .ok compiled, some cache =>
    match cache.write compiled.artifact files with
    | (files, .ok _) => (files, .ok compiled)
    | (files, .error error) => (files, .error (.cache error))

/-- What a build has done. -/
structure BuildStats where
  /-- The number of documents. -/
  documents : Nat := 0
  /-- The number of artifacts that were put into the cache. -/
  written : Nat := 0
  /-- The number of documents that failed. -/
  failed : Nat := 0
  /-- The number of warnings. -/
  warnings : Nat := 0
  /-- What is to say about the documents, in their order. -/
  diagnostics : List Diagnostic := []
  deriving DecidableEq

namespace BuildStats

/-- Whether no document failed. -/
def isSuccess (stats : BuildStats) : Bool :=
  stats.failed = 0

/-- What two builds have done together. -/
def add (first second : BuildStats) : BuildStats where
  documents := first.documents + second.documents
  written := first.written + second.written
  failed := first.failed + second.failed
  warnings := first.warnings + second.warnings
  diagnostics := first.diagnostics ++ second.diagnostics

/-- A document that was made into an artifact. -/
def done (cached : Bool) (compiled : Compiled) : BuildStats where
  documents := 1
  written := if cached then 1 else 0
  warnings := compiled.diagnostics.length
  diagnostics := compiled.diagnostics

/-- A document that failed. -/
def failure (diagnostic : Diagnostic) : BuildStats where
  documents := 1
  failed := 1
  diagnostics := [diagnostic]

end BuildStats

/-- Why nothing can be built: the documents cannot be listed. -/
structure ListingError where
  cause : StoreError
  deriving DecidableEq, Repr

/-- The wording of an error. -/
def ListingError.message (error : ListingError) : String :=
  "document store error: " ++ error.cause.message

/-- The wordings of the causes of an error. -/
def ListingError.causes (error : ListingError) : List String :=
  error.cause.message :: error.cause.causes

/-- The documents of a store on their way through a pipeline, into a cache or nowhere. -/
structure Builder where
  pipeline : Pipeline
  store : Store
  cache : Option Cache := none

namespace Builder

/-- Builds a document. -/
def buildOne (builder : Builder) (identifier : String) (files : FileTree) : FileTree × BuildStats :=
  match builder.store.resolve files identifier with
  | .error error =>
    (files, .failure ((Diagnostic.error "store" error.message).forDocument identifier))
  | .ok document =>
    match builder.pipeline.publish builder.cache document files with
    | (files, .ok compiled) => (files, .done builder.cache.isSome compiled)
    | (files, .error error) => (files, .failure (error.diagnostic identifier))

/-- Builds documents one after the other. -/
def build (builder : Builder) : List String → FileTree → FileTree × BuildStats
  | [], files => (files, {})
  | identifier :: rest, files =>
    let (files, first) := builder.buildOne identifier files
    let (files, more) := builder.build rest files
    (files, first.add more)

/-- Builds all documents of the store, if they can be listed. -/
def buildAll (builder : Builder) (files : FileTree) : FileTree × Except ListingError BuildStats :=
  match builder.store.identifiers files with
  | .error error => (files, .error ⟨error⟩)
  | .ok identifiers =>
    let (files, stats) := builder.build identifiers files
    (files, .ok stats)

end Builder

end DocPress
