import DocPress.Metadata.Header
import DocPress.Node.Build
import DocPress.Page
import DocPress.Slug
import DocPress.Stage.Run

/-!
Pipelines: from the source of a document to its artifact, for one backend. The header is read and
checked, the body is made into a tree, and the tree goes through the stages before and after it is made
into a page.
-/

namespace DocPress

open Syntax (Highlighter)

/-- The source of a document. -/
structure Document where
  identifier : String
  source : String
  deriving DecidableEq, Repr

/-- Why a document cannot be made into an artifact. -/
inductive PipelineError where
  | metadata (cause : MetadataError)
  | body (cause : BuildError)
  | transform (cause : StageFailure)
  | page (cause : RenderError)
  | code (cause : CompileError)

namespace PipelineError

/-- The step that failed. -/
def stage : PipelineError → String
  | .metadata _ => "metadata"
  | .body _ => "tree-builder"
  | .transform failure => failure.stage
  | .page _ => "render"
  | .code _ => "compile"

/-- The wording of an error. -/
def message : PipelineError → String
  | .metadata cause => cause.message
  | .body cause => cause.message
  | .transform failure => failure.message
  | .page cause => cause.message
  | .code cause => cause.message

/-- The wording beside the name of the step, which it does not repeat. -/
def detail : PipelineError → String
  | .transform failure => failure.cause.message
  | error => error.message

/-- The diagnostic for a document that failed. -/
def diagnostic (identifier : String) (error : PipelineError) : Diagnostic :=
  (Diagnostic.error error.stage error.detail).forDocument identifier

end PipelineError

/-- What a run over a document gives. -/
structure Compiled where
  artifact : Artifact
  /-- Warnings. -/
  diagnostics : List Diagnostic
  deriving DecidableEq

/-- The way of a backend from sources to artifacts. -/
structure Pipeline where
  backend : String
  schema : Schema
  pre : Chain
  post : Chain
  strategy : Strategy
  recognizers : List Recognizer := standardRecognizers
  /-- Whether pages have no sections. -/
  flat : Bool := false
  highlighter : Highlighter := Syntax.standard
  pre_phase : pre.phase = .pre
  post_phase : post.phase = .post

namespace Pipeline

/-- The pipeline with two chains, if they are of the right phases. -/
def ofChains (backend : String) (schema : Schema) (pre post : Chain) (strategy : Strategy) :
    Except ConfigFault Pipeline :=
  if h : pre.phase = .pre ∧ post.phase = .post then
    .ok { backend, schema, pre, post, strategy, pre_phase := h.1, post_phase := h.2 }
  else .error .swappedChains

/-- The pipeline of a backend of a configuration. -/
def ofConfig (config : Config) (name : String) : Except ConfigFault Pipeline := do
  let backend ← config.backend name
  let pre ← Chain.ofStages .pre backend.pre
  let post ← Chain.ofStages .post backend.post
  ofChains name (config.schemaFor backend) pre post backend.strategy

/-- The metadata of a document, with its slug at the end, the body behind it, and warnings. -/
def readHeader (pipeline : Pipeline) (document : Document) :
    Except MetadataError (Metadata × String × List Diagnostic) := do
  let extracted ← extract pipeline.schema document.source
  pipeline.schema.validate extracted.metadata extracted.headerEndLine
  let warnings := (pipeline.schema.missingOptional extracted.metadata).map fun name =>
    Diagnostic.ofWarning none (.missingField name)
  let slug := String.ofList (deriveSlug document.identifier.toList)
  return (extracted.metadata.append "slug" (.text slug), extracted.body, warnings)

/-- The page of a body, and warnings. -/
def readBody (pipeline : Pipeline) (body : String) :
    Except PipelineError (Node × List Diagnostic) := do
  let tree ← (Node.ofMarkdown pipeline.recognizers body).mapError .body
  let (tree, before) ← (pipeline.pre.run pipeline.highlighter tree).mapError .transform
  let tree ← (Page.render pipeline.flat tree).mapError .page
  let (tree, after) ← (pipeline.post.run pipeline.highlighter tree).mapError .transform
  return (tree, before ++ after)

/-- Makes a document into an artifact. -/
def run (pipeline : Pipeline) (document : Document) : Except PipelineError Compiled := do
  let (metadata, body, warnings) ← (pipeline.readHeader document).mapError .metadata
  let (tree, more) ← pipeline.readBody body
  let artifact ←
    (Artifact.compile pipeline.strategy document.identifier metadata tree).mapError .code
  return ⟨artifact, (warnings ++ more).map (·.forDocument document.identifier)⟩

end Pipeline

end DocPress
