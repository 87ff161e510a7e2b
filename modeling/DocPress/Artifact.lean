import DocPress.Html
import DocPress.Node.Json
import DocPress.Template
import DocPress.Metadata

/-!
Artifacts: documents in the form in which they are kept. The code of an artifact is either a template
or a tree as JSON, of which the template is made when the document is shown.
-/

namespace DocPress

/-- When the template of a document is made. -/
inductive Strategy where
  /-- Before the document is kept. -/
  | precompiled
  /-- When the document is shown. -/
  | onDemand
  deriving DecidableEq, Repr

/-- The keyword for a strategy. -/
def Strategy.keyword : Strategy → String
  | .precompiled => "precompiled"
  | .onDemand => "on-demand"

/-- The strategies by their keywords. -/
def Strategy.all : List (String × Strategy) :=
  [Strategy.precompiled, .onDemand].map fun strategy => (strategy.keyword, strategy)

/-- A compiled document. -/
structure Artifact where
  identifier : String
  metadata : Metadata
  strategy : Strategy
  code : String
  deriving DecidableEq

/-- Why a tree cannot be compiled: its template cannot be read. -/
structure CompileError where
  cause : TemplateError
  deriving DecidableEq, Repr

/-- The wording of the error. -/
def CompileError.message (error : CompileError) : String :=
  "emitted template is invalid: " ++ error.cause.message

/-- The code of a tree. -/
def compileCode (strategy : Strategy) (tree : Node) : Except CompileError String :=
  match strategy with
  | .onDemand => .ok tree.write
  | .precompiled =>
    let code := Html.emit tree
    match Template.parse code with
    | .ok _ => .ok code
    | .error cause => .error ⟨cause⟩

/-- Compiles a tree. -/
def Artifact.compile (strategy : Strategy) (identifier : String) (metadata : Metadata)
    (tree : Node) : Except CompileError Artifact :=
  (compileCode strategy tree).map fun code => ⟨identifier, metadata, strategy, code⟩

end DocPress
