import DocPress.Metadata.Schema
import DocPress.Stage
import DocPress.Artifact
import DocPress.Json.Shape

/-!
The configuration of a site: where its documents and its finished pages are, what metadata its
documents have, and the backends that it is built for.
-/

namespace DocPress

open Json (ticked)

/-- How a site is built for one use: a way of compiling, and the stages of both phases in order. -/
structure Backend where
  strategy : Strategy
  /-- Whether undeclared metadata is refused, if it is not as for the whole site. -/
  strictMetadata : Option Bool
  pre : List Stage
  post : List Stage
  deriving DecidableEq

/-- The configuration of a site. -/
structure Config where
  /-- The directory of the documents. -/
  contentDir : String := "data/blog"
  /-- The extension of the files of documents. -/
  extension : String := "mdx"
  /-- The directory that has the cache of each backend. -/
  cacheDir : String := "public/posts"
  /-- Whether undeclared metadata is refused. -/
  strictMetadata : Bool := false
  /-- The fields that are declared beyond those of every post. -/
  fields : List FieldSpec := []
  backends : Catalog Backend

/-- Why a configuration is refused. -/
inductive ConfigFault where
  | fileNotFound (path : String)
  | unreadable (path : String)
  | emptyExtension
  | noBackends
  | misplacedStage (backend stage : String) (phase : Phase)
  | unknownBackend (name : String) (available : List String)
  | foreignStage (stage : String) (actual wanted : Phase)
  | swappedChains
  deriving DecidableEq, Repr

/-- The wording of a fault. -/
def ConfigFault.message (fault : ConfigFault) : String :=
  "Configuration error: " ++ match fault with
  | .fileNotFound path => "Configuration file not found: " ++ path
  | .unreadable path => "Failed to parse config file: " ++ path
  | .emptyExtension => "content.extension cannot be empty"
  | .noBackends => "at least one backend must be configured"
  | .misplacedStage backend stage phase =>
    "backend " ++ ticked backend ++ ": stage " ++ ticked stage ++ " cannot run in the " ++
      phase.title ++ " phase"
  | .unknownBackend name available =>
    "unknown backend " ++ ticked name ++ " (available: " ++ ", ".intercalate available ++ ")"
  | .foreignStage stage actual wanted =>
    "stage " ++ ticked stage ++ " belongs to the " ++ actual.title ++ " phase, not " ++ wanted.title
  | .swappedChains => "transform chains passed in the wrong order"

namespace Backend

/-- The stages that make headings linkable, highlight code and tidy up. -/
def standardPost : List Stage :=
  [.headingSlug, .highlight false, .minify]

/-- A backend with the standard stages. -/
def standard (strategy : Strategy) : Backend :=
  ⟨strategy, none, [.codeTitle, .footnotes {}, .imageComponent .empty], standardPost⟩

/-- The stage that stands in the wrong phase, if there is one. -/
def misplaced? (backend : Backend) : Option (Stage × Phase) :=
  ((backend.pre.find? (·.phase != .pre)).map (·, Phase.pre)).or
    ((backend.post.find? (·.phase != .post)).map (·, Phase.post))

end Backend

namespace Config

/-- The backends of a site that configures none. -/
def defaultBackends : Catalog Backend :=
  .ofList
    [("mdx-bundler", ⟨.precompiled, none,
        [.footnotes {}, .codeTitle, .imageComponent .empty],
        [.highlight false, .headingSlug, .minify]⟩),
      ("next-mdx-remote", .standard .onDemand),
      ("contentlayer", { Backend.standard .precompiled with strictMetadata := some true })]

/-- The configuration of a site that configures nothing. -/
def default : Config :=
  { backends := defaultBackends }

/-- The extension without the points in front of it. -/
def plainExtension (config : Config) : String :=
  String.ofList (config.extension.toList.dropWhile (· = '.'))

/-- Checks the stages of every backend. -/
def validateBackends : List (String × Backend) → Except ConfigFault Unit
  | [] => .ok ()
  | (name, backend) :: rest =>
    match backend.misplaced? with
    | some (stage, phase) => .error (.misplacedStage name stage.name phase)
    | none => validateBackends rest

/-- Checks that a site can be built with the configuration. -/
def validate (config : Config) : Except ConfigFault Unit :=
  if config.plainExtension.isEmpty then .error .emptyExtension
  else if config.backends.isEmpty then .error .noBackends
  else validateBackends config.backends.entries

/-- The backend of a name. -/
def backend (name : String) (config : Config) : Except ConfigFault Backend :=
  match config.backends.get? name with
  | some backend => .ok backend
  | none => .error (.unknownBackend name config.backends.keys)

/-- The backends of the given names, or all of them if no name is given. -/
def selectBackends (config : Config) (names : List String) : Except ConfigFault (List String) := do
  if names.isEmpty then return config.backends.keys
  for name in names do
    let _ ← config.backend name
  return names

/-- The schema of the metadata that a backend takes. -/
def schemaFor (config : Config) (backend : Backend) : Schema :=
  let schema := config.fields.foldl (fun schema spec => schema.declare spec) Schema.blog
  { schema with strict := backend.strictMetadata.getD config.strictMetadata }

end Config

end DocPress
