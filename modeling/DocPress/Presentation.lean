import DocPress.Artifact

/-!
Showing artifacts: the template of an artifact is filled in with the metadata of the document and with
values that are given. All values are escaped.
-/

namespace DocPress

/-- Why an artifact cannot be shown. -/
inductive PresentError where
  /-- Its code is no tree. -/
  | hydrate (cause : TreeError)
  /-- Its template cannot be read or filled in. -/
  | invoke (cause : TemplateError)

/-- The wording of an error. -/
def PresentError.message : PresentError → String
  | .hydrate cause => "cannot hydrate artifact: " ++ cause.message
  | .invoke cause => "cannot invoke artifact: " ++ cause.message

/-- The wordings of the causes of an error. -/
def PresentError.causes : PresentError → List String
  | .hydrate cause => [cause.message]
  | .invoke cause => [cause.message]

/-- Why a text is no value under a name. -/
inductive PropError where
  | noValue (text : String)
  | emptyName (text : String)
  deriving DecidableEq, Repr

/-- The wording of an error. -/
def PropError.message : PropError → String
  | .noValue text => "invalid prop " ++ Json.ticked text ++ ": expected key=value"
  | .emptyName text => "invalid prop " ++ Json.ticked text ++ ": empty key"

/-- Reads a value under a name, which stands in front of the first equals sign. -/
def readProp (text : String) : Except PropError (String × String) :=
  match Text.splitOnce? (· = '=') text.toList with
  | none => .error (.noValue text)
  | some ([], _) => .error (.emptyName text)
  | some (name, value) => .ok (String.ofList name, String.ofList value)

/-- Values from metadata, as they are displayed. -/
def Props.ofMetadata (metadata : Metadata) : Props :=
  .ofList (metadata.entries.map fun entry => (entry.1, entry.2.display))

/-- The template for the code of an artifact that was compiled on demand. -/
def hydrate (code : String) : Except PresentError String :=
  match Node.parse code with
  | .ok tree => .ok (Html.emit tree)
  | .error cause => .error (.hydrate cause)

/-- The page for a template with values, which are escaped. -/
def invoke (code : String) (props : Props) : Except PresentError String :=
  let page : Except TemplateError String := do
    let template ← Template.parse code
    template.render (props.mapValues Html.escape)
  page.mapError .invoke

/-- The page for an artifact. Values that are given count more than its metadata. -/
def Artifact.present (artifact : Artifact) (props : Props) : Except PresentError String := do
  let props := (Props.ofMetadata artifact.metadata).merge props
  match artifact.strategy with
  | .precompiled => invoke artifact.code props
  | .onDemand => invoke (← hydrate artifact.code) props

end DocPress
