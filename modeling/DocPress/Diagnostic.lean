import DocPress.Json.Shape

/-!
What is said about a run over a document: warnings, which do not stop it, and the error that does.
-/

namespace DocPress

open Json (ticked)

/-- What is worth saying about a document that can be finished. -/
inductive Warning where
  | missingField (name : String)
  | duplicateFootnote (label : String)
  /-- A footnote that refers to itself where it is shown in place. -/
  | footnoteCycle (label : String)
  | undefinedFootnote (label : String)
  | repeatedId (id : String)
  deriving DecidableEq, Repr

/-- The wording of a warning. -/
def Warning.message : Warning → String
  | .missingField name => "missing optional field " ++ ticked name
  | .duplicateFootnote label => "duplicate footnote definition " ++ ticked label ++ " ignored"
  | .footnoteCycle label => "footnote " ++ ticked label ++ " references itself"
  | .undefinedFootnote label => "undefined footnote reference " ++ ticked label
  | .repeatedId id => "heading id " ++ ticked id ++ " is used more than once"

/-- How serious a diagnostic is. -/
inductive Severity where
  | warning
  | error
  deriving DecidableEq, Repr

/-- The word for how serious something is. -/
def Severity.keyword : Severity → String
  | .warning => "warning"
  | .error => "error"

/-- A message about a run over a document. -/
structure Diagnostic where
  severity : Severity
  /-- Where in the run it arose. -/
  stage : Option String
  /-- The document. -/
  identifier : Option String
  message : String
  deriving DecidableEq, Repr

namespace Diagnostic

/-- A warning of a stage, or of no stage. -/
def ofWarning (stage : Option String) (warning : Warning) : Diagnostic :=
  ⟨.warning, stage, none, warning.message⟩

/-- The error of a stage. -/
def error (stage message : String) : Diagnostic :=
  ⟨.error, some stage, none, message⟩

/-- Names the document. -/
def forDocument (identifier : String) (diagnostic : Diagnostic) : Diagnostic :=
  { diagnostic with identifier := some identifier }

/-- Whether the diagnostic is an error. -/
def isError (diagnostic : Diagnostic) : Bool :=
  diagnostic.severity = .error

/-- A diagnostic in a line of text. -/
def text (diagnostic : Diagnostic) : String :=
  let identifier := match diagnostic.identifier with
    | some identifier => " [" ++ identifier ++ "]"
    | none => ""
  let stage := match diagnostic.stage with
    | some stage => " (" ++ stage ++ ")"
    | none => ""
  diagnostic.severity.keyword ++ identifier ++ stage ++ ": " ++ diagnostic.message

end Diagnostic

end DocPress
