import DocPress.Caption
import DocPress.Footnote.Number
import DocPress.HeadingId
import DocPress.Highlight
import DocPress.Minify
import DocPress.Picture
import DocPress.Config

/-!
Running stages: one stage over a tree, and chains of stages of one phase.
-/

namespace DocPress

open Json (ticked)
open Syntax (Highlighter)

/-- Runs a stage over a tree. -/
def Stage.apply (highlighter : Highlighter) (stage : Stage) (tree : Node) :
    Except StageError (Node × List Warning) :=
  match stage with
  | .codeTitle => .ok (Caption.apply tree, [])
  | .footnotes options =>
    if tree.kind = .document then .ok (Footnote.apply options tree)
    else .error (.notDocument tree.kind.name)
  | .imageComponent sizes => .ok (Picture.apply sizes tree, [])
  | .headingSlug => .ok (HeadingId.apply tree)
  | .highlight strict => (Highlight.apply highlighter strict tree).map (·, [])
  | .minify => .ok (Minify.apply tree, [])

/-- The failure of a stage. -/
structure StageFailure where
  stage : String
  cause : StageError
  deriving DecidableEq, Repr

/-- The wording of a failure. -/
def StageFailure.message (failure : StageFailure) : String :=
  "stage " ++ ticked failure.stage ++ " failed: " ++ failure.cause.message

/-- Runs a stage over a tree, and names it in what it has to say. -/
def Stage.run (highlighter : Highlighter) (stage : Stage) (tree : Node) :
    Except StageFailure (Node × List Diagnostic) :=
  match stage.apply highlighter tree with
  | .ok (tree, warnings) => .ok (tree, warnings.map (.ofWarning (some stage.name)))
  | .error cause => .error ⟨stage.name, cause⟩

/-- Runs stages over a tree one after the other, up to the first failure. -/
def Stage.runAll (highlighter : Highlighter) :
    List Stage → Node → Except StageFailure (Node × List Diagnostic)
  | [], tree => .ok (tree, [])
  | stage :: rest, tree => do
    let (tree, before) ← stage.run highlighter tree
    let (tree, after) ← runAll highlighter rest tree
    return (tree, before ++ after)

/-- Stages of one phase in order. -/
structure Chain where
  phase : Phase
  stages : List Stage
  placed : ∀ stage ∈ stages, stage.phase = phase

namespace Chain

/-- The chain of the given stages, if they belong to the phase. -/
def ofStages (phase : Phase) (stages : List Stage) : Except ConfigFault Chain :=
  match h : stages.find? (·.phase != phase) with
  | some stage => .error (.foreignStage stage.name stage.phase phase)
  | none => .ok ⟨phase, stages, by simpa using h⟩

/-- The names of the stages. -/
def names (chain : Chain) : List String :=
  chain.stages.map (·.name)

/-- Runs the stages over a tree. -/
def run (highlighter : Highlighter) (chain : Chain) (tree : Node) :
    Except StageFailure (Node × List Diagnostic) :=
  Stage.runAll highlighter chain.stages tree

end Chain

end DocPress
