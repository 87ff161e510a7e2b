import DocPress.Proofs.Backends
import DocPress.Proofs.Html.Sound
import DocPress.Proofs.Node.Build
import DocPress.Proofs.Page
import DocPress.Proofs.Stage.Sound
import DocPress.Proofs.Syntax.Grammar

/-!
Runs of accepted configurations. Behind the header nothing fails: the events of the body make a sound
tree, the stages and the page keep it sound, and a sound tree can be compiled.
-/

namespace DocPress

open Syntax (Highlighter)

namespace Pipeline

variable {pipeline : Pipeline} {tree : Node}

/-- Without strict stages and failing grammars the page of a sound document can be made, and is
sound. -/
theorem exists_finish (lax : ∀ stage ∈ pipeline.post.stages, stage.IsLax)
    (grammars : ∀ language code, ¬Highlight.FailsOn pipeline.highlighter language code)
    (root : tree.kind = .document) (sound : tree.IsSound true true) :
    ∃ page more, pipeline.finish tree = .ok (page, more) ∧ page.IsSound false true := by
  have pre : ∀ stage ∈ pipeline.pre.stages, stage.phase = .pre := fun stage member =>
    (pipeline.pre.placed stage member).trans pipeline.pre_phase
  have post : ∀ stage ∈ pipeline.post.stages, stage.phase = .post := fun stage member =>
    (pipeline.post.placed stage member).trans pipeline.post_phase
  obtain ⟨⟨document, before⟩, staged, still⟩ :
      ∃ result, Stage.runAll pipeline.highlighter pipeline.pre.stages tree = .ok result ∧
        result.1.kind = .document := Stage.exists_runAll_pre pre root
  obtain ⟨page, rendered, pageSound⟩ :=
    Page.exists_render pipeline.flat still (Stage.isSound_of_runAll staged sound)
  cases finished : Stage.runAll pipeline.highlighter pipeline.post.stages page with
  | error failure =>
      obtain ⟨language, code, fails⟩ := Stage.exists_failsOn_of_runAll post lax finished
      exact absurd fails (grammars language code)
  | ok result =>
      refine ⟨result.1, before ++ result.2, ?_, Stage.isSound_of_runAll finished pageSound⟩
      rw [finish, bind_eq_ok_iff]
      refine ⟨_, mapError_eq_ok_iff.2 staged, bind_eq_ok_iff.2 ⟨_, mapError_eq_ok_iff.2 rendered, ?_⟩⟩
      exact bind_eq_ok_iff.2 ⟨_, mapError_eq_ok_iff.2 finished, rfl⟩

/-- A document with a header that can be read is made into an artifact. -/
theorem exists_run_of_readHeader {document : Document} {metadata : Metadata} {body : String}
    {warnings : List Diagnostic} (recognizers : pipeline.recognizers = standardRecognizers)
    (lax : ∀ stage ∈ pipeline.post.stages, stage.IsLax)
    (grammars : ∀ language code, ¬Highlight.FailsOn pipeline.highlighter language code)
    (read : pipeline.readHeader document = .ok (metadata, body, warnings))
    (braces : Markdown.bracesLast (Markdown.events body) = true) :
    ∃ compiled, pipeline.run document = .ok compiled := by
  obtain ⟨tree, built, root, sound⟩ := exists_ofEvents (Markdown.isNested_events body) braces
  obtain ⟨page, more, finished, pageSound⟩ := exists_finish lax grammars root sound
  obtain ⟨artifact, compiled⟩ :=
    exists_compile pageSound pipeline.strategy document.identifier metadata
  have made : pipeline.readBody body = .ok (page, more) := by
    rw [readBody_eq, recognizers, Node.ofMarkdown, built]
    exact finished
  exact ⟨_, run_eq_ok_iff.2 ⟨metadata, body, warnings, page, more, artifact, read, made, compiled, rfl⟩⟩

theorem run_eq_error_of_readHeader {document : Document} {cause : MetadataError}
    (failed : pipeline.readHeader document = .error cause) :
    pipeline.run document = .error (.metadata cause) := by
  rw [run, failed]
  rfl

end Pipeline

/-- Every backend of an accepted configuration without strict highlighting has a pipeline, and this
makes an artifact of every document whose header it reads, provided that grammars do not fail and that
raw HTML in the body ends in an opening brace only at the very end of it. -/
theorem run_ok_or_metadata_error {config : Config} {name : String} {backend : Backend}
    (valid : config.validate = .ok ()) (known : config.backend name = .ok backend)
    (lax : ∀ stage ∈ backend.post, stage.IsLax) :
    ∃ pipeline, Pipeline.ofConfig config name = .ok pipeline ∧
      ∀ highlighter : Highlighter,
        (∀ language code, ¬Highlight.FailsOn highlighter language code) →
        ∀ document : Document,
          (∀ extracted, extract pipeline.schema document.source = .ok extracted →
            Markdown.bracesLast (Markdown.events extracted.body) = true) →
          (∃ compiled, (pipeline.withHighlighter highlighter).run document = .ok compiled) ∨
            ∃ cause, pipeline.readHeader document = .error cause ∧
              (pipeline.withHighlighter highlighter).run document = .error (.metadata cause) := by
  have placed := Config.isPlaced_of_validate valid known
  refine ⟨_, Pipeline.ofConfig_eq_ok known placed, fun highlighter grammars document braces => ?_⟩
  let pipeline := (Pipeline.ofBackend config name backend placed).withHighlighter highlighter
  cases read : pipeline.readHeader document with
  | error cause => exact .inr ⟨cause, read, Pipeline.run_eq_error_of_readHeader read⟩
  | ok header =>
      obtain ⟨metadata, body, warnings⟩ := header
      obtain ⟨extracted, found, -, rfl⟩ := Pipeline.readHeader_eq_ok read
      exact .inl (Pipeline.exists_run_of_readHeader rfl lax grammars read (braces extracted found))

/-- A backend that runs its stages in an order of its own, and some of them twice. -/
def repeatingBackend : Backend :=
  ⟨.precompiled, none, [.footnotes {}, .imageComponent .empty, .codeTitle, .footnotes {}],
    [.minify, .highlight false, .headingSlug, .minify]⟩

/-- A configuration with that backend alone. -/
def repeatingConfig : Config :=
  { backends := .ofList [("repeating", repeatingBackend)] }

/-- A body with a table and raw HTML that ends in an opening brace. -/
def tableBody : String :=
  "| a |\n|---|\n| b |\n\n<div>\x7b"

/-- A post with that body. -/
def tablePost : Document :=
  ⟨"table", "---\ntitle: Table\ndate: 2023-01-01\n---\n" ++ tableBody⟩

theorem isPlaced_repeatingBackend : repeatingBackend.IsPlaced :=
  Backend.misplaced?_eq_none_iff.1 (by decide)

set_option maxRecDepth 10000 in
/-- The post is made into an artifact by the backend. -/
theorem exists_run_tablePost :
    ∃ pipeline compiled, Pipeline.ofConfig repeatingConfig "repeating" = .ok pipeline ∧
      pipeline.run tablePost = .ok compiled := by
  have lax : ∀ stage ∈ repeatingBackend.post, stage.IsLax := by decide
  obtain ⟨pipeline, made, runs⟩ :=
    @run_ok_or_metadata_error repeatingConfig "repeating" repeatingBackend rfl rfl lax
  obtain rfl :=
    Except.ok.inj (made.symm.trans (Pipeline.ofConfig_eq_ok rfl isPlaced_repeatingBackend))
  obtain ⟨extracted, found, body⟩ : ∃ extracted,
      extract (repeatingConfig.schemaFor repeatingBackend) tablePost.source = .ok extracted ∧
        (extracted.body == tableBody) = true := exists_ok_of_any (by decide +kernel)
  obtain ⟨header, read, -⟩ : ∃ header, Pipeline.readHeader
      (Pipeline.ofBackend repeatingConfig "repeating" repeatingBackend isPlaced_repeatingBackend)
        tablePost = .ok header ∧ true = true := exists_ok_of_any (by decide +kernel)
  have braces : Markdown.bracesLast (Markdown.events tableBody) = true := by decide +kernel
  obtain ⟨compiled, run⟩ | ⟨cause, failed, -⟩ :=
    runs Syntax.standard Syntax.not_failsOn_standard tablePost fun other same => by
      obtain rfl := Except.ok.inj (found.symm.trans same)
      rw [eq_of_beq body]
      exact braces
  · exact ⟨_, compiled, made, run⟩
  · rw [read] at failed
    cases failed

end DocPress
