import DocPress.Proofs.Metadata.Typed
import DocPress.Proofs.Pipeline
import DocPress.Proofs.Presentation
import DocPress.Proofs.Stage

/-!
The default backends. They run their stages in different orders, but make the same page of a document.
-/

namespace DocPress

open Syntax (Highlighter)

namespace Pipeline

/-- The page of a tree, and warnings. -/
def finish (pipeline : Pipeline) (tree : Node) : Except PipelineError (Node × List Diagnostic) := do
  let (tree, before) ← (pipeline.pre.run pipeline.highlighter tree).mapError .transform
  let tree ← (Page.render pipeline.flat tree).mapError .page
  let (tree, after) ← (pipeline.post.run pipeline.highlighter tree).mapError .transform
  return (tree, before ++ after)

/-- A pipeline with another highlighter. -/
def withHighlighter (highlighter : Highlighter) (pipeline : Pipeline) : Pipeline :=
  { pipeline with highlighter }

/-- The page of a body is the page of its tree. -/
theorem readBody_eq (pipeline : Pipeline) (body : String) :
    pipeline.readBody body =
      (Node.ofMarkdown pipeline.recognizers body).mapError .body >>= pipeline.finish := rfl

/-- A markdown text is a document. -/
theorem kind_of_ofMarkdown {recognizers : List Recognizer} {body : String} {tree : Node}
    (built : Node.ofMarkdown recognizers body = .ok tree) : tree.kind = .document := by
  rw [Node.ofMarkdown, Node.ofEvents, bind_eq_ok_iff] at built
  obtain ⟨builder, -, built⟩ := built
  split at built
  · cases built; rfl
  · cases built

variable {pipeline : Pipeline} {tree : Node}

/-- The page of a document without strict stages fails in the making of the page alone, unless a
grammar fails. -/
theorem finish_eq_error {error : PipelineError} (lax : ∀ stage ∈ pipeline.post.stages, stage.IsLax)
    (root : tree.kind = .document) (failed : pipeline.finish tree = .error error) :
    (∃ cause, error = .page cause) ∨
      ∃ language code, Highlight.FailsOn pipeline.highlighter language code := by
  have pre : ∀ stage ∈ pipeline.pre.stages, stage.phase = .pre := fun stage member =>
    (pipeline.pre.placed stage member).trans pipeline.pre_phase
  have post : ∀ stage ∈ pipeline.post.stages, stage.phase = .post := fun stage member =>
    (pipeline.post.placed stage member).trans pipeline.post_phase
  obtain ⟨⟨document, before⟩, done, -⟩ :
      ∃ result, Stage.runAll pipeline.highlighter pipeline.pre.stages tree = .ok result ∧
        result.1.kind = .document := Stage.exists_runAll_pre pre root
  rw [finish, Chain.run, done, bind_eq_error_iff] at failed
  obtain impossible | ⟨_, ⟨⟩, failed⟩ := failed
  · cases impossible
  · rw [bind_eq_error_iff] at failed
    obtain unmade | ⟨page, -, failed⟩ := failed
    · obtain ⟨cause, -, rfl⟩ := mapError_eq_error_iff.1 unmade
      exact .inl ⟨cause, rfl⟩
    · rw [bind_eq_error_iff] at failed
      obtain unfinished | ⟨_, -, impossible⟩ := failed
      · obtain ⟨cause, failed, -⟩ := mapError_eq_error_iff.1 unfinished
        exact .inr (Stage.exists_failsOn_of_runAll post lax failed)
      · cases impossible

/-- Two pipelines with fields of the same names and types read the same of a header. -/
theorem readHeader_agree {first second : Pipeline} {document : Document}
    (same : first.schema.fields = second.schema.fields)
    {one two : Metadata × String × List Diagnostic} (read : first.readHeader document = .ok one)
    (other : second.readHeader document = .ok two) : one = two := by
  rw [readHeader, bind_eq_ok_iff] at read other
  obtain ⟨extracted, found, read⟩ := read
  obtain ⟨extracted', found', other⟩ := other
  obtain rfl := extract_agree same found found'
  rw [bind_eq_ok_iff] at read other
  obtain ⟨-, -, read⟩ := read
  obtain ⟨-, -, other⟩ := other
  have missing : first.schema.missingOptional extracted.metadata =
      second.schema.missingOptional extracted.metadata := by
    rw [Schema.missingOptional, same, Schema.missingOptional]
  rw [missing] at read
  exact Except.ok.inj (read.symm.trans other)

/-- Pipelines that make the same page of every document make the same page of every text. -/
theorem readBody_eq_of_finish {first second : Pipeline}
    (pages : ∀ tree, tree.kind = .document → first.finish tree = second.finish tree)
    (recognizers : first.recognizers = second.recognizers) (body : String) :
    first.readBody body = second.readBody body := by
  rw [readBody_eq, readBody_eq, recognizers]
  cases built : Node.ofMarkdown second.recognizers body with
  | error cause => rfl
  | ok tree => exact pages tree (kind_of_ofMarkdown built)

/-- What two pipelines make of a document that both of them take, if they make the same page of every
document. -/
theorem run_agree {first second : Pipeline} {document : Document} {one two : Compiled}
    (run : first.run document = .ok one) (other : second.run document = .ok two)
    (fields : first.schema.fields = second.schema.fields)
    (recognizers : first.recognizers = second.recognizers)
    (pages : ∀ tree, tree.kind = .document → first.finish tree = second.finish tree) :
    one.diagnostics = two.diagnostics ∧ ∃ metadata tree,
      Artifact.compile first.strategy document.identifier metadata tree = .ok one.artifact ∧
      Artifact.compile second.strategy document.identifier metadata tree = .ok two.artifact := by
  obtain ⟨metadata, body, warnings, tree, more, artifact, header, page, made, rfl⟩ :=
    run_eq_ok_iff.1 run
  obtain ⟨metadata', body', warnings', tree', more', artifact', header', page', made', rfl⟩ :=
    run_eq_ok_iff.1 other
  cases readHeader_agree fields header header'
  rw [readBody_eq_of_finish pages recognizers] at page
  cases Except.ok.inj (page.symm.trans page')
  exact ⟨rfl, metadata, tree, made, made'⟩

/-- Pipelines with the same outcomes of their stages make the same pages. -/
theorem finish_congr {first second : Pipeline} (highlighter : first.highlighter = second.highlighter)
    (flat : first.flat = second.flat)
    (pre : Stage.runAll second.highlighter first.pre.stages tree =
      Stage.runAll second.highlighter second.pre.stages tree)
    (post : ∀ tree, Stage.runAll second.highlighter first.post.stages tree =
      Stage.runAll second.highlighter second.post.stages tree) :
    first.finish tree = second.finish tree := by
  simp only [finish, Chain.run, highlighter, flat, pre, post]

/-! ### The default backends -/

/-- The pipeline of the first default backend. -/
def mdxBundler : Pipeline :=
  .ofBackend .default "mdx-bundler"
    ⟨.precompiled, none, [.footnotes {}, .codeTitle, .imageComponent .empty],
      [.highlight false, .headingSlug, .minify]⟩
    (Backend.misplaced?_eq_none_iff.1 (by decide))

/-- The pipeline of the default backend that compiles on demand. -/
def nextMdxRemote : Pipeline :=
  .ofBackend .default "next-mdx-remote" (.standard .onDemand)
    (Backend.misplaced?_eq_none_iff.1 (by decide))

/-- The pipeline of the default backend that refuses undeclared metadata. -/
def contentlayer : Pipeline :=
  .ofBackend .default "contentlayer" { Backend.standard .precompiled with strictMetadata := some true }
    (Backend.misplaced?_eq_none_iff.1 (by decide))

theorem ofConfig_mdxBundler : ofConfig .default "mdx-bundler" = .ok mdxBundler :=
  ofConfig_eq_ok rfl _

theorem ofConfig_nextMdxRemote : ofConfig .default "next-mdx-remote" = .ok nextMdxRemote :=
  ofConfig_eq_ok rfl _

theorem ofConfig_contentlayer : ofConfig .default "contentlayer" = .ok contentlayer :=
  ofConfig_eq_ok rfl _

/-- The orders of the stages of the default backends come to the same. -/
theorem finish_mdxBundler (highlighter : Highlighter) (root : tree.kind = .document) :
    finish (mdxBundler.withHighlighter highlighter) tree = finish (contentlayer.withHighlighter highlighter) tree := by
  refine finish_congr rfl rfl ?pre ?post
  case pre => exact (Stage.runAll_codeTitle_footnotes highlighter _ {} root).symm
  case post => exact fun tree => (Stage.runAll_headingSlug_highlight highlighter _ false tree).symm

theorem finish_nextMdxRemote (highlighter : Highlighter) (tree : Node) :
    finish (nextMdxRemote.withHighlighter highlighter) tree = finish (contentlayer.withHighlighter highlighter) tree :=
  finish_congr rfl rfl rfl fun _ => rfl

theorem lax_contentlayer {highlighter : Highlighter} :
    ∀ stage ∈ (contentlayer.withHighlighter highlighter).post.stages, stage.IsLax := by
  change ∀ stage ∈ Backend.standardPost, stage.IsLax
  decide

end Pipeline

/-- What is shown of a template that was made early is shown of its tree, exactly when the text of the
tree opens no more brackets at once than are read. -/
theorem present_write_iff (identifier : String) (metadata : Metadata) (tree : Node) (props : Props) :
    Artifact.present ⟨identifier, metadata, .onDemand, tree.write⟩ props =
        Artifact.present ⟨identifier, metadata, .precompiled, Html.emit tree⟩ props ↔
      tree.toJson.depth ≤ Json.usualDepth := by
  by_cases shallow : tree.toJson.depth ≤ Json.usualDepth
  · have hydrated := hydrate_write tree
    rw [if_pos shallow] at hydrated
    simp only [shallow, iff_true, Artifact.present, hydrated]
    rfl
  · obtain ⟨cause, failed⟩ := present_onDemand_of_deep identifier metadata shallow props
    rw [failed]
    simp only [shallow, iff_false]
    exact fun same => present_ne_hydrate _ _ cause same.symm

/-! ### Posts of nested block quotes -/

/-- The text of as many block quotes inside each other. -/
def quotesText (n : Nat) : String :=
  String.ofList ((List.replicate n ['>', ' ']).flatten ++ ['x', '\n'])

/-- The header of a post. -/
def quotesHeader : String :=
  "---\ntitle: Quotes\ndate: 2023-01-01\n---\n"

/-- A post of as many block quotes inside each other. -/
def quotesPost (n : Nat) : Document :=
  ⟨"quotes", "---\ntitle: Quotes\ndate: 2023-01-01\n---\n" ++ quotesText n⟩

namespace Pipeline

variable {n : Nat}

/-- Whether a pipeline reads the header of the post. -/
def readsQuotes (pipeline : Pipeline) (n : Nat) : Bool :=
  (pipeline.readHeader (quotesPost n)).toOption.any fun read => read.2.1 == quotesText n

/-- The header of the post is read alike in front of any body. -/
theorem readsQuotes_of_reads {pipeline : Pipeline}
    (reads : (pipeline.readHeader ⟨"quotes", quotesHeader⟩).toOption.any fun read => read.2.1 == "") (n : Nat) :
    pipeline.readsQuotes n = true := by
  have closed : Header.split quotesHeader.toList =
      .ok (some ⟨.yaml, "title: Quotes\ndate: 2023-01-01\n".toList, 4, []⟩) := rfl
  obtain ⟨⟨metadata, body, warnings⟩, read, empty⟩ := exists_ok_of_any reads
  obtain rfl : body = "" := eq_of_beq empty
  have post : pipeline.readHeader (quotesPost n) = .ok (metadata, "" ++ quotesText n, warnings) := by
    rw [show quotesPost n = ⟨"quotes", quotesHeader ++ quotesText n⟩ from rfl,
      readHeader_append pipeline _ (by decide) closed, read]
    rfl
  rw [readsQuotes, post]
  simp [Except.toOption]

theorem readsQuotes_mdxBundler (n : Nat) : mdxBundler.readsQuotes n = true :=
  readsQuotes_of_reads (by decide +kernel) n

theorem readsQuotes_contentlayer (n : Nat) : contentlayer.readsQuotes n = true :=
  readsQuotes_of_reads (by decide +kernel) n

/-- Whether the post becomes block quotes inside each other. -/
def makesQuotes (pipeline : Pipeline) (n : Nat) : Bool :=
  (pipeline.readBody (quotesText n)).toOption.any fun made => made.1 == .document [nestedQuotes n]

/-- The code of the artifact for the post. -/
def quotesCode (n : Nat) : Strategy → String
  | .precompiled => Html.emit (.document [nestedQuotes n])
  | .onDemand => (Node.document [nestedQuotes n]).write

/-- What a pipeline makes of the post. -/
theorem exists_run_quotes {pipeline : Pipeline} (reads : pipeline.readsQuotes n = true)
    (makes : pipeline.makesQuotes n = true) :
    ∃ compiled metadata, pipeline.run (quotesPost n) = .ok compiled ∧
      compiled.artifact =
        ⟨"quotes", metadata, pipeline.strategy, quotesCode n pipeline.strategy⟩ := by
  obtain ⟨⟨metadata, text, warnings⟩, read, same⟩ := exists_ok_of_any reads
  obtain rfl : text = quotesText n := eq_of_beq same
  obtain ⟨⟨tree, more⟩, made, same⟩ := exists_ok_of_any makes
  obtain rfl : tree = .document [nestedQuotes n] := eq_of_beq same
  have code : Artifact.compile pipeline.strategy "quotes" metadata (.document [nestedQuotes n]) =
      .ok ⟨"quotes", metadata, pipeline.strategy, quotesCode n pipeline.strategy⟩ := by
    cases pipeline.strategy with
    | precompiled => exact compile_of_isPlainKind _ _ (isPlainKind_document_nestedQuotes n)
    | onDemand => rfl
  exact ⟨_, metadata, run_eq_ok_iff.2 ⟨metadata, _, warnings, _, more, _, read, made, code, rfl⟩, rfl⟩

/-- What the default backends make of the post, if one of them makes the page. -/
theorem exists_runs_quotes (n : Nat) (makes : contentlayer.makesQuotes n = true) :
    ∃ a b c, mdxBundler.run (quotesPost n) = .ok a ∧ nextMdxRemote.run (quotesPost n) = .ok b ∧
      contentlayer.run (quotesPost n) = .ok c ∧
      (∃ metadata, b.artifact = ⟨"quotes", metadata, .onDemand, quotesCode n .onDemand⟩) ∧
      ∃ metadata, c.artifact = ⟨"quotes", metadata, .precompiled, quotesCode n .precompiled⟩ := by
  have pages (tree : Node) (root : tree.kind = .document) :
      mdxBundler.finish tree = contentlayer.finish tree := finish_mdxBundler Syntax.standard root
  have bundles : mdxBundler.makesQuotes n = true := by
    rw [makesQuotes, readBody_eq_of_finish pages rfl]
    exact makes
  have reads := readsQuotes_mdxBundler n
  obtain ⟨a, -, bundled, -⟩ := exists_run_quotes reads bundles
  obtain ⟨b, metadata, remote, late⟩ := @exists_run_quotes n nextMdxRemote reads makes
  obtain ⟨c, metadata', layered, early⟩ := exists_run_quotes (readsQuotes_contentlayer n) makes
  exact ⟨a, b, c, bundled, remote, layered, ⟨metadata, late⟩, metadata', early⟩

end Pipeline

open Pipeline (finish)

/-- The default backends make the same page of every tree of a document and give the same warnings,
or fail with the same error, which arises where tables are expanded unless a grammar fails. Documents
that all of them take are shown alike by the two that compile before documents are kept, and by the
other one as well exactly when the text of the page opens no more brackets at once than are read. -/
theorem default_backends_agree (highlighter : Highlighter) :
    ∃ bundler remote layer, Pipeline.ofConfig .default "mdx-bundler" = .ok bundler ∧
      Pipeline.ofConfig .default "next-mdx-remote" = .ok remote ∧
      Pipeline.ofConfig .default "contentlayer" = .ok layer ∧
      (∀ tree, tree.kind = .document →
        finish (bundler.withHighlighter highlighter) tree = finish (layer.withHighlighter highlighter) tree ∧
        finish (remote.withHighlighter highlighter) tree = finish (layer.withHighlighter highlighter) tree ∧
        ∀ error, finish (layer.withHighlighter highlighter) tree = .error error →
          (∃ cause, error = .page cause) ∨
            ∃ language code, Highlight.FailsOn highlighter language code) ∧
      ∀ document a b c, Pipeline.run (bundler.withHighlighter highlighter) document = .ok a →
        Pipeline.run (remote.withHighlighter highlighter) document = .ok b →
        Pipeline.run (layer.withHighlighter highlighter) document = .ok c →
        a.diagnostics = c.diagnostics ∧ b.diagnostics = c.diagnostics ∧
        a.artifact = c.artifact ∧ ∃ tree : Node, b.artifact.code = tree.write ∧
          ∀ props, b.artifact.present props = c.artifact.present props ↔
            tree.toJson.depth ≤ Json.usualDepth := by
  refine ⟨_, _, _, Pipeline.ofConfig_mdxBundler, Pipeline.ofConfig_nextMdxRemote,
    Pipeline.ofConfig_contentlayer, fun tree root => ⟨?_, ?_, fun error failed => ?_⟩,
    fun document a b c bundled remote layered => ?_⟩
  · exact Pipeline.finish_mdxBundler highlighter root
  · exact Pipeline.finish_nextMdxRemote highlighter tree
  · exact Pipeline.finish_eq_error Pipeline.lax_contentlayer root failed
  · obtain ⟨same, metadata, tree, made, layer⟩ := Pipeline.run_agree bundled layered rfl rfl
      fun tree root => Pipeline.finish_mdxBundler highlighter root
    obtain ⟨same', metadata', tree', late, layer'⟩ := Pipeline.run_agree remote layered rfl rfl
      fun tree _ => Pipeline.finish_nextMdxRemote highlighter tree
    refine ⟨same, same', Except.ok.inj (made.symm.trans layer), tree', ?_, fun props => ?_⟩
    · rw [← Except.ok.inj late]
    · rw [← Except.ok.inj late, code_of_compile layer']
      exact present_write_iff _ _ _ props

set_option maxRecDepth 10000 in
/-- The default backends make the same page of a block quote. -/
theorem default_backends_quote :
    ∃ bundler remote layer a b c, Pipeline.ofConfig .default "mdx-bundler" = .ok bundler ∧
      Pipeline.ofConfig .default "next-mdx-remote" = .ok remote ∧
      Pipeline.ofConfig .default "contentlayer" = .ok layer ∧
      finish bundler (.document []) = finish layer (.document []) ∧
      bundler.run (quotesPost 1) = .ok a ∧ remote.run (quotesPost 1) = .ok b ∧
      layer.run (quotesPost 1) = .ok c ∧ a.artifact = c.artifact := by
  obtain ⟨bundler, remote, layer, one, two, three, pages, agree⟩ :=
    default_backends_agree Syntax.standard
  obtain rfl := Except.ok.inj (Pipeline.ofConfig_mdxBundler.symm.trans one)
  obtain rfl := Except.ok.inj (Pipeline.ofConfig_nextMdxRemote.symm.trans two)
  obtain rfl := Except.ok.inj (Pipeline.ofConfig_contentlayer.symm.trans three)
  obtain ⟨a, b, c, bundled, remote, layered, -⟩ :=
    Pipeline.exists_runs_quotes 1 (by decide +kernel)
  exact ⟨_, _, _, a, b, c, one, two, three, (pages _ rfl).1, bundled, remote, layered,
    (agree _ a b c bundled remote layered).2.2.1⟩

set_option maxRecDepth 10000 in
/-- A post of more block quotes than can be read back is taken by the default backends, but the one
that compiles on demand does not show it as the others do. -/
theorem default_backends_quotes_ne :
    ∃ bundler remote layer a b c, Pipeline.ofConfig .default "mdx-bundler" = .ok bundler ∧
      Pipeline.ofConfig .default "next-mdx-remote" = .ok remote ∧
      Pipeline.ofConfig .default "contentlayer" = .ok layer ∧
      bundler.run (quotesPost 62) = .ok a ∧ remote.run (quotesPost 62) = .ok b ∧
      layer.run (quotesPost 62) = .ok c ∧
      b.artifact.present .empty ≠ c.artifact.present .empty := by
  obtain ⟨a, b, c, bundled, remote, layered, ⟨metadata, late⟩, metadata', early⟩ :=
    Pipeline.exists_runs_quotes 62 (by decide +kernel)
  refine ⟨_, _, _, a, b, c, Pipeline.ofConfig_mdxBundler, Pipeline.ofConfig_nextMdxRemote,
    Pipeline.ofConfig_contentlayer, bundled, remote, layered, ?_⟩
  have deep : ¬(Node.document [nestedQuotes 62]).toJson.depth ≤ Json.usualDepth := by
    rw [depth_document_nestedQuotes]
    decide
  obtain ⟨cause, failed⟩ := present_onDemand_of_deep "quotes" metadata deep .empty
  have lost : b.artifact.present .empty = .error (.hydrate cause) := by
    rw [late]
    exact failed
  rw [lost, early]
  exact fun same => present_ne_hydrate _ _ cause same.symm

end DocPress
