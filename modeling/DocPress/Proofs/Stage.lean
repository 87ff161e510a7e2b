import DocPress.Proofs.Footnote.Rename
import DocPress.Proofs.Highlight
import DocPress.Stage.Run

/-!
Running stages. Of the stages before the page none fails on a document, and of those behind it only
highlighting does. Captions may come before footnotes or behind them, and the ids of headings before
highlighting or behind it.
-/

namespace DocPress

open Syntax (Highlighter)

namespace Stage

variable {highlighter : Highlighter} {stage : Stage} {tree : Node}

/-- After a stage that succeeds the others run, with its warnings in front of theirs. -/
theorem runAll_cons_of_ok {result : Node × List Warning}
    (done : stage.apply highlighter tree = .ok result) (rest : List Stage) :
    runAll highlighter (stage :: rest) tree =
      (runAll highlighter rest result.1).map fun last =>
        (last.1, result.2.map (.ofWarning (some stage.name)) ++ last.2) := by
  simp only [runAll, run, done, bind, Except.bind]
  cases runAll highlighter rest result.1 <;> rfl

/-- After a stage that fails nothing runs. -/
theorem runAll_cons_of_error {cause : StageError} (failed : stage.apply highlighter tree = .error cause)
    (rest : List Stage) :
    runAll highlighter (stage :: rest) tree = .error ⟨stage.name, cause⟩ := by
  simp only [runAll, run, failed, bind, Except.bind]

theorem apply_footnotes (options : FootnoteOptions) (root : tree.kind = .document) :
    (footnotes options).apply highlighter tree = .ok (Footnote.apply options tree) := by
  rw [apply, if_pos root]

theorem apply_headingSlug : headingSlug.apply highlighter tree = .ok (HeadingId.apply tree) := rfl

theorem apply_highlight (strict : Bool) : (highlight strict).apply highlighter tree =
    (Highlight.apply highlighter strict tree).map (·, []) := rfl

/-! ### Failures -/

/-- A stage before the page makes a document of a document. -/
theorem exists_apply_pre (pre : stage.phase = .pre) (root : tree.kind = .document) :
    ∃ result, stage.apply highlighter tree = .ok result ∧ result.1.kind = .document := by
  cases stage with
  | codeTitle => exact ⟨_, rfl, by rw [Caption.kind_apply, root]; rfl⟩
  | footnotes options =>
      exact ⟨_, apply_footnotes options root, (Footnote.kind_apply options tree).trans root⟩
  | imageComponent sizes =>
      obtain ⟨kind, children⟩ := tree
      obtain rfl : kind = .document := root
      exact ⟨_, rfl, rfl⟩
  | headingSlug | highlight _ | minify => cases pre

/-- The stages before the page make a document of a document. -/
theorem exists_runAll_pre {stages : List Stage} (pre : ∀ stage ∈ stages, stage.phase = .pre)
    (root : tree.kind = .document) :
    ∃ result, runAll highlighter stages tree = .ok result ∧ result.1.kind = .document := by
  induction stages generalizing tree with
  | nil => exact ⟨_, rfl, root⟩
  | cons stage rest ih =>
      rw [List.forall_mem_cons] at pre
      obtain ⟨result, done, still⟩ := exists_apply_pre pre.1 root
      obtain ⟨last, behind, root⟩ := ih pre.2 still
      rw [runAll_cons_of_ok done, behind]
      exact ⟨_, rfl, root⟩

/-- Whether a stage leaves code alone that it cannot split. -/
def IsLax (stage : Stage) : Prop :=
  stage ≠ .highlight true

instance : DecidablePred IsLax := fun stage => inferInstanceAs (Decidable (stage ≠ .highlight true))

/-- A stage behind the page that is not strict fails only where a grammar does. -/
theorem exists_failsOn_of_apply {fault : StageError} (post : stage.phase = .post)
    (lax : stage.IsLax) (failed : stage.apply highlighter tree = .error fault) :
    ∃ language code, Highlight.FailsOn highlighter language code := by
  cases stage with
  | codeTitle | footnotes _ | imageComponent _ => cases post
  | headingSlug | minify => cases failed
  | highlight strict =>
      cases strict with
      | true => exact absurd rfl lax
      | false =>
          rw [apply_highlight, map_eq_error_iff] at failed
          exact Highlight.exists_failsOn failed

/-- Stages behind the page that are not strict fail only where a grammar does. -/
theorem exists_failsOn_of_runAll {stages : List Stage} {failure : StageFailure}
    (post : ∀ stage ∈ stages, stage.phase = .post) (lax : ∀ stage ∈ stages, stage.IsLax)
    (failed : runAll highlighter stages tree = .error failure) :
    ∃ language code, Highlight.FailsOn highlighter language code := by
  induction stages generalizing tree with
  | nil => cases failed
  | cons stage rest ih =>
      rw [List.forall_mem_cons] at post lax
      cases done : stage.apply highlighter tree with
      | error fault => exact exists_failsOn_of_apply post.1 lax.1 done
      | ok result =>
          rw [runAll_cons_of_ok done, map_eq_error_iff] at failed
          exact ih post.2 lax.2 failed

/-! ### Order -/

variable (highlighter) (rest : List Stage)

/-- Captions and footnotes may change places. -/
theorem runAll_codeTitle_footnotes (options : FootnoteOptions) (root : tree.kind = .document) :
    runAll highlighter (.codeTitle :: .footnotes options :: rest) tree =
      runAll highlighter (.footnotes options :: .codeTitle :: rest) tree := by
  have titled : (Caption.apply tree).kind = .document := by
    rw [Caption.kind_apply, root]
    rfl
  have caption (tree : Node) : codeTitle.apply highlighter tree = .ok (Caption.apply tree, []) := rfl
  rw [runAll_cons_of_ok (caption tree), runAll_cons_of_ok (apply_footnotes options titled),
    runAll_cons_of_ok (apply_footnotes options root), runAll_cons_of_ok (caption _),
    Footnote.apply_titled]
  cases runAll highlighter rest (Caption.apply (Footnote.apply options tree).1) <;> rfl

/-- The ids of headings and highlighting may change places. -/
theorem runAll_headingSlug_highlight (strict : Bool) (tree : Node) :
    runAll highlighter (.headingSlug :: .highlight strict :: rest) tree =
      runAll highlighter (.highlight strict :: .headingSlug :: rest) tree := by
  have same := HeadingId.apply_highlight highlighter strict tree
  rw [runAll_cons_of_ok apply_headingSlug]
  cases done : Highlight.apply highlighter strict tree with
  | error cause =>
      have failed : (highlight strict).apply highlighter tree = .error cause := by
        rw [apply_highlight, done]
        rfl
      have fails : (highlight strict).apply highlighter (HeadingId.apply tree).1 = .error cause := by
        rw [apply_highlight]
        cases late : Highlight.apply highlighter strict (HeadingId.apply tree).1 with
        | error other => rw [late, done] at same; cases same; rfl
        | ok other => rw [late, done] at same; cases same
      rw [runAll_cons_of_error failed, runAll_cons_of_error fails]
      rfl
  | ok first =>
      have succeeded : (highlight strict).apply highlighter tree = .ok (first, []) := by
        rw [apply_highlight, done]
        rfl
      obtain ⟨last, late, pair⟩ := map_eq_ok_iff.1 (same.trans (by rw [done]; rfl))
      have succeeds :
          (highlight strict).apply highlighter (HeadingId.apply tree).1 = .ok (last, []) := by
        rw [apply_highlight, late]
        rfl
      rw [runAll_cons_of_ok succeeded, runAll_cons_of_ok succeeds, runAll_cons_of_ok apply_headingSlug,
        ← pair]
      cases runAll highlighter rest last <;> rfl

end Stage

end DocPress
