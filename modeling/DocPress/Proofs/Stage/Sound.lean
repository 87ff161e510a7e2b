import DocPress.Proofs.Footnote.Sound
import DocPress.Proofs.Stage

/-!
Stages over sound trees. Every stage leaves a sound tree sound, whatever stages ran before it.
-/

namespace DocPress

open Node
open Syntax (Highlighter)

variable {written : Bool}

/-! ### Captions -/

namespace Caption

/-- A code block may be replaced by one with a title. -/
theorem replaces_titled (kind : NodeKind) : kind.Replaces (titled kind) := by
  cases code : kind.isUntitledCode with
  | false =>
      rw [titled_eq_self code]
      exact .refl kind
  | true =>
      cases kind <;> cases code
      rcases titled_codeBlock _ _ _ with same | ⟨title, language, same⟩ <;> rw [same]
      · exact .refl _
      · exact .of_isClosed rfl trivial rfl rfl rfl

mutual

theorem replaces_apply : ∀ node : Node, Replaces written [node] [apply node]
  | ⟨kind, children⟩ => .node (replaces_titled kind) (replaces_applyAll children)

theorem replaces_applyAll : ∀ nodes : List Node, Replaces written nodes (mapKindsAll titled nodes)
  | [] => .refl []
  | node :: rest => .cons (replaces_apply node) (replaces_applyAll rest)

end

end Caption

/-! ### Images and headings -/

namespace Picture

mutual

/-- Giving images their sizes keeps a tree sound. -/
theorem replaces_apply (sizes : Catalog ImageSize) :
    ∀ node : Node, Replaces written [node] [apply sizes node]
  | ⟨kind, children⟩ => by
      cases kind with
      | image url title =>
          exact .of_isClosed List.mem_cons_self rfl rfl rfl fun _ => isSound_leaf trivial
      | _ => exact .node (.refl _) (replaces_applyAll sizes children)

theorem replaces_applyAll (sizes : Catalog ImageSize) :
    ∀ nodes : List Node, Replaces written nodes (applyAll sizes nodes)
  | [] => .refl []
  | node :: rest => .cons (replaces_apply sizes node) (replaces_applyAll sizes rest)

end

end Picture

namespace HeadingId

mutual

/-- Giving ids keeps a tree sound. -/
theorem replaces_assign : ∀ (taken : List String) (node : Node),
    Replaces written [node] [(assign taken node).1]
  | taken, ⟨kind, children⟩ => by
      cases unnamed : kind.isUnnamedHeading with
      | false =>
          rw [assign_other unnamed]
          exact .node (.refl kind) (replaces_assignAll taken children)
      | true =>
          have named (level : UInt8) (id : String) :
              NodeKind.Replaces (.heading level none) (.heading level (some id)) :=
            .of_isClosed rfl trivial rfl rfl rfl
          unfold NodeKind.isUnnamedHeading at unnamed
          split at unnamed
          · exact .node (named _ _) (replaces_assignAll _ children)
          · cases unnamed

theorem replaces_assignAll : ∀ (taken : List String) (nodes : List Node),
    Replaces written nodes (assignAll taken nodes).1
  | _, [] => .refl []
  | taken, node :: rest => .cons (replaces_assign taken node) (replaces_assignAll _ rest)

end

end HeadingId

/-! ### Code -/

namespace Highlight

variable {highlighter : Highlighter} {strict : Bool}

/-- The node of a token is sound anywhere. -/
theorem isSound_tokenNode (token : Syntax.Token) (last : Bool) :
    IsSound written last (tokenNode token) := by
  obtain ⟨cls, text⟩ := token
  cases cls with
  | none => exact isSound_leaf trivial
  | some name =>
      exact isSound_mk.2
        ⟨trivial, holdsParts rfl _, areSound_singleton.2 (isSound_leaf trivial)⟩

/-- The nodes of tokens are sound anywhere. -/
theorem areSound_tokenNodes {last : Bool} (tokens : List Syntax.Token) :
    AreSound written last (tokens.map tokenNode) := by
  induction tokens with
  | nil => exact areSound_nil
  | cons token rest ih => exact areSound_cons.2 ⟨isSound_tokenNode token _, ih⟩

/-- Code may get tokens in place of what it has below it. -/
theorem replaces_tokens {kind : NodeKind} (code : kind.isCode = true) {children : List Node}
    (tokens : List Syntax.Token) :
    Replaces written [⟨kind, children⟩] [⟨kind, tokens.map tokenNode⟩] := by
  have inside := @areSound_tokenNodes written true tokens
  cases kind <;> cases code <;> exact .of_isClosed List.mem_cons_self rfl rfl rfl
    fun _ => isSound_mk.2 ⟨trivial, holdsParts rfl _, inside⟩

mutual

/-- Highlighting keeps a tree sound. -/
theorem replaces_apply : ∀ {node tree : Node}, apply highlighter strict node = .ok tree →
    Replaces written [node] [tree]
  | ⟨kind, children⟩, tree, done => by
      obtain ⟨language, code, target, tokens, -, rfl⟩ | ⟨-, others, below, rfl⟩ := apply_cases done
      · exact replaces_tokens (isTarget_of_target? target).isCode tokens
      · exact .node (.refl kind) (replaces_applyAll below)

theorem replaces_applyAll : ∀ {nodes trees : List Node},
    applyAll highlighter strict nodes = .ok trees → Replaces written nodes trees
  | [], trees, done => by
      cases done
      exact .refl []
  | node :: rest, trees, done => by
      obtain ⟨first, others, here, behind, rfl⟩ := applyAll_cons_eq_ok.1 done
      exact .cons (replaces_apply here) (replaces_applyAll behind)

end

end Highlight

/-! ### Tidying up -/

namespace Minify

/-- Merging texts keeps trees sound. -/
theorem replaces_mergeTexts (nodes : List Node) : Replaces written nodes (mergeTexts nodes) := by
  fun_induction mergeTexts nodes with
  | case1 => exact .refl []
  | case2 rest value children next other more merged ih =>
      rw [merged] at ih
      have dropped : (⟨.text value, children⟩ :: more).Sublist
          (⟨.text value, children⟩ :: ⟨.text next, other⟩ :: more) :=
        (List.sublist_cons_self _ more).cons_cons _
      exact .trans (.cons (.refl _) ih) (.trans (.of_sublist dropped)
        (.cons (.node (.text _ _) (.refl _)) (.refl _)))
  | case3 rest node other ih => exact .cons (.refl _) ih

/-- Collapsing a text keeps it sound. -/
theorem replaces_collapseText (node : Node) : Replaces written [node] [collapseText node] := by
  unfold collapseText
  split
  · exact .node (.text _ _) (.refl _)
  · exact .refl _

/-- Dropping texts leaves the other nodes in order. -/
theorem keep_sublist (parent : NodeKind) (inCode : Bool) (before : Option Node) (nodes : List Node) :
    (keep parent inCode before nodes).Sublist nodes := by
  induction nodes generalizing before with
  | nil => exact .slnil
  | cons node rest ih =>
      rw [keep]
      split
      · exact (ih _).cons_cons node
      · exact (ih _).cons node

/-- Tidying children keeps them sound. -/
theorem replaces_tidy (parent : NodeKind) (inCode : Bool) (nodes : List Node) :
    Replaces written nodes (tidy parent inCode nodes) := by
  refine (replaces_mergeTexts nodes).trans ?_
  rw [tidy]
  refine .trans ?_ (.of_sublist (keep_sublist _ _ _ _))
  split
  · exact .refl _
  · exact .map fun node _ => replaces_collapseText node

mutual

/-- Minifying keeps a tree sound. -/
theorem replaces_minify : ∀ (inCode : Bool) (node : Node),
    Replaces written [node] [minify inCode node]
  | _, ⟨kind, children⟩ =>
      .node (.refl kind) ((replaces_spliced _ children).trans (replaces_tidy kind _ _))

/-- A fragment may be dissolved, since its markup is that of its children. -/
theorem replaces_spliced : ∀ (inCode : Bool) (nodes : List Node),
    Replaces written nodes (spliced inCode nodes)
  | _, [] => .refl []
  | inCode, node :: rest => by
      rw [spliced]
      refine .trans (.cons (replaces_minify inCode node) (.refl rest)) ?_
      refine @Replaces.append written [minify inCode node] _ _ _ ?_ (replaces_spliced inCode rest)
      split
      · next fragment => exact .of_fragment fragment
      · exact .refl _

end

theorem replaces_apply (node : Node) : Replaces written [node] [apply node] :=
  replaces_minify false node

end Minify

/-! ### Stages -/

namespace Stage

variable {highlighter : Highlighter} {stage : Stage} {tree : Node} {result : Node × List Warning}

/-- A stage that succeeds leaves a sound tree sound. -/
theorem isSound_of_apply (done : stage.apply highlighter tree = .ok result)
    (sound : IsSound written true tree) : IsSound written true result.1 := by
  have replaced {tree' : Node} (replaces : Replaces written [tree] [tree']) :
      IsSound written true tree' :=
    areSound_singleton.1 (replaces.sound (areSound_singleton.2 sound))
  cases stage with
  | codeTitle =>
      cases done
      exact replaced (Caption.replaces_apply tree)
  | footnotes options =>
      rw [Stage.apply] at done
      split at done
      · next root =>
          cases done
          exact Footnote.isSound_apply options root sound
      · cases done
  | imageComponent sizes =>
      cases done
      exact replaced (Picture.replaces_apply sizes tree)
  | headingSlug =>
      cases done
      exact replaced (HeadingId.replaces_assign _ tree)
  | highlight strict =>
      rw [apply_highlight, map_eq_ok_iff] at done
      obtain ⟨last, done, rfl⟩ := done
      exact replaced (Highlight.replaces_apply done)
  | minify =>
      cases done
      exact replaced (Minify.replaces_apply tree)

/-- Stages that succeed leave a sound tree sound, in any order. -/
theorem isSound_of_runAll {stages : List Stage} {result : Node × List Diagnostic}
    (done : runAll highlighter stages tree = .ok result) (sound : IsSound written true tree) :
    IsSound written true result.1 := by
  induction stages generalizing tree result with
  | nil =>
      cases done
      exact sound
  | cons stage rest ih =>
      cases here : stage.apply highlighter tree with
      | error cause =>
          rw [runAll_cons_of_error here] at done
          cases done
      | ok first =>
          rw [runAll_cons_of_ok here, map_eq_ok_iff] at done
          obtain ⟨last, behind, rfl⟩ := done
          exact @ih _ last behind (isSound_of_apply here sound)

end Stage

end DocPress
