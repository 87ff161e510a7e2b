import DocPress.Proofs.Stage.Sound

/-!
Landmarks: the nodes of a tree that links on its page start at or lead to, in so far as they are shown.
Behind the numbering of footnotes no stage makes, moves or loses one.
-/

namespace DocPress

namespace NodeKind

/-- Whether the markup of the kind is without that of its children. -/
def hidesChildren : NodeKind → Bool
  | .text _ | .inlineCode _ | .image .. | .imageComponent .. | .thematicBreak | .softBreak | .hardBreak
  | .html _ | .footnoteReference _ | .brokenReference _ | .footnoteCrossReference .. | .expression _ =>
    true
  | _ => false

/-- The kind, if links start at it or lead to it. An element with a name of its own may be anything. -/
def landmark? : NodeKind → Option NodeKind
  | .heading level id => some (.heading level id)
  | .footnoteDefinition label => some (.footnoteDefinition label)
  | .footnoteCrossReference label ordinal => some (.footnoteCrossReference label ordinal)
  | .footnoteItem label ordinal => some (.footnoteItem label ordinal)
  | .custom name attributes => some (.custom name attributes)
  | _ => none

end NodeKind

namespace Node

mutual

/-- The landmarks that are shown of a tree, in document order. -/
def landmarks : Node → List NodeKind
  | ⟨kind, children⟩ =>
    kind.landmark?.toList ++ if kind.hidesChildren then [] else landmarksAll children

/-- The landmarks that are shown of trees, in document order. -/
def landmarksAll : List Node → List NodeKind
  | [] => []
  | node :: rest => node.landmarks ++ landmarksAll rest

end

variable {kind : NodeKind} {children : List Node}

theorem landmarks_mk (kind : NodeKind) (children : List Node) :
    landmarks ⟨kind, children⟩ =
      kind.landmark?.toList ++ if kind.hidesChildren then [] else landmarksAll children := by
  rw [landmarks]

@[simp] theorem landmarksAll_nil : landmarksAll [] = [] := rfl

@[simp] theorem landmarksAll_cons (node : Node) (rest : List Node) :
    landmarksAll (node :: rest) = node.landmarks ++ landmarksAll rest := by
  rw [landmarksAll]

@[simp] theorem landmarksAll_append (first second : List Node) :
    landmarksAll (first ++ second) = landmarksAll first ++ landmarksAll second := by
  induction first with
  | nil => rfl
  | cons node rest ih =>
      rw [List.cons_append, landmarksAll_cons, ih, landmarksAll_cons, List.append_assoc]

/-- A node that is no landmark and hides nothing has the landmarks below it. -/
theorem landmarks_eq_landmarksAll (none : kind.landmark? = .none) (shows : kind.hidesChildren = false)
    (children : List Node) : landmarks ⟨kind, children⟩ = landmarksAll children := by
  rw [landmarks_mk, none, shows]
  rfl

/-- A node that is no landmark and hides what is below it has none. -/
theorem landmarks_eq_nil (none : kind.landmark? = .none) (hides : kind.hidesChildren = true)
    (children : List Node) : landmarks ⟨kind, children⟩ = [] := by
  rw [landmarks_mk, none, hides]
  rfl

/-- Nodes of the same kind with the same landmarks below them have the same landmarks. -/
theorem landmarks_congr {others : List Node} (kind : NodeKind)
    (same : landmarksAll children = landmarksAll others) :
    landmarks ⟨kind, children⟩ = landmarks ⟨kind, others⟩ := by
  rw [landmarks_mk, landmarks_mk, same]

/-- The landmarks of trees that are changed one by one, when none of the changes makes or loses one. -/
theorem landmarksAll_map {f : Node → Node} {nodes : List Node}
    (same : ∀ node ∈ nodes, (f node).landmarks = node.landmarks) :
    landmarksAll (nodes.map f) = landmarksAll nodes := by
  induction nodes with
  | nil => rfl
  | cons node rest ih =>
      rw [List.forall_mem_cons] at same
      rw [List.map_cons, landmarksAll_cons, landmarksAll_cons, same.1, ih same.2]

theorem landmark?_eq_some {other : NodeKind} (found : kind.landmark? = some other) : other = kind := by
  cases kind <;> first | exact (Option.some.inj found).symm | cases found

mutual

/-- Landmarks are among the nodes of a tree. -/
theorem landmarks_sublist : ∀ node : Node, node.landmarks.Sublist node.kinds
  | ⟨kind, children⟩ => by
      have own : kind.landmark?.toList.Sublist [kind] := by
        cases found : kind.landmark? with
        | none => exact List.nil_sublist _
        | some other =>
            rw [landmark?_eq_some found]
            exact List.Sublist.refl _
      rw [landmarks_mk, kinds_mk]
      refine own.append ?_
      split
      · exact List.nil_sublist _
      · exact landmarksAll_sublist children

theorem landmarksAll_sublist : ∀ nodes : List Node, (landmarksAll nodes).Sublist (kindsAll nodes)
  | [] => List.Sublist.refl _
  | node :: rest => by
      rw [landmarksAll_cons, kindsAll_cons]
      exact (landmarks_sublist node).append (landmarksAll_sublist rest)

end

theorem landmarks_text (value : String) (children : List Node) :
    landmarks ⟨.text value, children⟩ = [] :=
  landmarks_eq_nil rfl rfl children

end Node

open Node

/-! ### Captions and images -/

namespace Caption

/-- A title is no landmark. -/
theorem landmarks_titled (kind : NodeKind) (children : List Node) :
    landmarks ⟨titled kind, children⟩ = landmarks ⟨kind, children⟩ := by
  rw [landmarks_mk, landmarks_mk,
    congr_titled NodeKind.landmark? (fun _ _ _ => rfl) (fun _ _ _ => rfl),
    congr_titled NodeKind.hidesChildren (fun _ _ _ => rfl) (fun _ _ _ => rfl)]

mutual

/-- Giving titles keeps the landmarks of a tree. -/
theorem landmarks_apply : ∀ node : Node, (apply node).landmarks = node.landmarks
  | ⟨kind, children⟩ => by
      rw [apply_mk, landmarks_titled]
      exact landmarks_congr kind (landmarksAll_apply children)

theorem landmarksAll_apply : ∀ nodes : List Node,
    landmarksAll (nodes.map apply) = landmarksAll nodes
  | [] => rfl
  | node :: rest => by
      rw [List.map_cons, landmarksAll_cons, landmarksAll_cons, landmarks_apply node,
        landmarksAll_apply rest]

end

end Caption

namespace Picture

variable (sizes : Catalog ImageSize)

mutual

/-- What is inside an image is not shown before it becomes a text, nor then. -/
theorem landmarks_apply : ∀ node : Node, (apply sizes node).landmarks = node.landmarks
  | ⟨kind, children⟩ => by
      cases kind with
      | image url title =>
          rw [landmarks_eq_nil rfl rfl children]
          exact landmarks_eq_nil rfl rfl []
      | _ => exact landmarks_congr _ (landmarksAll_apply children)

theorem landmarksAll_apply : ∀ nodes : List Node,
    landmarksAll (applyAll sizes nodes) = landmarksAll nodes
  | [] => rfl
  | node :: rest => by
      rw [applyAll, landmarksAll_cons, landmarksAll_cons, landmarks_apply node,
        landmarksAll_apply rest]

end

end Picture

/-! ### Highlighting -/

namespace Highlight

open Syntax (Highlighter Token)

variable {highlighter : Highlighter} {strict : Bool}

/-- There are no landmarks among tokens. -/
theorem landmarks_tokenNodes (tokens : List Token) :
    landmarksAll (tokens.map tokenNode) = [] := by
  induction tokens with
  | nil => rfl
  | cons token rest ih =>
      have own : (tokenNode token).landmarks = [] := by
        obtain ⟨cls, text⟩ := token
        cases cls <;> rfl
      rw [List.map_cons, landmarksAll_cons, own, ih]
      rfl

mutual

/-- Highlighting keeps the landmarks of a tree. -/
theorem landmarks_apply : ∀ {node tree : Node}, apply highlighter strict node = .ok tree →
    tree.landmarks = node.landmarks
  | ⟨kind, children⟩, tree, done => by
      obtain ⟨language, code, target, tokens, -, rfl⟩ | ⟨-, nodes, below, rfl⟩ := apply_cases done
      · obtain ⟨-, rfl, -⟩ := isTarget_of_target? target
        exact landmarks_congr kind (landmarks_tokenNodes tokens)
      · exact landmarks_congr kind (landmarksAll_apply below)

theorem landmarksAll_apply : ∀ {nodes trees : List Node},
    applyAll highlighter strict nodes = .ok trees → landmarksAll trees = landmarksAll nodes
  | [], trees, done => by
      cases done
      rfl
  | node :: rest, trees, done => by
      obtain ⟨first, others, here, behind, rfl⟩ := applyAll_cons_eq_ok.1 done
      rw [landmarksAll_cons, landmarksAll_cons, landmarks_apply here, landmarksAll_apply behind]

end

end Highlight

/-! ### Tidying up -/

namespace Minify

theorem landmarksAll_mergeTexts (nodes : List Node) :
    landmarksAll (mergeTexts nodes) = landmarksAll nodes := by
  fun_induction mergeTexts nodes with
  | case1 => rfl
  | case2 rest value children next other more merged ih =>
      rw [merged, landmarksAll_cons, landmarks_text, List.nil_append] at ih
      rw [landmarksAll_cons, landmarksAll_cons, landmarks_text, landmarks_text, ih]
  | case3 rest node other ih => rw [landmarksAll_cons, landmarksAll_cons, ih]

/-- Collapsing a text keeps the landmarks. -/
theorem landmarks_collapseText (node : Node) : (collapseText node).landmarks = node.landmarks := by
  unfold collapseText
  split
  · rw [landmarks_text, landmarks_text]
  · rfl

/-- A node that does not stay is a text. -/
theorem landmarks_of_not_stays {parent : NodeKind} {inCode : Bool} {before after : Option Node}
    {child : Node} (goes : ¬stays parent inCode before after child = true) : child.landmarks = [] := by
  obtain ⟨kind, children⟩ := child
  unfold stays at goes
  split at goes
  · next value same =>
      obtain rfl : kind = .text value := same
      exact landmarks_text value children
  · exact absurd rfl goes

theorem landmarksAll_keep (parent : NodeKind) (inCode : Bool) (before : Option Node)
    (nodes : List Node) : landmarksAll (keep parent inCode before nodes) = landmarksAll nodes := by
  induction nodes generalizing before with
  | nil => rfl
  | cons child rest ih =>
      rw [keep]
      split
      · rw [landmarksAll_cons, landmarksAll_cons, ih]
      · next goes => rw [landmarksAll_cons, landmarks_of_not_stays goes, ih, List.nil_append]

theorem landmarksAll_tidy (parent : NodeKind) (inCode : Bool) (nodes : List Node) :
    landmarksAll (tidy parent inCode nodes) = landmarksAll nodes := by
  rw [tidy, landmarksAll_keep]
  split
  · exact landmarksAll_mergeTexts nodes
  · rw [landmarksAll_map fun node _ => landmarks_collapseText node, landmarksAll_mergeTexts]

mutual

/-- Minifying keeps the landmarks of a tree. -/
theorem landmarks_minify : ∀ (inCode : Bool) (node : Node),
    (minify inCode node).landmarks = node.landmarks
  | inCode, ⟨kind, children⟩ => by
      rw [minify]
      refine landmarks_congr kind ?_
      rw [landmarksAll_tidy, landmarksAll_spliced]

/-- What is shown of a fragment is what is shown of its children. -/
theorem landmarksAll_spliced : ∀ (inCode : Bool) (nodes : List Node),
    landmarksAll (spliced inCode nodes) = landmarksAll nodes
  | _, [] => rfl
  | inCode, node :: rest => by
      have own := landmarks_minify inCode node
      rw [spliced, landmarksAll_append, landmarksAll_cons, landmarksAll_spliced inCode rest, ← own]
      split
      · next fragment =>
          generalize minify inCode node = tidied at fragment
          obtain ⟨kind, children⟩ := tidied
          obtain rfl : kind = .fragment := fragment
          rw [landmarks_eq_landmarksAll rfl rfl]
      · rw [landmarksAll_cons, landmarksAll_nil, List.append_nil]

end

theorem landmarks_apply (node : Node) : (apply node).landmarks = node.landmarks :=
  landmarks_minify false node

end Minify

end DocPress
