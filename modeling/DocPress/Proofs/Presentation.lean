import DocPress.Proofs.Html.Expression
import DocPress.Proofs.Node.Json
import DocPress.Presentation

/-!
What artifacts of one tree show. An artifact whose template was made before it was kept and one
whose template is made when it is shown show the same page exactly when the text of the tree opens
no more brackets at once than are read.
-/

namespace DocPress

/-! ### Making the template later -/

/-- The template of a tree is made again from the text of the tree, unless the text opens too many
brackets at once. -/
theorem hydrate_write (tree : Node) :
    if tree.toJson.depth ≤ Json.usualDepth then hydrate tree.write = .ok (Html.emit tree)
    else ∃ cause, hydrate tree.write = .error (.hydrate cause) := by
  have parsed := Node.parse_write tree
  by_cases shallow : tree.toJson.depth ≤ Json.usualDepth
  · rw [if_pos shallow] at parsed ⊢
    rw [hydrate, parsed]
  · rw [if_neg shallow] at parsed ⊢
    obtain ⟨cause, failed⟩ := parsed
    exact ⟨cause, by rw [hydrate, failed]⟩

/-- A page that was asked for from a template never fails for want of a tree. -/
theorem invoke_ne_hydrate (code : String) (props : Props) (cause : TreeError) :
    invoke code props ≠ .error (.hydrate cause) := by
  rw [invoke]
  intro same
  cases page : (Template.parse code >>= fun template =>
    template.render (props.mapValues Html.escape)) with
  | ok text => simp [page, Except.mapError] at same
  | error fault => simp [page, Except.mapError] at same

variable {identifier : String} {metadata : Metadata} {tree : Node}

theorem present_ne_hydrate (code : String) (props : Props) (cause : TreeError) :
    Artifact.present ⟨identifier, metadata, .precompiled, code⟩ props ≠ .error (.hydrate cause) :=
  invoke_ne_hydrate code _ cause

/-- What is kept of a tree whose template can be read: the template. -/
theorem code_of_compile {kept : Artifact}
    (compiled : Artifact.compile .precompiled identifier metadata tree = .ok kept) :
    kept = ⟨identifier, metadata, .precompiled, Html.emit tree⟩ := by
  rw [Artifact.compile, compileCode] at compiled
  split at compiled
  · exact (Except.ok.inj compiled).symm
  · cases compiled

/-- A tree whose expressions have names and whose raw HTML does not end in a brace is compiled. -/
theorem compile_of_isPlainKind (identifier : String) (metadata : Metadata)
    (plain : Node.Every Html.IsPlainKind tree) :
    Artifact.compile .precompiled identifier metadata tree =
      .ok ⟨identifier, metadata, .precompiled, Html.emit tree⟩ := by
  rw [Artifact.compile, compileCode, Html.emit, Html.parse_write (Html.isPlainPage_markup plain)]
  rfl

/-- Where the text of a tree opens too many brackets, nothing is shown of what is kept of it for
later, whatever the values. -/
theorem present_onDemand_of_deep (identifier : String) (metadata : Metadata)
    (deep : ¬tree.toJson.depth ≤ Json.usualDepth) (props : Props) :
    ∃ cause, Artifact.present ⟨identifier, metadata, .onDemand, tree.write⟩ props =
      .error (.hydrate cause) := by
  have hydrated := hydrate_write tree
  rw [if_neg deep] at hydrated
  obtain ⟨cause, failed⟩ := hydrated
  refine ⟨cause, ?_⟩
  rw [Artifact.present]
  simp only [failed]
  rfl

/-! ### Nested block quotes -/

/-- A paragraph inside a number of block quotes. -/
def nestedQuotes : Nat → Node
  | 0 => ⟨.paragraph, [.text "x"]⟩
  | n + 1 => ⟨.blockQuote, [nestedQuotes n]⟩

/-- A node without attributes around a tree opens two brackets more. -/
theorem depth_toJson_around {kind : NodeKind} (bare : kind.fields = []) (node : Node) :
    (Node.mk kind [node]).toJson.depth = node.toJson.depth + 2 := by
  rw [Node.toJson_mk, bare]
  simp [Node.childrenField, Node.toJsons, Json.depth, Json.depthFields, Json.depthAll]

theorem depth_nestedQuotes (n : Nat) : (nestedQuotes n).toJson.depth = 2 * n + 3 := by
  induction n with
  | zero => decide
  | succ n ih =>
      rw [nestedQuotes, depth_toJson_around rfl, ih]
      omega

/-- How many brackets are open at once in the text of a document of nested block quotes. -/
theorem depth_document_nestedQuotes (n : Nat) :
    (Node.document [nestedQuotes n]).toJson.depth = 2 * n + 5 := by
  rw [Node.document, depth_toJson_around rfl, depth_nestedQuotes]

theorem isPlainKind_nestedQuotes (n : Nat) : Node.Every Html.IsPlainKind (nestedQuotes n) := by
  induction n with
  | zero => simp [nestedQuotes, Node.text, Node.leaf, Html.IsPlainKind]
  | succ n ih => simpa [nestedQuotes, Html.IsPlainKind] using ih

theorem isPlainKind_document_nestedQuotes (n : Nat) :
    Node.Every Html.IsPlainKind (Node.document [nestedQuotes n]) := by
  simpa [Node.document, Html.IsPlainKind] using isPlainKind_nestedQuotes n

/-! ### Artifacts of one tree -/

/-- A tree that can be compiled before it is kept can be compiled on demand too, and the two
artifacts show the same page for all values exactly when the text of the tree opens no more brackets
at once than are read. -/
theorem present_onDemand_iff {kept : Artifact}
    (compiled : Artifact.compile .precompiled identifier metadata tree = .ok kept) :
    ∃ late, Artifact.compile .onDemand identifier metadata tree = .ok late ∧
      ∀ props, late.present props = kept.present props ↔ tree.toJson.depth ≤ Json.usualDepth := by
  refine ⟨⟨identifier, metadata, .onDemand, tree.write⟩, rfl, fun props => ?_⟩
  rw [code_of_compile compiled]
  have hydrated := hydrate_write tree
  by_cases shallow : tree.toJson.depth ≤ Json.usualDepth
  · rw [if_pos shallow] at hydrated
    simp only [Artifact.present, hydrated, shallow, iff_true]
    rfl
  · obtain ⟨cause, failed⟩ := present_onDemand_of_deep identifier metadata shallow props
    rw [failed]
    simp only [shallow, iff_false]
    exact fun same => present_ne_hydrate _ _ cause same.symm

/-- As many block quotes as can be read back show the same page either way. -/
theorem present_onDemand_quoted :
    let tree := Node.document [nestedQuotes 61]
    ∃ kept late, Artifact.compile .precompiled "quotes" .empty tree = .ok kept ∧
      Artifact.compile .onDemand "quotes" .empty tree = .ok late ∧
      late.present .empty = kept.present .empty := by
  have compiled := compile_of_isPlainKind "quotes" .empty (isPlainKind_document_nestedQuotes 61)
  obtain ⟨late, made, shows⟩ := present_onDemand_iff compiled
  refine ⟨_, late, compiled, made, (shows .empty).2 ?_⟩
  rw [depth_document_nestedQuotes]
  decide

/-- One block quote more, and only the artifact that was made before it was kept shows a page. -/
theorem present_onDemand_quoted_ne :
    let tree := Node.document [nestedQuotes 62]
    ∃ kept late, Artifact.compile .precompiled "quotes" .empty tree = .ok kept ∧
      Artifact.compile .onDemand "quotes" .empty tree = .ok late ∧
      late.present .empty ≠ kept.present .empty := by
  have compiled := compile_of_isPlainKind "quotes" .empty (isPlainKind_document_nestedQuotes 62)
  have deep : ¬(Node.document [nestedQuotes 62]).toJson.depth ≤ Json.usualDepth := by
    rw [depth_document_nestedQuotes]
    decide
  obtain ⟨cause, failed⟩ := present_onDemand_of_deep "quotes" .empty deep .empty
  refine ⟨_, _, compiled, rfl, ?_⟩
  rw [failed]
  exact fun same => present_ne_hydrate _ _ cause same.symm

end DocPress
