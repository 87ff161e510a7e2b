import DocPress.Proofs.Footnote.Shape
import DocPress.Proofs.Landmark.Page
import DocPress.Proofs.Node.Written
import DocPress.Proofs.Pipeline.Link

/-!
References on the pages of the default backends. Their numbers are first met in the order one, two,
three, and there is one to every item, as long as no image hides a reference.
-/

namespace DocPress

open Node Html

/-! ### References that are shown -/

/-- The cross references that are shown of a tree, in document order. -/
def Node.shownReferences (node : Node) : List (String × UInt64) :=
  node.landmarks.filterMap NodeKind.crossReference?

/-- Whether the images in a tree have no cross references below them. -/
def Node.HidesNoReference (tree : Node) : Prop :=
  ∀ node ∈ tree.walk, node.kind.isImage = true → crossReferencesAll node.children = []

theorem filterMap_landmark_crossReference? (kind : NodeKind) :
    kind.landmark?.toList.filterMap NodeKind.crossReference? = kind.crossReference?.toList := by
  cases kind <;> rfl

theorem crossReferences_mk (kind : NodeKind) (children : List Node) :
    crossReferences ⟨kind, children⟩ = kind.crossReference?.toList ++ crossReferencesAll children := by
  rw [crossReferences, kinds_mk, List.filterMap_cons, crossReferencesAll]
  cases kind.crossReference? <;> rfl

mutual

/-- All cross references of a tree are shown, if it has the shape of a written one and no image hides
one. -/
theorem shownReferences_eq : ∀ {node : Node}, HasShape node → node.HidesNoReference →
    node.shownReferences = node.crossReferences
  | ⟨kind, children⟩, shape, hides => by
      obtain ⟨fits, below⟩ := hasShape_mk.1 shape
      rw [shownReferences, landmarks_mk, List.filterMap_append, filterMap_landmark_crossReference?,
        crossReferences_mk]
      refine congrArg _ ?_
      split
      · next hidden =>
          cases image : kind.isImage with
          | true => exact (hides _ List.mem_cons_self image).symm
          | false =>
              have bare : kind.isBare = true := by rw [NodeKind.isBare, hidden, image]; rfl
              rw [List.map_eq_nil_iff.1 (fits.bare bare)]
              rfl
      · exact shownReferencesAll_eq below fun node member => hides node (List.mem_cons_of_mem _ member)

theorem shownReferencesAll_eq : ∀ {nodes : List Node}, HaveShape nodes →
    (∀ node ∈ walkAll nodes, node.kind.isImage = true → crossReferencesAll node.children = []) →
    (landmarksAll nodes).filterMap NodeKind.crossReference? = crossReferencesAll nodes
  | [], _, _ => rfl
  | node :: rest, shape, hides => by
      rw [haveShape_cons] at shape
      rw [walkAll, List.forall_mem_append] at hides
      have here := shownReferences_eq shape.1 hides.1
      rw [shownReferences] at here
      rw [landmarksAll_cons, List.filterMap_append, here, shownReferencesAll_eq shape.2 hides.2,
        crossReferencesAll, crossReferencesAll, kindsAll_cons, List.filterMap_append, crossReferences]

end

/-- The numbers of the references on a page are those of the cross references that are shown. -/
theorem numbers_references {page : Node} (known : ∀ kind ∈ page.landmarks, kind.isCustom = false) :
    (references (markup page)).map (·.number) =
      page.shownReferences.map fun reference => toString reference.2.toNat := by
  rw [references_markup known, shownReferences, List.map_filterMap, List.map_filterMap]
  refine List.filterMap_congr fun kind _ => ?_
  cases kind <;> rfl

/-! ### Pages -/

theorem Pipeline.kind_prepared {tree : Node} (root : tree.kind = .document) :
    (prepared tree).kind = .document := by
  have titled : (Caption.apply (Footnote.apply {} tree).1).kind = .document := by
    rw [Caption.kind_apply, Footnote.kind_apply, root]
    rfl
  rw [prepared]
  generalize Caption.apply (Footnote.apply {} tree).1 = captioned at titled
  obtain ⟨kind, children⟩ := captioned
  obtain rfl : kind = .document := titled
  rfl

/-- The page that a default backend makes of a written document has the landmarks of the numbered
document, in order. -/
theorem Pipeline.exists_render_prepared (flat : Bool) {tree : Node} (written : tree.IsWritten) :
    ∃ page, Page.render flat (prepared tree) = .ok page ∧
      page.landmarks = (Footnote.apply {} tree).1.landmarks := by
  have shape : (prepared tree).HasShape := Picture.hasShape_apply .empty
    (Caption.hasShape_apply (Footnote.hasShape_apply {} written.shape written.root))
  obtain ⟨page, rendered, same⟩ := Page.exists_render_landmarks flat (kind_prepared written.root) shape
  refine ⟨page, rendered, ?_⟩
  rw [same, prepared, Picture.landmarks_apply, Caption.landmarks_apply]

/-- The numbers of cross references, where each is first met, are written as the numbers from one on. -/
theorem eraseDups_toString {references : List (String × UInt64)} {n : Nat}
    (count : (references.map (·.2.toNat)).eraseDups = List.range' 1 n) :
    (references.map fun reference => toString reference.2.toNat).eraseDups =
      (List.range' 1 n).map toString := by
  have whole : references.map (fun reference => toString reference.2.toNat) =
      (references.map (·.2.toNat)).map toString := by
    rw [List.map_map]
    rfl
  rw [whole, Footnote.eraseDups_map fun _ _ _ _ same => Text.eq_of_toString_eq same, count]

example : ([("b", 1), ("a", 2), ("b", 1)].map fun reference : String × UInt64 =>
    toString reference.2.toNat).eraseDups = ["1", "2"] := by
  decide +kernel

/-- On the page that a default backend makes of a written document, before the stages behind it, the
items have the ids with the numbers from one on, there is a reference to each of them, and the numbers
that references show are first met in order, as long as no image hides a reference. -/
theorem default_page_references_in_order {name : String} {pipeline : Pipeline}
    (made : Pipeline.ofConfig .default name = .ok pipeline) {tree : Node} (written : tree.IsWritten)
    (few : (Footnote.noteLabels {} tree).length < UInt64.size)
    (seen : (Footnote.apply {} tree).1.HidesNoReference) :
    ∃ staged diagnostics page n,
      pipeline.pre.run pipeline.highlighter tree = .ok (staged, diagnostics) ∧
        Page.render pipeline.flat staged = .ok page ∧
        itemIds (markup page) = (List.range' 1 n).map itemId ∧
        (∀ k, 1 ≤ k → k ≤ n → ∃ reference ∈ references (markup page),
          reference.target = "#" ++ itemId k) ∧
        ((references (markup page)).map (·.number)).eraseDups = (List.range' 1 n).map toString := by
  obtain ⟨diagnostics, staged⟩ := Pipeline.exists_run_pre made written.root
  obtain ⟨page, rendered, same⟩ := Pipeline.exists_render_prepared pipeline.flat written
  obtain ⟨body, items, labels, numbered, text, contents, inside⟩ :=
    Footnote.exists_settled {} written.root written.fresh
  have short : labels.length < UInt64.size :=
    Nat.lt_of_le_of_lt (numbered.distinct.subperm inside).length_le few
  have apart : Footnote.IsApart NodeKind.isCustom := fun kind part => by
    cases kind <;> first | rfl | cases part
  have long : ({} : FootnoteOptions).inlineShort = false := rfl
  have noCustom := Footnote.every_apply apart long written.root written.fresh written.known
  have plain : ∀ kind ∈ page.landmarks, kind.isCustom = false := by
    intro kind member
    rw [same] at member
    exact noCustom kind ((landmarks_sublist _).subset member)
  have shown : page.shownReferences = (Footnote.apply {} tree).1.crossReferences := by
    rw [shownReferences, same]
    exact shownReferences_eq (Footnote.hasShape_apply {} written.shape written.root) seen
  have count := numbered.ordinals short
  refine ⟨_, diagnostics, page, labels.length, staged, rendered, ?_, ?_, ?_⟩
  · rw [itemIds_of_landmarks (anchors_markup plain), same, Footnote.itemNumbers_numbered numbered
      ((Footnote.kind_apply {} tree).trans written.root) text contents, List.map_map]
    refine List.map_congr_left fun k member => ?_
    rw [List.mem_range'_1] at member
    rw [Function.comp_apply, UInt64.toNat_ofNat_of_lt' (by omega)]
  · intro k low high
    have met : k ∈ (page.shownReferences.map (·.2.toNat)).eraseDups := by
      rw [shown, count, List.mem_range'_1]
      omega
    rw [List.mem_eraseDups, List.mem_map] at met
    obtain ⟨⟨label, number⟩, known, rfl⟩ := met
    obtain ⟨kind, member, found⟩ := List.mem_filterMap.1 known
    refine ⟨⟨"#" ++ itemId number.toNat, toString number.toNat⟩, ?_, rfl⟩
    rw [references_markup plain, List.mem_filterMap]
    refine ⟨kind, member, ?_⟩
    cases kind <;> cases found
    rw [itemId, ← String.append_assoc]
    rfl
  · rw [numbers_references plain, shown, eraseDups_toString count]

theorem isWritten_headedDocument (heading : String) : (headedDocument heading).IsWritten where
  root := rfl
  shape := by
    simp only [headedDocument, Node.document, Node.text, leaf, hasShape_mk, haveShape_cons,
      haveShape_nil, and_true]
    refine ⟨fits_of_shows rfl rfl _, ⟨fits_of_shows rfl rfl _, fits_nil _⟩,
      ⟨fits_of_shows rfl rfl _, fits_nil _, fits_nil _⟩, fits_of_shows rfl rfl _,
      fits_of_shows rfl rfl _, fits_nil _⟩
  plain := by
    simp [headedDocument, Node.document, Node.text, leaf, NodeKind.IsPlain, NodeKind.isListing,
      NodeKind.crossReference?, NodeKind.isCustom]

/-- The page of a document with a heading and a note has the one item and the reference to it. -/
theorem default_page_references_headed :
    ∃ pipeline, Pipeline.ofConfig .default "contentlayer" = .ok pipeline ∧
      (headedDocument "Notes").IsWritten ∧
      (Footnote.noteLabels {} (headedDocument "Notes")).length < UInt64.size ∧
      (Footnote.apply {} (headedDocument "Notes")).1.HidesNoReference ∧
      ∃ staged diagnostics page n,
        pipeline.pre.run pipeline.highlighter (headedDocument "Notes") = .ok (staged, diagnostics) ∧
          Page.render pipeline.flat staged = .ok page ∧
          itemIds (markup page) = (List.range' 1 n).map itemId ∧
          (∀ k, 1 ≤ k → k ≤ n → ∃ reference ∈ references (markup page),
            reference.target = "#" ++ itemId k) ∧
          ((references (markup page)).map (·.number)).eraseDups = (List.range' 1 n).map toString := by
  have few : (Footnote.noteLabels {} (headedDocument "Notes")).length < UInt64.size := by
    decide +kernel
  have seen : (Footnote.apply {} (headedDocument "Notes")).1.HidesNoReference := by
    unfold HidesNoReference
    decide +kernel
  exact ⟨_, Pipeline.ofConfig_contentlayer, isWritten_headedDocument "Notes", few, seen,
    default_page_references_in_order Pipeline.ofConfig_contentlayer
      (isWritten_headedDocument "Notes") few seen⟩

/-- A document with a note in the text of an image. -/
def picturedDocument : Node :=
  .document [⟨.paragraph, [⟨.image "u" "", [.text "alt ^[note]"]⟩]⟩]

theorem isWritten_picturedDocument : picturedDocument.IsWritten where
  root := rfl
  shape := by
    simp only [picturedDocument, Node.document, Node.text, leaf, hasShape_mk, haveShape_cons,
      haveShape_nil, and_true]
    exact ⟨fits_of_shows rfl rfl _, fits_of_shows rfl rfl _,
      ⟨fun bare => (by cases bare), fun table => (by cases table)⟩, fits_nil _⟩
  plain := by
    simp [picturedDocument, Node.document, Node.text, leaf, NodeKind.IsPlain, NodeKind.isListing,
      NodeKind.crossReference?, NodeKind.isCustom]

/-- The note is listed, but the reference to it is not on the page. -/
theorem default_page_without_reference :
    picturedDocument.IsWritten ∧
      ∃ staged diagnostics page,
        Pipeline.contentlayer.pre.run Pipeline.contentlayer.highlighter picturedDocument =
            .ok (staged, diagnostics) ∧
          Page.render Pipeline.contentlayer.flat staged = .ok page ∧
          itemIds (markup page) = [itemId 1] ∧ references (markup page) = [] := by
  obtain ⟨diagnostics, staged⟩ :=
    Pipeline.exists_run_pre Pipeline.ofConfig_contentlayer isWritten_picturedDocument.root
  obtain ⟨page, rendered, same⟩ : ∃ page,
      Page.render Pipeline.contentlayer.flat (Pipeline.prepared picturedDocument) = .ok page ∧
        decide (itemIds (markup page) = [itemId 1] ∧ references (markup page) = []) = true :=
    exists_ok_of_any (by decide +kernel)
  exact ⟨isWritten_picturedDocument, _, diagnostics, page, staged, rendered, of_decide_eq_true same⟩

end DocPress
