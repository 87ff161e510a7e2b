import DocPress.Proofs.Footnote.Count
import DocPress.Proofs.HeadingId

/-!
Landmarks of numbered documents: the items of the list, each once and in the order of their numbers,
headings that were in the document before, and cross references.
-/

namespace DocPress

open Node

/-- The number of an item of the list of notes. -/
def NodeKind.itemNumber? : NodeKind → Option UInt64
  | .footnoteItem _ number => some number
  | _ => none

namespace Footnote

/-- A document without numbers becomes one whose list has the notes of some of its labels, and in
which there are neither items nor references elsewhere. -/
theorem exists_settled (options : FootnoteOptions) {document : Node} (root : document.kind = .document)
    (fresh : document.Every fun kind => kind.isListing = false ∧ kind.crossReference? = none) :
    ∃ body items labels, Numbered (apply options document).1 body items labels ∧
      EveryAll NodeKind.isSettled body ∧ (∀ item ∈ items, EveryAll NodeKind.isSettled item.children) ∧
      labels ⊆ noteLabels options document := by
  obtain ⟨below, notes⟩ := collect_unnumbered options fresh
  let warnings : List Warning := (firsts [] (notesAll document.children)).2.map .duplicateFootnote
  have unnumbered := unnumbered_ofList options notes
  have kind := (collect_kind options document).trans root
  obtain ⟨text, list⟩ := linked_of_unnumbered unnumbered below warnings
  refine ⟨_, _, _, numbered_of_unnumbered unnumbered kind below warnings, text.settled,
    list.contents, ?_⟩
  refine List.Subset.trans ((text.links.append list.links).subset_known (List.nil_subset _)) ?_
  exact labels_listed_ofList options _

/-- Nodes among which there are no items have no numbers of items. -/
theorem itemNumbers_of_settled {nodes : List Node} (settled : EveryAll NodeKind.isSettled nodes) :
    (landmarksAll nodes).filterMap NodeKind.itemNumber? = [] := by
  rw [List.filterMap_eq_nil_iff]
  intro kind member
  have plain := (settled kind ((landmarksAll_sublist nodes).subset member)).1
  cases kind <;> first | rfl | cases plain

/-- Items have their own numbers alone. -/
theorem itemNumbers_items {items : List Node}
    (settled : ∀ item ∈ items, EveryAll NodeKind.isSettled item.children)
    (shown : ∀ item ∈ items, ∃ label number, item.kind = .footnoteItem label number) :
    (landmarksAll items).filterMap NodeKind.itemNumber? =
      (items.map (·.kind)).filterMap NodeKind.itemNumber? := by
  induction items with
  | nil => rfl
  | cons item rest ih =>
      rw [List.forall_mem_cons] at settled shown
      obtain ⟨kind, children⟩ := item
      obtain ⟨label, number, same⟩ := shown.1
      obtain rfl : kind = .footnoteItem label number := same
      have own : landmarks ⟨.footnoteItem label number, children⟩ =
          [.footnoteItem label number] ++ landmarksAll children := landmarks_mk _ _
      rw [landmarksAll_cons, List.filterMap_append, ih settled.2 shown.2, own, List.filterMap_append,
        itemNumbers_of_settled settled.1]
      rfl

theorem itemNumbers_itemKinds (labels : List String) :
    (itemKinds labels).filterMap NodeKind.itemNumber? =
      (List.range' 1 labels.length).map UInt64.ofNat := by
  have each : NodeKind.itemNumber? ∘
      (fun entry : String × Nat => NodeKind.footnoteItem entry.1 (UInt64.ofNat (entry.2 + 1))) =
      some ∘ fun entry => UInt64.ofNat (entry.2 + 1) := rfl
  rw [itemKinds, List.mapIdx_eq_zipIdx_map, List.filterMap_map, each, List.filterMap_eq_map]
  apply List.ext_getElem
  · simp
  · intro i first second
    simp [Nat.add_comm]

/-- The numbers of the items that are shown of a numbered document count from one, and the other
landmarks are those of its text and of the contents of its items. -/
theorem itemNumbers_numbered {document : Node} {body items : List Node} {labels : List String}
    (numbered : Numbered document body items labels) (root : document.kind = .document)
    (text : EveryAll NodeKind.isSettled body)
    (contents : ∀ item ∈ items, EveryAll NodeKind.isSettled item.children) :
    document.landmarks.filterMap NodeKind.itemNumber? =
      (List.range' 1 labels.length).map UInt64.ofNat := by
  have shown : ∀ item ∈ items, ∃ label number, item.kind = .footnoteItem label number := by
    intro item member
    have kind : item.kind ∈ itemKinds labels := numbered.listed ▸ List.mem_map_of_mem member
    obtain ⟨i, bound, same⟩ := List.mem_mapIdx.1 kind
    exact ⟨_, _, same.symm⟩
  have list : landmarksAll (if items.isEmpty then [] else [⟨.footnoteList, items⟩]) =
      landmarksAll items := by
    split
    · next empty => rw [List.isEmpty_iff.1 empty]
    · rw [landmarksAll_cons, landmarks_eq_landmarksAll rfl rfl, landmarksAll_nil, List.append_nil]
  obtain ⟨kind, children⟩ := document
  obtain rfl : kind = .document := root
  obtain rfl : children = _ := numbered.children
  rw [landmarks_eq_landmarksAll rfl rfl, landmarksAll_append, list, List.filterMap_append,
    itemNumbers_of_settled text, itemNumbers_items contents shown, numbered.listed,
    itemNumbers_itemKinds, List.nil_append]

/-! ### What is kept -/

variable {options : FootnoteOptions} {document : Node}

/-- What no node of a document has, no node of the numbered one has. -/
theorem every_apply {p : NodeKind → Bool} (apart : IsApart p) (long : options.inlineShort = false)
    (root : document.kind = .document)
    (fresh : document.Every fun kind => kind.isListing = false ∧ kind.crossReference? = none)
    (none : document.Every fun kind => p kind = false) :
    (apply options document).1.Every fun kind => p kind = false := by
  have fewer := count_apply_le apart long root fresh
  have before : document.countWhere p = 0 := by
    rw [countWhere, List.countP_eq_zero]
    intro kind member holds
    rw [none kind member] at holds
    cases holds
  rw [before, Nat.le_zero, countWhere, List.countP_eq_zero] at fewer
  exact fun kind member => Bool.eq_false_iff.2 (fewer kind member)

/-- Distinct ids of headings stay distinct. -/
theorem nodup_given_apply (long : options.inlineShort = false) (root : document.kind = .document)
    (fresh : document.Every fun kind => kind.isListing = false ∧ kind.crossReference? = none)
    (distinct : (HeadingId.given document).Nodup) :
    (HeadingId.given (apply options document).1).Nodup := by
  have count (node : Node) (id : String) : (HeadingId.given node).count id =
      node.countWhere fun kind => (kind.headingId?.map (· == id)).getD false := by
    rw [HeadingId.given_eq, List.count, List.countP_filterMap]
    rfl
  rw [List.nodup_iff_count_le_one] at distinct ⊢
  intro id
  have apart : IsApart fun kind => (kind.headingId?.map (· == id)).getD false := fun kind part => by
    cases kind <;> first | rfl | cases part
  rw [count]
  exact Nat.le_trans (count_apply_le apart long root fresh) (count document id ▸ distinct id)

end Footnote

end DocPress
