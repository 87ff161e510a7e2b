import DocPress.Stage.Run
import DocPress.Proofs.Footnote.Number

/-!
Documents with numbered footnotes. The stage for footnotes turns any document into one: no reference
and no definition is left, the numbers are first met in the order one, two, three, and the list at
the end has an item for each of them. Every item is referred to, in the text or in an item before
it, so that notes that are reached from no text are not listed.
-/

namespace DocPress

/-- The cross references of a tree in document order. -/
def Node.crossReferences (node : Node) : List (String × UInt64) :=
  node.kinds.filterMap (·.crossReference?)

namespace Footnote

open Node

/-- A document whose footnotes are numbered. `body` is what stands before the list, `items` are the
items of the list, and `labels` are the labels of the notes in the order of their numbers. -/
structure Numbered (document : Node) (body items : List Node) (labels : List String) : Prop where
  /-- The list comes last, and there is one if it has items. -/
  children : document.children = body ++ if items.isEmpty then [] else [⟨.footnoteList, items⟩]
  /-- There is no other list, neither in the text nor in the items. -/
  oneList : EveryAll (· ≠ .footnoteList) (body ++ items)
  /-- No reference without a number and no definition is left. -/
  resolved : document.Every fun kind => kind.isReference = false ∧ kind.isDefinition = false
  distinct : labels.Nodup
  /-- The items have the labels and the numbers from one on. -/
  listed : items.map (·.kind) = itemKinds labels
  /-- The cross references, each at its first occurrence, lead to the items one after the other. -/
  references : document.crossReferences.eraseDups =
    labels.mapIdx fun i label => (label, UInt64.ofNat (i + 1))
  /-- The numbers alone, each at its first occurrence; a number is one of 64 bits. -/
  ordinals : labels.length < UInt64.size →
    (document.crossReferences.map (·.2.toNat)).eraseDups = List.range' 1 labels.length
  /-- Every item is referred to in the text or in an item before it. -/
  reached : ∀ i label, labels[i]? = some label →
    label ∈ (crossReferencesAll (body ++ items.take i)).map (·.1)

/-! ### Documents to be numbered -/

/-- The tree that is numbered and its notes: definitions are taken out, and notes written in place
are lifted where this is wanted. -/
def collect (options : FootnoteOptions) (document : Node) : Node × List Note :=
  let tree : Node := ⟨document.kind, stripAll document.children⟩
  let notes := (firsts [] (notesAll document.children)).1
  if options.inlineNotes then liftDocument tree notes else (tree, notes)

@[simp] theorem collect_kind (options : FootnoteOptions) (document : Node) :
    (collect options document).1.kind = document.kind := by
  unfold collect
  split
  · exact liftDocument_kind _ _
  · rfl

/-- What holds of all kinds in a document holds of those in the tree and the notes collected from it,
which have no definitions, if it holds of texts, paragraphs and references as well. -/
theorem collect_every {p : NodeKind → Prop} (options : FootnoteOptions) {document : Node}
    (allows : AllowsLifting fun kind => p kind ∧ kind.isDefinition = false) (every : document.Every p) :
    EveryAll (fun kind => p kind ∧ kind.isDefinition = false) (collect options document).1.children ∧
      EveryNote (fun kind => p kind ∧ kind.isDefinition = false) (collect options document).2 := by
  have tree := stripAll_every document.children every.children
  have notes : EveryNote (fun kind => p kind ∧ kind.isDefinition = false)
      (firsts [] (notesAll document.children)).1 := fun note member =>
    notesAll_every document.children every.children note (firsts_subset _ _ member)
  unfold collect
  split
  · exact liftDocument_every allows tree notes
  · exact ⟨tree, notes⟩

/-- Without numbers in a document there are none in the tree and the notes collected from it. -/
theorem collect_unnumbered (options : FootnoteOptions) {document : Node}
    (fresh : document.Every fun kind => kind.isListing = false ∧ kind.crossReference? = none) :
    EveryAll NodeKind.isUnnumbered (collect options document).1.children ∧
      EveryNote NodeKind.isUnnumbered (collect options document).2 := by
  have weaker : ∀ kind : NodeKind, (kind.isListing = false ∧ kind.crossReference? = none) ∧
      kind.isDefinition = false → kind.isUnnumbered := fun kind both =>
    ⟨both.1.1, both.1.2, both.2⟩
  have allows : AllowsLifting fun kind => (kind.isListing = false ∧ kind.crossReference? = none) ∧
      kind.isDefinition = false :=
    ⟨fun _ => ⟨⟨rfl, rfl⟩, rfl⟩, ⟨⟨rfl, rfl⟩, rfl⟩, fun _ => ⟨⟨rfl, rfl⟩, rfl⟩⟩
  obtain ⟨tree, notes⟩ := collect_every options allows fresh
  exact ⟨tree.mono weaker, fun note member => (notes note member).mono weaker⟩

/-- The labels of the notes of a document, with those that notes written in place get. -/
def noteLabels (options : FootnoteOptions) (document : Node) : List String :=
  (collect options document).2.map (·.label)

/-- A label of a note is that of a definition, or one with a number if notes may be written in
place. -/
theorem mem_noteLabels {options : FootnoteOptions} {document : Node} {label : String}
    (member : label ∈ noteLabels options document) :
    label ∈ (notesAll document.children).map (·.label) ∨
      options.inlineNotes = true ∧ ∃ n, label = generatedLabel n := by
  have defined : (firsts [] (notesAll document.children)).1.map (·.label) ⊆
      (notesAll document.children).map (·.label) := List.map_subset _ (firsts_subset _ _)
  rw [noteLabels, collect] at member
  split at member
  · next inPlace =>
      obtain ⟨note, listed, rfl⟩ := List.mem_map.1 member
      rcases mem_liftDocument listed with old | made
      · exact .inl (defined old)
      · exact .inr ⟨inPlace, made⟩
  · exact .inl (defined member)

/-- Notes that are shown in place are what was in their paragraphs. -/
theorem everyNote_ofList {p : NodeKind → Prop} (options : FootnoteOptions) {notes : List Note}
    (every : EveryNote p notes) :
    EveryNote p (Notes.ofList options notes).listed ∧
      EveryNote p (Notes.ofList options notes).short := by
  constructor
  · exact fun note member => every note (List.mem_of_mem_filter member)
  · intro shown member
    obtain ⟨note, short, rfl⟩ := List.mem_map.1 member
    have content := everyAll_iff_forall.1 (every note (List.mem_of_mem_filter short))
    refine everyAll_iff_forall.2 fun node below => ?_
    obtain ⟨paragraph, here, child⟩ := List.mem_flatMap.1 below
    exact everyAll_iff_forall.1 (content paragraph here).children node child

theorem unnumbered_ofList (options : FootnoteOptions) {notes : List Note}
    (unnumbered : EveryNote NodeKind.isUnnumbered notes) :
    (Notes.ofList options notes).Unnumbered where
  listed := (everyNote_ofList options unnumbered).1
  short := (everyNote_ofList options unnumbered).2

namespace Links

variable {known after : List String} {references : List (String × UInt64)}

/-- The labels that have entered an empty order are in the order of their first occurrences. -/
theorem eraseDups_labels (links : Links known [] after references) :
    (references.map (·.1)).eraseDups = after :=
  (links.order.trans (foldl_enter_eq_eraseDups _)).symm

/-- Cross references that have entered an empty order come at their first occurrences in that
order. -/
theorem eraseDups (links : Links known [] after references) :
    references.eraseDups = after.map fun label => (label, ordinal after label) := by
  have same :
      references = (references.map (·.1)).map fun label => (label, ordinal after label) := by
    rw [List.map_map]
    refine (List.map_id references).symm.trans (List.map_congr_left fun reference member => ?_)
    exact Prod.ext rfl (links.numbers reference member)
  rw [same, eraseDups_map (fun a _ b _ equal => (Prod.mk.inj equal).1), links.eraseDups_labels]

/-- The numbers alone, at their first occurrences, count from one. -/
theorem eraseDups_numbers (links : Links known [] after references)
    (distinct : after.Nodup) (few : after.length < UInt64.size) :
    (references.map (·.2.toNat)).eraseDups = List.range' 1 after.length := by
  have place : ∀ label ∈ after, (ordinal after label).toNat = after.idxOf label + 1 := by
    intro label member
    have bound := List.idxOf_lt_length_of_mem member
    exact UInt64.toNat_ofNat_of_lt' (Nat.lt_of_le_of_lt (Nat.succ_le_of_lt bound) few)
  have entered : ∀ label ∈ references.map (·.1), label ∈ after := fun label member =>
    links.mem_after.2 (.inr member)
  have same : references.map (·.2.toNat) =
      (references.map (·.1)).map fun label => after.idxOf label + 1 := by
    rw [List.map_map]
    refine List.map_congr_left fun reference member => ?_
    rw [links.numbers reference member]
    exact place _ (entered _ (List.mem_map_of_mem member))
  rw [same, eraseDups_map, links.eraseDups_labels]
  · apply List.ext_getElem
    · simp
    · intro i first second
      have bound : i < after.length := by simpa using first
      simp [distinct.idxOf_getElem i bound, Nat.add_comm]
  · intro a first b second equal
    exact (List.idxOf_inj (entered a first)).1 (by omega)

end Links

/-! ### Numbering documents -/

theorem resolve_eq (reference : String → Numbering → Node × Numbering) (node : Node)
    (numbering : Numbering) : resolve reference node numbering =
      (⟨node.kind, (resolveAll reference node.children numbering).1⟩,
        (resolveAll reference node.children numbering).2) := by
  obtain ⟨kind, children⟩ := node
  rfl

@[simp] theorem resolve_kind (reference : String → Numbering → Node × Numbering) (node : Node)
    (numbering : Numbering) : (resolve reference node numbering).1.kind = node.kind := by
  obtain ⟨kind, children⟩ := node
  rfl

/-- The document that is numbered, resolved and with the list of its notes, and the warnings. -/
theorem apply_eq (options : FootnoteOptions) (document : Node) :
    let notes := Notes.ofList options (collect options document).2
    let resolved := resolve notes.reference (collect options document).1
      ⟨[], (firsts [] (notesAll document.children)).2.map .duplicateFootnote⟩
    let listed := notes.items notes.listed.length 0 resolved.2
    apply options document = (⟨resolved.1.kind, resolved.1.children ++
      if listed.1.isEmpty then [] else [⟨.footnoteList, listed.1⟩]⟩, listed.2.warnings) := rfl

/-- Footnotes change no kind at the root of a tree. -/
theorem kind_apply (options : FootnoteOptions) (document : Node) :
    (apply options document).1.kind = document.kind := by
  rw [apply_eq]
  exact (resolve_kind _ _ _).trans (collect_kind options document)

theorem resolve_resolved {known : List String}
    {reference : String → Numbering → Node × Numbering} (resolves : Resolves known reference)
    (node : Node) (numbering : Numbering)
    (unnumbered : EveryAll NodeKind.isUnnumbered node.children) :
    Resolved known numbering
      ((resolve reference node numbering).1.children, (resolve reference node numbering).2) := by
  obtain ⟨kind, children⟩ := node
  exact resolveAll_resolved resolves children numbering unnumbered

/-- A settled kind is not the list. -/
theorem ne_footnoteList_of_isSettled {kind : NodeKind} (settled : kind.isSettled) :
    kind ≠ .footnoteList := by
  rintro rfl
  simp [NodeKind.isSettled, NodeKind.isListing] at settled

/-- Items are settled but for their own kinds. -/
theorem Listed.every {known before after : List String} {n : Nat} {items : List Node}
    (list : Listed known n before after items) {p : NodeKind → Prop}
    (settled : ∀ kind : NodeKind, kind.isSettled → p kind)
    (item : ∀ label number, p (.footnoteItem label number)) : EveryAll p items := by
  refine everyAll_iff_forall.2 fun node member => every_iff.2 ⟨?_, ?_⟩
  · have kind : node.kind ∈ (itemKinds after).drop n := by
      rw [← list.kinds]
      exact List.mem_map_of_mem member
    obtain ⟨i, bound, same⟩ := List.mem_mapIdx.1 (List.mem_of_mem_drop kind)
    exact same ▸ item _ _
  · exact (list.contents node member).mono settled

/-- The text of a document without numbers and the items of its notes are resolved. -/
theorem linked_of_unnumbered {notes : Notes} (unnumbered : notes.Unnumbered) {tree : Node}
    (below : EveryAll NodeKind.isUnnumbered tree.children) (warnings : List Warning) :
    let resolved := resolve notes.reference tree ⟨[], warnings⟩
    let listed := notes.items notes.listed.length 0 resolved.2
    Resolved notes.labels ⟨[], warnings⟩ (resolved.1.children, resolved.2) ∧
      Listed notes.labels 0 resolved.2.order listed.2.order listed.1 := by
  intro resolved listed
  have text : Resolved notes.labels ⟨[], warnings⟩ (resolved.1.children, resolved.2) :=
    resolve_resolved (Notes.reference_resolves unnumbered) tree _ below
  exact ⟨text, Notes.items_listed unnumbered _ 0 _ (Nat.zero_le _) (text.links.nodup List.nodup_nil)
    (text.links.subset_known (List.nil_subset _)) (Nat.le_refl _)⟩

/-- Resolving a document without numbers and putting the list of its notes at its end. -/
theorem numbered_of_unnumbered {notes : Notes} (unnumbered : notes.Unnumbered) {tree : Node}
    (root : tree.kind = .document) (below : EveryAll NodeKind.isUnnumbered tree.children)
    (warnings : List Warning) :
    let resolved := resolve notes.reference tree ⟨[], warnings⟩
    let listed := notes.items notes.listed.length 0 resolved.2
    Numbered ⟨resolved.1.kind,
        resolved.1.children ++ if listed.1.isEmpty then [] else [⟨.footnoteList, listed.1⟩]⟩
      resolved.1.children listed.1 listed.2.order := by
  intro resolved listed
  obtain ⟨text, list⟩ := linked_of_unnumbered unnumbered below warnings
  have links := text.links.append list.links
  have kind : resolved.1.kind = .document := by
    rw [resolve_kind, root]
  -- The list itself is no cross reference, so those of the document are the linked ones.
  have references : (Node.mk resolved.1.kind (resolved.1.children ++
      if listed.1.isEmpty then [] else [⟨.footnoteList, listed.1⟩])).crossReferences =
      crossReferencesAll resolved.1.children ++ crossReferencesAll listed.1 := by
    rw [crossReferences, kinds_mk, kind, kindsAll_append]
    cases empty : listed.1 with
    | nil => simp [crossReferencesAll, NodeKind.crossReference?]
    | cons item rest => simp [crossReferencesAll, NodeKind.crossReference?]
  exact
    { children := rfl
      oneList := everyAll_append.2
        ⟨text.settled.mono fun _ => ne_footnoteList_of_isSettled,
          list.every (fun _ => ne_footnoteList_of_isSettled) (by simp)⟩
      resolved := by
        have items := list.every (p := fun kind => kind.isReference = false ∧
          kind.isDefinition = false) (fun _ settled => settled.2) fun _ _ => ⟨rfl, rfl⟩
        rw [every_mk, kind, everyAll_append]
        refine ⟨⟨rfl, rfl⟩, text.settled.mono fun _ settled => settled.2, ?_⟩
        split
        · exact everyAll_nil
        · simpa using ⟨⟨rfl, rfl⟩, items⟩
      distinct := links.nodup List.nodup_nil
      listed := by simpa using list.kinds
      references := by
        rw [references, links.eraseDups, map_ordinal Prod.mk (links.nodup List.nodup_nil)]
      ordinals := by
        rw [references]
        exact links.eraseDups_numbers (links.nodup List.nodup_nil)
      reached := by
        intro i label found
        rw [crossReferencesAll_append, List.map_append, List.mem_append]
        have bound : i < listed.1.length := by
          have inside := (List.getElem?_eq_some_iff.1 found).1
          rwa [show listed.2.order.length = listed.1.length from
            list.length.trans (Nat.zero_add _)] at inside
        rcases list.reached i label (by simpa using found) bound with before | earlier
        · rcases text.links.mem_after.1 before with none | here
          · simp at none
          · exact .inl here
        · exact .inr earlier }

/-- The footnotes of any document without numbers become numbered. -/
theorem exists_numbered (options : FootnoteOptions) {document : Node}
    (root : document.kind = .document)
    (fresh : document.Every fun kind => kind.isListing = false ∧ kind.crossReference? = none) :
    ∃ body items labels, Numbered (apply options document).1 body items labels := by
  obtain ⟨below, notes⟩ := collect_unnumbered options fresh
  exact ⟨_, _, _, numbered_of_unnumbered (unnumbered_ofList options notes)
    ((collect_kind options document).trans root) below
    ((firsts [] (notesAll document.children)).2.map .duplicateFootnote)⟩

/-- The stage for footnotes succeeds on every document that has no numbers yet, whatever its options
are, and the document that it makes is a numbered one. -/
theorem stage_numbers_document (highlighter : Syntax.Highlighter) (options : FootnoteOptions)
    {document : Node} (root : document.kind = .document)
    (fresh : document.Every fun kind => kind.isListing = false ∧ kind.crossReference? = none) :
    ∃ tree warnings body items labels,
      (Stage.footnotes options).apply highlighter document = .ok (tree, warnings) ∧
        Numbered tree body items labels := by
  obtain ⟨body, items, labels, numbered⟩ := exists_numbered options root fresh
  refine ⟨(apply options document).1, (apply options document).2, body, items, labels, ?_, numbered⟩
  simp [Stage.apply, root]

/-- A document whose notes refer to each other in a circle, with one that is reached from no
text. -/
theorem stage_numbers_circle :
    let circle : Node := .document
      [⟨.paragraph, [.text "See", .leaf (.footnoteReference "b")]⟩,
        ⟨.footnoteDefinition "a", [⟨.paragraph, [.leaf (.footnoteReference "b")]⟩]⟩,
        ⟨.footnoteDefinition "b", [⟨.paragraph, [.leaf (.footnoteReference "a"), .text "^[c]"]⟩]⟩,
        ⟨.footnoteDefinition "z", [⟨.paragraph, [.leaf (.footnoteReference "z")]⟩]⟩]
    circle.kind = .document ∧
      circle.Every (fun kind => kind.isListing = false ∧ kind.crossReference? = none) ∧
      ∃ tree warnings body items labels,
        (Stage.footnotes {}).apply Syntax.standard circle = .ok (tree, warnings) ∧
          Numbered tree body items labels := by
  intro circle
  have fresh : circle.Every fun kind =>
      kind.isListing = false ∧ kind.crossReference? = none := by
    simp [circle, Node.document, Node.text, leaf, NodeKind.isListing, NodeKind.crossReference?]
  exact ⟨rfl, fresh, stage_numbers_document Syntax.standard {} rfl fresh⟩

end Footnote

end DocPress
