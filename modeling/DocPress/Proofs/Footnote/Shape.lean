import DocPress.Proofs.Footnote.Numbered
import DocPress.Proofs.Node.Shape

/-!
Numbering footnotes keeps the shape of trees: notes are made of what is left of definitions and of
paragraphs, and references become nodes without anything below them.
-/

namespace DocPress

namespace Footnote

open Node

/-- Whether the contents of notes have the shape of trees that have been written. -/
def NotesHaveShape (notes : List Note) : Prop :=
  ∀ note ∈ notes, HaveShape note.content

theorem notesHaveShape_append {first second : List Note} :
    NotesHaveShape (first ++ second) ↔ NotesHaveShape first ∧ NotesHaveShape second :=
  List.forall_mem_append

/-! ### Definitions -/

theorem map_kind_stripAll {nodes : List Node} (none : ∀ node ∈ nodes, node.kind.isDefinition = false) :
    (stripAll nodes).map (·.kind) = nodes.map (·.kind) := by
  induction nodes with
  | nil => rfl
  | cons node rest ih =>
      rw [List.forall_mem_cons] at none
      obtain ⟨kind, children⟩ := node
      rw [stripAll, strip_of_not_definition children none.1, List.singleton_append, List.map_cons,
        List.map_cons, ih none.2]

mutual

/-- Stripping the definitions keeps the shape of a tree. -/
theorem haveShape_strip : ∀ {node : Node}, HasShape node → HaveShape (strip node)
  | ⟨kind, children⟩, shape => by
      obtain ⟨fits, below⟩ := hasShape_mk.1 shape
      cases definition : kind.isDefinition with
      | true =>
          cases kind <;> cases definition
          exact haveShape_nil
      | false =>
          rw [strip_of_not_definition children definition, haveShape_cons, hasShape_mk]
          refine ⟨⟨fits.of_parts ?_ fun parts => ?_, haveShape_stripAll below⟩, haveShape_nil⟩
          · rintro rfl
            rfl
          · exact map_kind_stripAll fun child member =>
              of_isTablePart (·.isDefinition = false) rfl rfl (parts child member)

theorem haveShape_stripAll : ∀ {nodes : List Node}, HaveShape nodes → HaveShape (stripAll nodes)
  | [], _ => haveShape_nil
  | node :: rest, shape => by
      rw [haveShape_cons] at shape
      exact haveShape_append.2 ⟨haveShape_strip shape.1, haveShape_stripAll shape.2⟩

end

mutual

/-- The notes of a tree have its shape. -/
theorem notesHaveShape_notes : ∀ {node : Node}, HasShape node → NotesHaveShape (notes node)
  | ⟨kind, children⟩, shape => by
      have below := (hasShape_mk.1 shape).2
      cases definition : kind.isDefinition with
      | true =>
          cases kind <;> cases definition
          exact notesHaveShape_append.2
            ⟨notesHaveShape_notesAll below, List.forall_mem_singleton.2 (haveShape_stripAll below)⟩
      | false =>
          rw [notes_of_not_definition children definition]
          exact notesHaveShape_notesAll below

theorem notesHaveShape_notesAll : ∀ {nodes : List Node}, HaveShape nodes →
    NotesHaveShape (notesAll nodes)
  | [], _ => fun _ member => absurd member List.not_mem_nil
  | node :: rest, shape => by
      rw [haveShape_cons] at shape
      exact notesHaveShape_append.2 ⟨notesHaveShape_notes shape.1, notesHaveShape_notesAll shape.2⟩

end

/-! ### Notes written in place -/

/-- Whether a piece has the shape of a tree that has been written. -/
def Piece.HasShape : Piece → Prop
  | .char _ => True
  | .node tree => tree.HasShape

/-- Cutting nodes into pieces keeps their shape. -/
theorem hasShape_pieces {nodes : List Node} (shape : HaveShape nodes) :
    ∀ piece ∈ pieces nodes, piece.HasShape :=
  forall_mem_pieces (fun _ _ _ _ _ => True.intro)
    fun node member _ => haveShape_iff_forall.1 shape node member

/-- A character in front of nodes keeps their shape. -/
theorem haveShape_putChar (c : Char) {nodes : List Node} (shape : HaveShape nodes) :
    HaveShape (putChar c nodes) := by
  have own : HaveShape [Node.text (String.singleton c)] :=
    haveShape_cons.2 ⟨hasShape_leaf _, haveShape_nil⟩
  cases nodes with
  | nil => exact own
  | cons node more =>
      obtain ⟨kind, children⟩ := node
      cases text : kind.isText with
      | true =>
          cases kind <;> cases text
          rw [haveShape_cons, hasShape_mk] at shape
          -- A text has nothing below it, so that another text may stand there.
          have empty := List.map_eq_nil_iff.1 (shape.1.1.bare rfl)
          rw [putChar, haveShape_cons, empty]
          exact ⟨hasShape_leaf _, shape.2⟩
      | false =>
          rw [putChar_of_not_text c text]
          exact haveShape_append.2 ⟨own, shape⟩

/-- Joining pieces keeps their shape. -/
theorem haveShape_joinPieces {pieces : List Piece} (shape : ∀ piece ∈ pieces, piece.HasShape) :
    HaveShape (joinPieces pieces) := by
  induction pieces with
  | nil => exact haveShape_nil
  | cons piece rest ih =>
      rw [List.forall_mem_cons] at shape
      cases piece with
      | char c => exact haveShape_putChar c (ih shape.2)
      | node tree => exact haveShape_cons.2 ⟨shape.1, ih shape.2⟩

/-- A note with content of the right shape keeps the notes in shape. -/
theorem shape_make {content : List Node} {lifting : Lifting} (shape : HaveShape content)
    (made : NotesHaveShape lifting.made) :
    NotesHaveShape (lifting.make content).2.made := by
  refine notesHaveShape_append.2 ⟨made, List.forall_mem_singleton.2 ?_⟩
  exact haveShape_cons.2 ⟨hasShape_mk.2 ⟨fits_of_shows rfl rfl _, shape⟩, haveShape_nil⟩

/-- Lifting notes out of pieces makes notes of the same shape. -/
theorem LiftsOut.notesHaveShape {cut left : List Piece} {before after : Lifting}
    (lifts : LiftsOut cut before left after) (shape : ∀ piece ∈ cut, piece.HasShape)
    (made : NotesHaveShape before.made) : NotesHaveShape after.made := by
  induction lifts with
  | nil lifting => exact made
  | keep piece later ih => exact ih (List.forall_mem_cons.1 shape).2 made
  | note paired filled later ih =>
      simp only [List.cons_append, List.forall_mem_cons, List.forall_mem_append] at shape
      obtain ⟨-, -, inside, -, behind⟩ := shape
      exact ih behind (shape_make (haveShape_joinPieces inside) made)

/-- Lifting out of children keeps the shape of the children and of the notes. -/
theorem shape_liftChildren {children : List Node} {lifting : Lifting} (shape : HaveShape children)
    (made : NotesHaveShape lifting.made) :
    HaveShape (liftChildren children lifting).1 ∧
      NotesHaveShape (liftChildren children lifting).2.made := by
  rw [liftChildren]
  split
  · have lifts := liftsOut_liftPieces (pieces children).length (pieces children) lifting
    have still := lifts.forall_mem (fun _ => hasShape_leaf _) (hasShape_pieces shape)
    exact ⟨haveShape_joinPieces still, lifts.notesHaveShape (hasShape_pieces shape) made⟩
  · exact ⟨shape, made⟩

/-- Where there are no texts nothing is lifted out of them. -/
theorem liftChildren_of_no_text {children : List Node} (none : ∀ child ∈ children, child.kind.isText = false)
    (lifting : Lifting) : liftChildren children lifting = (children, lifting) := by
  have plain : children.any hasCaret = false := by
    rw [List.any_eq_false]
    intro child member
    obtain ⟨kind, below⟩ := child
    rw [hasCaret_of_not_text below (none _ member)]
    exact Bool.false_ne_true
  rw [liftChildren, plain]
  rfl

theorem map_kind_liftAll (nodes : List Node) (lifting : Lifting) :
    (liftAll nodes lifting).1.map (·.kind) = nodes.map (·.kind) := by
  induction nodes generalizing lifting with
  | nil => rfl
  | cons node rest ih =>
      rw [liftAll]
      dsimp only
      rw [List.map_cons, List.map_cons, ih, lift_kind]

mutual

/-- Lifting out of a tree keeps its shape and that of the notes. -/
theorem shape_lift : ∀ {node : Node} {lifting : Lifting}, HasShape node →
    NotesHaveShape lifting.made →
      HasShape (lift node lifting).1 ∧ NotesHaveShape (lift node lifting).2.made
  | ⟨kind, children⟩, lifting, shape, made => by
      rw [lift]
      split
      · exact ⟨shape, made⟩
      · obtain ⟨fits, below⟩ := hasShape_mk.1 shape
        obtain ⟨inside, notes⟩ := shape_liftAll below made
        obtain ⟨still, further⟩ := shape_liftChildren inside notes
        refine ⟨hasShape_mk.2 ⟨fits.of_parts ?_ fun parts => ?_, still⟩, further⟩
        · rintro rfl
          rfl
        · have none : ∀ child ∈ (liftAll children lifting).1, child.kind.isText = false := by
            intro child member
            have known : child.kind ∈ children.map (·.kind) :=
              map_kind_liftAll children lifting ▸ List.mem_map_of_mem member
            obtain ⟨old, part, same⟩ := List.mem_map.1 known
            exact same ▸ of_isTablePart (·.isText = false) rfl rfl (parts old part)
          rw [liftChildren_of_no_text none, map_kind_liftAll]

theorem shape_liftAll : ∀ {nodes : List Node} {lifting : Lifting}, HaveShape nodes →
    NotesHaveShape lifting.made →
      HaveShape (liftAll nodes lifting).1 ∧ NotesHaveShape (liftAll nodes lifting).2.made
  | [], _, _, made => ⟨haveShape_nil, made⟩
  | node :: rest, lifting, shape, made => by
      rw [haveShape_cons] at shape
      obtain ⟨here, notes⟩ := shape_lift shape.1 made
      obtain ⟨behind, further⟩ := shape_liftAll shape.2 notes
      exact ⟨haveShape_cons.2 ⟨here, behind⟩, further⟩

end

/-- Lifting out of notes keeps the shape of the notes. -/
theorem shape_liftNotes {notes : List Note} {lifting : Lifting} (shape : NotesHaveShape notes)
    (made : NotesHaveShape lifting.made) :
    NotesHaveShape (liftNotes notes lifting).1 ∧ NotesHaveShape (liftNotes notes lifting).2.made := by
  induction notes generalizing lifting with
  | nil => exact ⟨shape, made⟩
  | cons note rest ih =>
      obtain ⟨own, others⟩ := List.forall_mem_cons.1 shape
      have holder : HasShape ⟨.fragment, note.content⟩ :=
        hasShape_mk.2 ⟨fits_of_shows rfl rfl _, own⟩
      obtain ⟨here, still⟩ := shape_lift holder made
      obtain ⟨behind, further⟩ := ih others still
      exact ⟨List.forall_mem_cons.2 ⟨here.below, behind⟩, further⟩

/-- Collecting the notes keeps the shape of the document and of the notes. -/
theorem shape_collect (options : FootnoteOptions) {document : Node} (shape : HasShape document)
    (root : document.kind = .document) :
    HasShape (collect options document).1 ∧ NotesHaveShape (collect options document).2 := by
  have below := shape.below
  have tree : HasShape ⟨document.kind, stripAll document.children⟩ := by
    rw [root]
    exact hasShape_mk.2 ⟨fits_of_shows rfl rfl _, haveShape_stripAll below⟩
  have notes : NotesHaveShape (firsts [] (notesAll document.children)).1 := fun note member =>
    notesHaveShape_notesAll below note (firsts_subset _ _ member)
  unfold collect
  split
  · obtain ⟨lifted, made⟩ := @shape_lift _ ⟨(firsts [] (notesAll document.children)).1.map (·.label), 0, []⟩
      tree fun _ member => absurd member List.not_mem_nil
    obtain ⟨still, late⟩ := @shape_liftNotes _
      { (lift ⟨document.kind, stripAll document.children⟩
          ⟨(firsts [] (notesAll document.children)).1.map (·.label), 0, []⟩).2 with made := [] }
      (notesHaveShape_append.2 ⟨notes, made⟩) fun _ member => absurd member List.not_mem_nil
    exact ⟨lifted, notesHaveShape_append.2 ⟨still, late⟩⟩
  · exact ⟨tree, notes⟩

/-! ### Numbers -/

variable {reference : String → Numbering → Node × Numbering}

theorem map_kind_resolveAll {nodes : List Node} (numbering : Numbering)
    (none : ∀ node ∈ nodes, node.kind.isReference = false) :
    (resolveAll reference nodes numbering).1.map (·.kind) = nodes.map (·.kind) := by
  induction nodes generalizing numbering with
  | nil => rfl
  | cons node rest ih =>
      rw [List.forall_mem_cons] at none
      obtain ⟨kind, children⟩ := node
      rw [resolveAll_other none.1, List.map_cons, List.map_cons, ih _ none.2]

/-- Resolving references keeps the shape of trees, if what references become has it. -/
theorem haveShape_resolveAll (resolves : ∀ label numbering, HasShape (reference label numbering).1)
    {nodes : List Node} (numbering : Numbering) (shape : HaveShape nodes) :
    HaveShape (resolveAll reference nodes numbering).1 := by
  induction nodes using references_induction generalizing numbering with
  | nil => exact haveShape_nil
  | reference label children rest behind =>
      rw [haveShape_cons] at shape
      rw [resolveAll_reference, haveShape_cons]
      exact ⟨resolves _ _, behind _ shape.2⟩
  | other kind children rest refers below behind =>
      rw [haveShape_cons, hasShape_mk] at shape
      obtain ⟨⟨fits, inner⟩, later⟩ := shape
      rw [resolveAll_other refers, haveShape_cons, hasShape_mk]
      refine ⟨⟨fits.of_parts ?_ fun parts => ?_, below _ inner⟩, behind _ later⟩
      · rintro rfl
        rfl
      · exact map_kind_resolveAll numbering fun child member =>
          of_isTablePart (·.isReference = false) rfl rfl (parts child member)

/-- What a reference becomes has the right shape. -/
theorem hasShape_reference {notes : Notes} (short : NotesHaveShape notes.short) :
    ∀ label numbering, HasShape (notes.reference label numbering).1 := by
  refine Notes.reference_induction (motive := fun _ _ _ made => HasShape made.1)
    ?circle ?short ?listed ?missing
  case circle => exact fun _ _ _ _ _ => hasShape_leaf _
  case short =>
    intro shown note reference numbering member _ _ resolves
    exact hasShape_mk.2 ⟨fits_of_shows rfl rfl _,
      haveShape_resolveAll resolves numbering (short note member)⟩
  case listed => exact fun _ _ _ _ _ _ => hasShape_leaf _
  case missing => exact fun _ _ _ _ _ _ => hasShape_leaf _

/-- The items have the right shape. -/
theorem haveShape_items {notes : Notes} (listed : NotesHaveShape notes.listed)
    (short : NotesHaveShape notes.short) (fuel n : Nat) (numbering : Numbering) :
    HaveShape (notes.items fuel n numbering).1 := by
  induction fuel generalizing n numbering with
  | zero => exact haveShape_nil
  | succ fuel ih =>
      unfold Notes.items
      split
      · exact haveShape_nil
      · next label found =>
          refine haveShape_cons.2 ⟨hasShape_mk.2 ⟨fits_of_shows rfl rfl _, ?_⟩, ih _ _⟩
          exact haveShape_resolveAll (hasShape_reference short) _
            (content_induction haveShape_nil listed label)

/-- Sorting notes into short and listed ones keeps their shape. -/
theorem notesHaveShape_ofList (options : FootnoteOptions) {notes : List Note}
    (shape : NotesHaveShape notes) :
    NotesHaveShape (Notes.ofList options notes).listed ∧
      NotesHaveShape (Notes.ofList options notes).short := by
  constructor
  · exact fun note member => shape note (List.mem_of_mem_filter member)
  · intro shown member
    obtain ⟨note, short, rfl⟩ := List.mem_map.1 member
    have content := haveShape_iff_forall.1 (shape note (List.mem_of_mem_filter short))
    refine haveShape_iff_forall.2 fun node below => ?_
    obtain ⟨paragraph, here, child⟩ := List.mem_flatMap.1 below
    exact haveShape_iff_forall.1 (content paragraph here).below node child

/-- Numbering footnotes keeps the shape of a document. -/
theorem hasShape_apply (options : FootnoteOptions) {document : Node} (shape : HasShape document)
    (root : document.kind = .document) : HasShape (apply options document).1 := by
  obtain ⟨tree, notes⟩ := shape_collect options shape root
  obtain ⟨listed, short⟩ := notesHaveShape_ofList options notes
  rw [apply_eq]
  dsimp only
  rw [resolve_kind, collect_kind, root, hasShape_mk, haveShape_append]
  refine ⟨fits_of_shows rfl rfl _, ?_, ?_⟩
  · rw [resolve_eq]
    exact haveShape_resolveAll (hasShape_reference short) _ tree.below
  · split
    · exact haveShape_nil
    · exact haveShape_cons.2 ⟨hasShape_mk.2 ⟨fits_of_shows rfl rfl _,
        haveShape_items listed short _ _ _⟩, haveShape_nil⟩

end Footnote

end DocPress
