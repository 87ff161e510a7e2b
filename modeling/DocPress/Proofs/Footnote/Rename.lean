import DocPress.Proofs.Caption
import DocPress.Proofs.Footnote.Numbered

/-!
Changes that footnotes do not see. What becomes of footnotes does not depend on the kinds of the other
nodes, and of the labels without a note it matters only that they have none. A change of these kinds
and labels may be made before the footnotes are made or after. Giving titles to code blocks is such a
change.
-/

namespace DocPress

/-- Whether footnotes are made of nodes of this kind, or make them, references and broken references
apart. -/
def NodeKind.isNoteKind : NodeKind → Bool
  | .text _ | .paragraph | .fragment | .footnoteDefinition _ | .footnoteCrossReference .. |
    .inlineNote _ | .footnoteList | .footnoteItem .. => true
  | _ => false

namespace Footnote

open Node

/-- A change of kinds that footnotes do not see: it changes the labels of references, broken or not, and
kinds that footnotes have nothing to do with. -/
structure Renaming where
  /-- What a kind becomes. -/
  kind : NodeKind → NodeKind
  /-- What the label of a reference becomes. -/
  label : String → String
  kind_noteKind : ∀ {old}, old.isNoteKind = true → kind old = old
  isNoteKind_kind : ∀ old, (kind old).isNoteKind = old.isNoteKind
  kind_reference : ∀ name, kind (.footnoteReference name) = .footnoteReference (label name)
  isReference_kind : ∀ old, (kind old).isReference = old.isReference
  kind_broken : ∀ name, kind (.brokenReference name) = .brokenReference (label name)
  isCode_kind : ∀ old, (kind old).isCode = old.isCode
  ownText_kind : ∀ old children, ownText ⟨kind old, children⟩ = ownText ⟨old, children⟩
  /-- References to notes written in place stay. -/
  label_generated : ∀ n, label (generatedLabel n) = generatedLabel n

namespace Renaming

variable (r : Renaming)

/-- A tree with its kinds changed. -/
def node (tree : Node) : Node :=
  tree.mapKinds r.kind

@[simp] theorem node_mk (kind : NodeKind) (children : List Node) :
    r.node ⟨kind, children⟩ = ⟨r.kind kind, children.map r.node⟩ :=
  mapKinds_mk r.kind kind children

@[simp] theorem kind_node (tree : Node) : (r.node tree).kind = r.kind tree.kind :=
  kind_mapKinds r.kind tree

@[simp] theorem children_node (tree : Node) : (r.node tree).children = tree.children.map r.node :=
  children_mapKinds r.kind tree

/-- A kind of footnotes comes of that kind only. -/
theorem kind_eq_iff {old new : NodeKind} (own : new.isNoteKind = true) :
    r.kind old = new ↔ old = new := by
  constructor
  · rintro rfl
    rw [isNoteKind_kind] at own
    exact (r.kind_noteKind own).symm
  · rintro rfl
    exact r.kind_noteKind own

/-- What is true of kinds of footnotes alone stays so. -/
theorem congr_kind {p : NodeKind → Bool} (own : ∀ old, p old = true → old.isNoteKind = true)
    (old : NodeKind) : p (r.kind old) = p old := by
  by_cases member : old.isNoteKind = true
  · rw [r.kind_noteKind member]
  · have still : ¬(r.kind old).isNoteKind = true := by rwa [isNoteKind_kind]
    rw [Bool.eq_false_iff.2 fun holds => member (own old holds),
      Bool.eq_false_iff.2 fun holds => still (own _ holds)]

theorem isText_kind (old : NodeKind) : (r.kind old).isText = old.isText :=
  r.congr_kind (fun old text => by cases old <;> first | rfl | cases text) old

theorem isDefinition_kind (old : NodeKind) : (r.kind old).isDefinition = old.isDefinition :=
  r.congr_kind (fun old definition => by cases old <;> first | rfl | cases definition) old

/-! ### Texts -/

theorem ownText_map (kind : NodeKind) (children : List Node) :
    ownText ⟨r.kind kind, children.map r.node⟩ = ownText ⟨kind, children⟩ := by
  rw [r.ownText_kind, Caption.ownText_map]

mutual

theorem textContent_node : ∀ tree : Node, (r.node tree).textContent = tree.textContent
  | ⟨kind, children⟩ => by
      rw [node_mk, textContent, textContent, ownText_map, textContentAll_node children]

theorem textContentAll_node :
    ∀ nodes : List Node, textContentAll (nodes.map r.node) = textContentAll nodes
  | [] => rfl
  | node :: rest => by
      rw [List.map_cons, textContentAll, textContentAll, textContent_node node,
        textContentAll_node rest]

end

/-! ### Definitions -/

/-- A note with the kinds in its content changed. -/
def note (note : Note) : Note :=
  ⟨note.label, note.content.map r.node⟩

/-- The notes keep their labels: only what they hold is renamed. -/
theorem map_label_note (notes : List Note) :
    (notes.map r.note).map (·.label) = notes.map (·.label) := by
  rw [List.map_map]
  rfl

mutual

/-- Stripping the definitions commutes with renaming. -/
theorem strip_node : ∀ tree : Node, strip (r.node tree) = (strip tree).map r.node
  | ⟨kind, children⟩ => by
      cases definition : kind.isDefinition with
      | true =>
          obtain ⟨_, rfl⟩ := NodeKind.exists_of_isDefinition definition
          rw [node_mk, r.kind_noteKind rfl]
          rfl
      | false =>
          rw [node_mk, strip_of_not_definition children definition,
            strip_of_not_definition _ ((r.isDefinition_kind kind).trans definition),
            stripAll_node children, List.map_singleton, node_mk]

theorem stripAll_node :
    ∀ nodes : List Node, stripAll (nodes.map r.node) = (stripAll nodes).map r.node
  | [] => rfl
  | node :: rest => by
      rw [List.map_cons, stripAll, stripAll, strip_node node, stripAll_node rest, List.map_append]

end

mutual

/-- The notes taken from a renamed tree are the renamed notes. -/
theorem notes_node : ∀ tree : Node, notes (r.node tree) = (notes tree).map r.note
  | ⟨kind, children⟩ => by
      have below := notesAll_node children
      cases definition : kind.isDefinition with
      | true =>
          obtain ⟨_, rfl⟩ := NodeKind.exists_of_isDefinition definition
          rw [node_mk, r.kind_noteKind rfl, notes, notes, below, stripAll_node, List.map_append]
          rfl
      | false =>
          rw [node_mk, notes_of_not_definition children definition,
            notes_of_not_definition _ ((r.isDefinition_kind kind).trans definition)]
          exact below

theorem notesAll_node :
    ∀ nodes : List Node, notesAll (nodes.map r.node) = (notesAll nodes).map r.note
  | [] => rfl
  | node :: rest => by
      rw [List.map_cons, notesAll, notesAll, notes_node node, notesAll_node rest, List.map_append]

end

/-- The first notes of each label are found at the same places, renamed or not. -/
theorem firsts_note (seen : List String) (notes : List Note) :
    firsts seen (notes.map r.note) =
      ((firsts seen notes).1.map r.note, (firsts seen notes).2) := by
  induction notes generalizing seen with
  | nil => rfl
  | cons note rest ih =>
      simp only [List.map_cons, firsts, Renaming.note, ih]
      split <;> rfl

/-- What a label finds among renamed notes is what it finds among the notes, renamed. -/
theorem content?_note (label : String) (notes : List Note) :
    content? label (notes.map r.note) = (content? label notes).map (·.map r.node) := by
  rw [content?, content?, List.find?_map, Option.map_map, Option.map_map]
  rfl

/-! ### Notes in place -/

/-- A piece with the kinds in it changed. -/
def piece : Piece → Piece
  | .char c => .char c
  | .node tree => .node (r.node tree)

/-- The notes made of notes in place, with the kinds in their contents changed. -/
def lifting (lifting : Lifting) : Lifting :=
  { lifting with made := lifting.made.map r.note }

/-- The pieces of renamed nodes are the renamed pieces: the characters stay as they are. -/
theorem pieces_node (nodes : List Node) :
    pieces (nodes.map r.node) = (pieces nodes).map r.piece := by
  induction nodes with
  | nil => rfl
  | cons node rest ih =>
      obtain ⟨kind, children⟩ := node
      cases text : kind.isText with
      | true =>
          obtain ⟨_, rfl⟩ := NodeKind.exists_of_isText text
          have chars : ∀ cs : List Char, (cs.map Piece.char).map r.piece = cs.map .char := by
            simp [piece]
          rw [List.map_cons, node_mk, r.kind_noteKind rfl, pieces, pieces, ih, List.map_append, chars]
      | false =>
          rw [List.map_cons, node_mk, pieces_of_not_text _ _ text,
            pieces_of_not_text _ _ ((r.isText_kind kind).trans text), ih, List.map_cons, piece, node_mk]

theorem putChar_node (c : Char) (nodes : List Node) :
    putChar c (nodes.map r.node) = (putChar c nodes).map r.node := by
  have char : r.node (.text (String.singleton c)) = .text (String.singleton c) := by
    rw [Node.text, leaf, node_mk, r.kind_noteKind rfl, List.map_nil]
  cases nodes with
  | nil => exact (congrArg ([·]) char).symm
  | cons node more =>
      obtain ⟨kind, children⟩ := node
      cases text : kind.isText with
      | true =>
          obtain ⟨_, rfl⟩ := NodeKind.exists_of_isText text
          rw [List.map_cons, node_mk, r.kind_noteKind rfl, putChar, putChar, List.map_cons, node_mk,
            r.kind_noteKind rfl]
      | false =>
          rw [putChar_of_not_text c text, List.map_cons, node_mk,
            putChar_of_not_text c ((r.isText_kind kind).trans text), List.map_cons, List.map_cons,
            char, node_mk]

/-- Pieces joined to nodes again are renamed piece by piece. -/
theorem joinPieces_piece (pieces : List Piece) :
    joinPieces (pieces.map r.piece) = (joinPieces pieces).map r.node := by
  induction pieces with
  | nil => rfl
  | cons piece rest ih =>
      cases piece with
      | node tree => simp only [List.map_cons, Renaming.piece, joinPieces, ih]
      | char c =>
          rw [List.map_cons, Renaming.piece, joinPieces_char, joinPieces_char, ih, putChar_node]

/-- The bracket that closes a note is found at the same place. -/
theorem closeNote?_piece (depth : Nat) (pieces : List Piece) :
    closeNote? depth (pieces.map r.piece) =
      (closeNote? depth pieces).map fun parts => (parts.1.map r.piece, parts.2.map r.piece) := by
  induction pieces generalizing depth with
  | nil => rfl
  | cons piece rest ih =>
      cases piece with
      | node tree =>
          simp only [List.map_cons, Renaming.piece, closeNote?, ih, Option.map_map]
          rfl
      | char c =>
          by_cases closes : c = ']'
          · subst closes
            cases depth with
            | zero => rfl
            | succ depth =>
                simp only [List.map_cons, Renaming.piece, closeNote?, ih, Option.map_map]
                rfl
          · by_cases opens : c = '['
            · subst opens
              simp only [List.map_cons, Renaming.piece, closeNote?, ih, Option.map_map]
              rfl
            · have shut : Piece.char c ≠ .char ']' := by simpa using closes
              have plain : Piece.char c ≠ .char '[' := by simpa using opens
              rw [List.map_cons, Renaming.piece, closeNote?_other shut plain,
                closeNote?_other shut plain, ih, Option.map_map, Option.map_map]
              rfl

/-- Renamed nodes are blank exactly when the nodes are. -/
theorem isBlank_node (nodes : List Node) : isBlank (nodes.map r.node) = isBlank nodes := by
  rw [isBlank, isBlank, List.all_map]
  congr 1
  funext node
  rw [Function.comp_apply, textContent_node]

/-- The reference to a note written in place stays. -/
theorem make_node (content : List Node) (made : Lifting) :
    (r.lifting made).make (content.map r.node) =
      (r.node (made.make content).1, r.lifting (made.make content).2) := by
  have paragraph : r.kind .paragraph = .paragraph := r.kind_noteKind rfl
  simp [Lifting.make, lifting, note, leaf, r.kind_reference, r.label_generated, paragraph]

theorem piece_eq_char_iff {piece : Piece} {c : Char} : r.piece piece = .char c ↔ piece = .char c := by
  cases piece <;> simp [Renaming.piece]

/-- Notes are lifted out of the same pieces. -/
theorem liftPieces_piece (fuel : Nat) (pieces : List Piece) (lifting : Lifting) :
    liftPieces fuel (pieces.map r.piece) (r.lifting lifting) =
      ((liftPieces fuel pieces lifting).1.map r.piece,
        r.lifting (liftPieces fuel pieces lifting).2) := by
  fun_induction liftPieces fuel pieces lifting with
  | case1 pieces lifting => rfl
  | case2 fuel lifting positive => rw [List.map_nil, liftPieces.eq_2 _ _ positive]
  | case3 fuel rest lifting unclosed =>
      simp only [List.map_cons, piece, liftPieces, closeNote?_piece, unclosed, Option.map_none]
  | case4 fuel rest lifting inner after found content blank later more lifted ih =>
      rw [lifted] at ih
      simp only [List.map_cons, piece, liftPieces, closeNote?_piece, found, Option.map_some,
        joinPieces_piece, isBlank_node]
      rw [if_pos blank, ih]
      simp [piece]
  | case5 fuel rest lifting inner after found content blank reference made making later more lifted
      ih =>
      have remade := r.make_node content lifting
      rw [making] at remade
      rw [lifted] at ih
      simp only [List.map_cons, piece, liftPieces, closeNote?_piece, found, Option.map_some,
        joinPieces_piece, isBlank_node]
      rw [if_neg blank, remade, ih]
  | case6 fuel piece rest lifting other later more lifted ih =>
      rw [lifted] at ih
      rw [List.map_cons, liftPieces.eq_4, ih, List.map_cons]
      intro behind caret bracket
      obtain ⟨piece', rest', rfl, opens, -⟩ := List.map_eq_cons_iff.1 bracket
      rw [piece_eq_char_iff] at caret opens
      subst opens
      exact other rest' caret rfl

/-- A renamed node holds a caret in its own text exactly when the node does. -/
theorem hasCaret_node (node : Node) : hasCaret (r.node node) = hasCaret node := by
  obtain ⟨kind, children⟩ := node
  cases text : kind.isText with
  | true =>
      obtain ⟨_, rfl⟩ := NodeKind.exists_of_isText text
      rw [node_mk, r.kind_noteKind rfl]
      rfl
  | false =>
      rw [node_mk, hasCaret_of_not_text _ text,
        hasCaret_of_not_text _ ((r.isText_kind kind).trans text)]

/-- Lifting out of a list of children commutes with renaming. -/
theorem liftChildren_node (children : List Node) (lifting : Lifting) :
    liftChildren (children.map r.node) (r.lifting lifting) =
      ((liftChildren children lifting).1.map r.node,
        r.lifting (liftChildren children lifting).2) := by
  have carets : (children.map r.node).any hasCaret = children.any hasCaret := by
    rw [List.any_map]
    congr 1
    funext node
    exact r.hasCaret_node node
  rw [liftChildren, liftChildren, carets]
  split
  · simp only [pieces_node, List.length_map, liftPieces_piece, joinPieces_piece]
  · rfl

mutual

/-- Lifting out of a tree commutes with renaming, in the tree and in what is lifted. -/
theorem lift_node :
    ∀ (tree : Node) (lifting : Lifting), lift (r.node tree) (r.lifting lifting) =
      (r.node (lift tree lifting).1, r.lifting (lift tree lifting).2)
  | ⟨kind, children⟩, lifting => by
      rw [node_mk, lift, lift, r.isCode_kind]
      split
      · rw [node_mk]
      · simp only [liftAll_node children lifting, liftChildren_node, node_mk]

theorem liftAll_node :
    ∀ (nodes : List Node) (lifting : Lifting), liftAll (nodes.map r.node) (r.lifting lifting) =
      ((liftAll nodes lifting).1.map r.node, r.lifting (liftAll nodes lifting).2)
  | [], lifting => rfl
  | node :: rest, lifting => by
      simp only [List.map_cons, liftAll, lift_node node lifting, liftAll_node rest]

end

/-- Lifting out of the notes commutes with renaming. -/
theorem liftNotes_note (notes : List Note) (lifting : Lifting) :
    liftNotes (notes.map r.note) (r.lifting lifting) =
      ((liftNotes notes lifting).1.map r.note, r.lifting (liftNotes notes lifting).2) := by
  induction notes generalizing lifting with
  | nil => rfl
  | cons note rest ih =>
      have holder := r.lift_node ⟨.fragment, note.content⟩ lifting
      rw [node_mk, r.kind_noteKind rfl] at holder
      simp only [List.map_cons, liftNotes, Renaming.note, holder, ih, children_node]

/-- Lifting out of a document and its notes commutes with renaming. -/
theorem liftDocument_node (tree : Node) (notes : List Note) :
    liftDocument (r.node tree) (notes.map r.note) =
      (r.node (liftDocument tree notes).1, (liftDocument tree notes).2.map r.note) := by
  have lifted := r.lift_node tree ⟨notes.map (·.label), 0, []⟩
  rw [lifting, List.map_nil] at lifted
  simp only [liftDocument, map_label_note, lifted, lifting]
  have more (made : Lifting) := r.liftNotes_note (notes ++ made.made) { made with made := [] }
  simp only [lifting, List.map_append, List.map_nil] at more
  simp only [more, List.map_append]

/-- The tree that is numbered and its notes change as the document does. -/
theorem collect_node (options : FootnoteOptions) (document : Node) :
    collect options (r.node document) =
      (r.node (collect options document).1, (collect options document).2.map r.note) := by
  have stripped : (⟨(r.node document).kind, stripAll (r.node document).children⟩ : Node) =
      r.node ⟨document.kind, stripAll document.children⟩ := by
    rw [children_node, stripAll_node, kind_node, node_mk]
  rw [collect, stripped, children_node, notesAll_node, firsts_note, collect]
  split
  · exact r.liftDocument_node _ _
  · rfl

/-! ### Numbers -/

/-- The notes with the kinds in their contents changed. -/
def notes (notes : Notes) : Notes :=
  ⟨notes.listed.map r.note, notes.short.map r.note⟩

/-- A warning with the label of a reference changed. -/
def warning : Warning → Warning
  | .undefinedFootnote label => .undefinedFootnote (r.label label)
  | .footnoteCycle label => .footnoteCycle (r.label label)
  | warning => warning

/-- The numbers given so far, with the labels in the warnings changed. -/
def numbering (numbering : Numbering) : Numbering :=
  ⟨numbering.order, numbering.warnings.map r.warning⟩

theorem numbering_warn (warning : Warning) (given : Numbering) :
    r.numbering (given.warn warning) = (r.numbering given).warn (r.warning warning) := by
  simp [numbering, Numbering.warn]

/-- A label gets the same number before and after renaming. -/
theorem number_numbering (label : String) (given : Numbering) :
    (r.numbering given).number label =
      ((given.number label).1, r.numbering (given.number label).2) := by
  rw [Numbering.number, Numbering.number, numbering]
  cases given.order.findIdx? (· == label) <;> rfl

/-- Whether a changed reference becomes what the reference becomes, changed. -/
def Follows (reference reference' : String → Numbering → Node × Numbering) : Prop :=
  ∀ label given, reference' (r.label label) (r.numbering given) =
    (r.node (reference label given).1, r.numbering (reference label given).2)

variable {r} {reference reference' : String → Numbering → Node × Numbering}

mutual

/-- Resolving the references of a tree commutes with renaming, as long as the renaming follows what each
reference becomes. -/
theorem resolve_node (follows : r.Follows reference reference') :
    ∀ (tree : Node) (given : Numbering), resolve reference' (r.node tree) (r.numbering given) =
      (r.node (resolve reference tree given).1, r.numbering (resolve reference tree given).2)
  | ⟨kind, children⟩, given => by
      simp only [node_mk, resolve, resolveAll_node follows children given]

theorem resolveAll_node (follows : r.Follows reference reference') :
    ∀ (nodes : List Node) (given : Numbering),
      resolveAll reference' (nodes.map r.node) (r.numbering given) =
        ((resolveAll reference nodes given).1.map r.node,
          r.numbering (resolveAll reference nodes given).2)
  | [], given => rfl
  | ⟨kind, children⟩ :: rest, given => by
      cases refers : kind.isReference with
      | true =>
          obtain ⟨_, rfl⟩ := NodeKind.exists_of_isReference refers
          rw [List.map_cons, node_mk, r.kind_reference, resolveAll_reference, resolveAll_reference,
            follows, resolveAll_node follows rest, List.map_cons]
      | false =>
          have same := (r.isReference_kind kind).trans refers
          rw [List.map_cons, node_mk, resolveAll_other same, resolveAll_other refers,
            resolveAll_node follows children given, resolveAll_node follows rest, List.map_cons, node_mk]

end

variable (r) in
/-- Whether labels stay: a label that is changed is not among them, before or after. -/
def Keeps (labels : List String) : Prop :=
  ∀ name, r.label name = name ∨ name ∉ labels ∧ r.label name ∉ labels

namespace Keeps

variable {labels : List String} {name : String}

theorem mem_iff (keeps : r.Keeps labels) : r.label name ∈ labels ↔ name ∈ labels := by
  rcases keeps name with same | ⟨old, new⟩
  · rw [same]
  · simp [old, new]

/-- A kept label is its own new name. -/
theorem eq_of_mem (keeps : r.Keeps labels) (member : name ∈ labels) : r.label name = name := by
  rcases keeps name with same | ⟨old, -⟩
  · exact same
  · exact absurd member old

theorem mono {fewer : List String} (keeps : r.Keeps labels) (subset : fewer ⊆ labels) :
    r.Keeps fewer := fun name =>
  (keeps name).imp_right fun absent => ⟨fun member => absent.1 (subset member),
    fun member => absent.2 (subset member)⟩

/-- A label leads to the same note. -/
theorem content?_eq {notes : List Note} (keeps : r.Keeps (notes.map (·.label))) :
    content? (r.label name) notes = content? name notes := by
  rcases keeps name with same | ⟨old, new⟩
  · rw [same]
  · rw [content?_eq_none_iff.2 old, content?_eq_none_iff.2 new]

end Keeps

/-- Broken references stay broken, whatever is warned of. -/
theorem broken_eq (label : String) (warning : String → Warning)
    (same : r.warning (warning label) = warning (r.label label)) (given : Numbering) :
    (leaf (.brokenReference (r.label label)), (r.numbering given).warn (warning (r.label label))) =
      (r.node (leaf (.brokenReference label)), r.numbering (given.warn (warning label))) := by
  rw [leaf, leaf, node_mk, r.kind_broken, numbering_warn, same, List.map_nil]

/-- The references to notes follow a change that keeps the labels of the notes. -/
theorem follows_refer {given : Notes} {labels : List String} (keeps : r.Keeps labels)
    (listed : given.listed.map (·.label) ⊆ labels) (short : given.short.map (·.label) ⊆ labels)
    (fuel : Nat) {shown : List String} (inside : shown ⊆ labels) :
    r.Follows (given.refer fuel shown) ((r.notes given).refer fuel shown) := by
  induction fuel generalizing shown with
  | zero => exact fun label numbers => broken_eq label .footnoteCycle rfl numbers
  | succ fuel ih =>
      intro label numbers
      have still : shown.contains (r.label label) = shown.contains label := by
        rw [Bool.eq_iff_iff, List.contains_iff_mem, List.contains_iff_mem]
        exact (keeps.mono inside).mem_iff
      rw [Notes.refer, Notes.refer, still, notes, content?_note, content?_note,
        (keeps.mono short).content?_eq, (keeps.mono listed).content?_eq]
      split
      · exact broken_eq label .footnoteCycle rfl numbers
      · cases found : content? label given.short with
        | some content =>
            have member : label ∈ labels := short (mem_of_content? found)
            have below := @ih (label :: shown) (List.cons_subset.2 ⟨member, inside⟩)
            have kept : r.kind (.inlineNote label) = .inlineNote label := r.kind_noteKind rfl
            rw [notes] at below
            simp only [Option.map_some, keeps.eq_of_mem member, resolveAll_node below, node_mk, kept]
        | none =>
            simp only [Option.map_none, Option.isSome_map]
            split
            · next some =>
                obtain ⟨content, found⟩ := Option.isSome_iff_exists.1 some
                have kept (n : UInt64) :
                    r.kind (.footnoteCrossReference label n) = .footnoteCrossReference label n :=
                  r.kind_noteKind rfl
                simp only [keeps.eq_of_mem (listed (mem_of_content? found)), number_numbering, leaf,
                  node_mk, kept, List.map_nil]
            · exact broken_eq label .undefinedFootnote rfl numbers

section Numbered

variable {given : Notes} {labels : List String}

/-- A renaming that keeps the labels of all notes follows what each reference becomes. -/
theorem follows_reference (keeps : r.Keeps labels) (listed : given.listed.map (·.label) ⊆ labels)
    (short : given.short.map (·.label) ⊆ labels) :
    r.Follows given.reference (r.notes given).reference := by
  have length : (r.notes given).short.length = given.short.length := List.length_map _
  rw [Notes.reference, Notes.reference, length]
  exact follows_refer keeps listed short _ (List.nil_subset _)

/-- The items of renamed notes are the renamed items, with the same numbers. -/
theorem items_notes (follows : r.Follows given.reference (r.notes given).reference) (fuel n : Nat)
    (numbers : Numbering) : (r.notes given).items fuel n (r.numbering numbers) =
      ((given.items fuel n numbers).1.map r.node, r.numbering (given.items fuel n numbers).2) := by
  induction fuel generalizing n numbers with
  | zero => rfl
  | succ fuel ih =>
      have order : (r.numbering numbers).order = numbers.order := rfl
      rw [Notes.items, Notes.items, order]
      cases numbers.order[n]? with
      | none => rfl
      | some label =>
          have content : (content? label (r.notes given).listed).getD [] =
              ((content? label given.listed).getD []).map r.node := by
            rw [notes, content?_note]
            cases content? label given.listed <;> rfl
          have kept (m : UInt64) : r.kind (.footnoteItem label m) = .footnoteItem label m :=
            r.kind_noteKind rfl
          simp only [content, resolveAll_node follows, ih, List.map_cons, node_mk, kept]

end Numbered

variable (r)

/-- A note is short exactly when the renamed note is. -/
theorem isShort_note (options : FootnoteOptions) (note : Note) :
    isShort options (r.note note) = isShort options note := by
  obtain ⟨label, content⟩ := note
  rw [isShort, isShort, Renaming.note]
  congr 1
  rcases content with _ | ⟨first, _ | ⟨second, rest⟩⟩
  · rfl
  · have paragraph : (r.node first).kind = .paragraph ↔ first.kind = .paragraph := by
      rw [kind_node, r.kind_eq_iff rfl]
    simp only [List.map_cons, List.map_nil, textContent_node, paragraph]
  · rfl

/-- Renamed notes are sorted into short and listed ones as before. -/
theorem ofList_note (options : FootnoteOptions) (notes : List Note) :
    Notes.ofList options (notes.map r.note) = r.notes (Notes.ofList options notes) := by
  have shorts : isShort options ∘ r.note = isShort options := by
    funext note
    exact r.isShort_note options note
  have others : (fun note => !isShort options note) ∘ r.note = fun note => !isShort options note := by
    funext note
    rw [Function.comp_apply, isShort_note]
  rw [Notes.ofList, List.filter_map, List.filter_map, shorts, others, Notes.ofList, Renaming.notes,
    List.map_map, List.map_map]
  congr 1
  refine List.map_congr_left fun note _ => ?_
  simp [Renaming.note, List.flatMap_map, List.map_flatMap]

/-- A change that keeps the labels of the notes may be made before the footnotes are made or after. -/
theorem apply_node (options : FootnoteOptions) (document : Node)
    (keeps : r.Keeps ((collect options document).2.map (·.label))) :
    apply options (r.node document) =
      (r.node (apply options document).1, (apply options document).2.map r.warning) := by
  have doubled : (firsts [] (notesAll (document.children.map r.node))).2 =
      (firsts [] (notesAll document.children)).2 := by
    rw [notesAll_node, firsts_note]
  have repeated (labels : List String) : r.numbering ⟨[], labels.map .duplicateFootnote⟩ =
      ⟨[], labels.map .duplicateFootnote⟩ := by
    rw [numbering, List.map_map]
    rfl
  have length (notes : Notes) : (r.notes notes).listed.length = notes.listed.length :=
    List.length_map _
  have list (items : List Node) : (if items.isEmpty then [] else
      [(⟨.footnoteList, items.map r.node⟩ : Node)]) =
      (if items.isEmpty then [] else [⟨.footnoteList, items⟩]).map r.node := by
    split
    · rfl
    · rw [List.map_singleton, node_mk, r.kind_noteKind rfl]
  have follows := follows_reference keeps (labels_listed_ofList options _)
    (labels_short_ofList options _)
  have resolved := resolve_node follows (collect options document).1
    ⟨[], (firsts [] (notesAll document.children)).2.map .duplicateFootnote⟩
  rw [repeated] at resolved
  simp only [apply_eq, children_node, doubled, collect_node, ofList_note, resolved, length,
    items_notes follows, List.isEmpty_map, node_mk, kind_node, List.map_append, list]
  rfl

end Renaming

/-! ### Titles of code blocks -/

open Caption (titled titled_eq_self congr_titled)

/-- Giving titles to code blocks, as a change that footnotes do not see. -/
def titling : Renaming where
  kind := titled
  label := id
  kind_noteKind own := titled_eq_self (by rename_i old; cases old <;> first | rfl | cases own)
  isNoteKind_kind := congr_titled NodeKind.isNoteKind (fun _ _ _ => rfl) fun _ _ _ => rfl
  kind_reference _ := rfl
  isReference_kind := congr_titled NodeKind.isReference (fun _ _ _ => rfl) fun _ _ _ => rfl
  kind_broken _ := rfl
  isCode_kind := Caption.isCode_titled
  ownText_kind := Caption.ownText_titled
  label_generated _ := rfl

theorem warning_titling (warning : Warning) : titling.warning warning = warning := by
  cases warning <;> rfl

/-- Titles may be given before the footnotes are made or after. -/
theorem apply_titled (options : FootnoteOptions) (document : Node) :
    apply options (Caption.apply document) =
      (Caption.apply (apply options document).1, (apply options document).2) := by
  have same := titling.apply_node options document fun _ => .inl rfl
  rwa [funext warning_titling, List.map_id'] at same

end Footnote

end DocPress
