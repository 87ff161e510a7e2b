import DocPress.Proofs.Footnote.Rename
import DocPress.Proofs.Node.Sound

/-!
Footnotes in sound trees. What definitions, notes written in place and references leave or become may
take their places, so that a document with its footnotes numbered is as sound as it was before.
-/

namespace DocPress.Footnote

open Node

variable {written : Bool}

/-- Whether the contents of notes are sound. -/
def AreNotesSound (written : Bool) (notes : List Note) : Prop :=
  ∀ note ∈ notes, AreSound written true note.content

theorem areNotesSound_append {first second : List Note} :
    AreNotesSound written (first ++ second) ↔
      AreNotesSound written first ∧ AreNotesSound written second :=
  List.forall_mem_append

/-! ### Definitions -/

mutual

/-- Definitions may be left out. -/
theorem replaces_strip : ∀ node : Node, Replaces written [node] (strip node)
  | ⟨kind, children⟩ => by
      cases definition : kind.isDefinition with
      | true =>
          cases kind <;> cases definition
          exact .of_sublist (List.nil_sublist _)
      | false =>
          rw [strip_of_not_definition children definition]
          exact .node (.refl kind) (replaces_stripAll children)

theorem replaces_stripAll : ∀ nodes : List Node, Replaces written nodes (stripAll nodes)
  | [] => .refl []
  | node :: rest => (replaces_strip node).append (replaces_stripAll rest)

end

mutual

/-- The definitions in a sound tree have sound contents. -/
theorem areNotesSound_notes : ∀ {node : Node}, IsSound written true node →
    AreNotesSound written (notes node)
  | ⟨kind, children⟩, sound => by
      obtain ⟨-, -, below⟩ := isSound_mk.1 sound
      have inside := areNotesSound_notesAll below
      cases definition : kind.isDefinition with
      | true =>
          cases kind <;> cases definition
          exact areNotesSound_append.2
            ⟨inside, List.forall_mem_singleton.2 ((replaces_stripAll children).sound below)⟩
      | false => rwa [notes_of_not_definition children definition]

theorem areNotesSound_notesAll : ∀ {nodes : List Node}, AreSound written true nodes →
    AreNotesSound written (notesAll nodes)
  | [], _ => fun _ member => absurd member List.not_mem_nil
  | node :: rest, sound => by
      rw [areSound_cons] at sound
      exact areNotesSound_append.2
        ⟨areNotesSound_notes sound.1.end, areNotesSound_notesAll sound.2⟩

end

/-! ### Notes written in place -/

/-- A piece as a tree. -/
def Piece.tree : Piece → Node
  | .char c => .text (String.singleton c)
  | .node tree => tree

@[simp] theorem Piece.tree_node (tree : Node) : (Piece.node tree).tree = tree := rfl

/-- The texts of characters are sound anywhere. -/
theorem areSound_chars (last : Bool) (text : List Char) :
    AreSound written last (text.map (Piece.tree ∘ .char)) := by
  refine (areSound_of_isClosed ?_).2 ?_
  · intro node member
    obtain ⟨c, -, rfl⟩ := List.mem_map.1 member
    rfl
  · intro node member
    obtain ⟨c, -, rfl⟩ := List.mem_map.1 member
    exact isSound_leaf trivial

/-- A text may be cut into its characters. -/
theorem replaces_pieces (nodes : List Node) : Replaces written nodes ((pieces nodes).map Piece.tree) := by
  induction nodes with
  | nil => exact .refl []
  | cons node rest ih =>
      obtain ⟨kind, children⟩ := node
      cases text : kind.isText with
      | true =>
          cases kind <;> cases text
          next value =>
            rw [pieces, List.map_append, List.map_map]
            have cut : Replaces written [⟨.text value, children⟩]
                (value.toList.map (Piece.tree ∘ .char)) :=
              ⟨fun _ => areSound_chars _ _, by simp [isFootnoteList, NodeKind.isFootnoteList],
                by simp [NodeKind.isTablePart]⟩
            exact cut.append ih
      | false =>
          rw [pieces_of_not_text children rest text]
          exact .cons (.refl _) ih

/-- Characters side by side may be one text. -/
theorem replaces_joinPieces (pieces : List Piece) :
    Replaces written (pieces.map Piece.tree) (joinPieces pieces) := by
  induction pieces with
  | nil => exact .refl []
  | cons piece rest ih =>
      cases piece with
      | node tree => exact .cons (.refl _) ih
      | char c =>
          refine .trans (.cons (.refl _) ih) ?_
          rw [joinPieces]
          split
          · next value children more joined =>
              rw [joined]
              exact .trans (.of_sublist (List.sublist_cons_self _ _))
                (.cons (.node (.text _ _) (.refl _)) (.refl _))
          · exact .refl _

/-- What lifting notes out of trees comes to: the trees that are left may take the place of the old
ones, and the notes made have sound contents if the old ones and the trees are sound. -/
def Lifts (written : Bool) (old : List Node) (lifting : Lifting) (new : List Node)
    (lifted : Lifting) : Prop :=
  Replaces written old new ∧ (AreSound written true old → AreNotesSound written lifting.made →
    AreNotesSound written lifted.made)

variable {old new : List Node} {first second third : Lifting}

theorem Lifts.refl (nodes : List Node) (lifting : Lifting) :
    Lifts written nodes lifting nodes lifting :=
  ⟨.refl nodes, fun _ made => made⟩

theorem Lifts.append {old' new' : List Node} (one : Lifts written old first new second)
    (two : Lifts written old' second new' third) :
    Lifts written (old ++ old') first (new ++ new') third := by
  refine ⟨one.1.append two.1, fun sound made => ?_⟩
  rw [areSound_append] at sound
  exact two.2 sound.2 (one.2 sound.1.end made)

theorem Lifts.trans {middle : List Node} (one : Lifts written old first middle second)
    (two : Lifts written middle second new third) : Lifts written old first new third :=
  ⟨one.1.trans two.1, fun sound made => two.2 (one.1.sound sound) (one.2 sound made)⟩

/-- Lifting out of the children is lifting out of the node. -/
theorem Lifts.node {kind : NodeKind} (inside : Lifts written old first new second) :
    Lifts written [⟨kind, old⟩] first [⟨kind, new⟩] second := by
  refine ⟨.node (.refl kind) inside.1, fun sound => inside.2 ?_⟩
  rw [areSound_singleton, isSound_mk] at sound
  exact sound.2.2.end

/-- A note in its brackets may become a reference to it. -/
theorem lifts_make (inner : List Piece) (lifting : Lifting) :
    Lifts written ((.char '^' :: .char '[' :: inner ++ [.char ']'] : List Piece).map Piece.tree)
      lifting [(lifting.make (joinPieces inner)).1] (lifting.make (joinPieces inner)).2 := by
  refine ⟨.of_isClosed List.mem_cons_self rfl rfl rfl fun _ => isSound_leaf trivial, fun sound made => ?_⟩
  simp only [List.cons_append, List.map_cons, List.map_append, areSound_cons, areSound_append]
    at sound
  have content := (replaces_joinPieces inner).sound sound.2.2.1.end
  refine areNotesSound_append.2 ⟨made, List.forall_mem_singleton.2 ?_⟩
  exact areSound_singleton.2 (isSound_mk.2 ⟨trivial, holdsParts rfl _, content.end⟩)

/-- Lifting notes out of pieces lifts them out of the trees they stand for. -/
theorem LiftsOut.lifts {cut left : List Piece} (out : LiftsOut cut first left second) :
    Lifts written (cut.map Piece.tree) first (left.map Piece.tree) second := by
  induction out with
  | nil lifting => exact .refl [] lifting
  | keep piece later ih => exact Lifts.append (.refl [piece.tree] _) ih
  | note paired filled later ih => simpa using (lifts_make _ _).append ih

/-- Notes are lifted out of the children of a node. -/
theorem lifts_liftChildren (children : List Node) (lifting : Lifting) :
    Lifts written children lifting (liftChildren children lifting).1
      (liftChildren children lifting).2 := by
  rw [liftChildren]
  split
  · have out := liftsOut_liftPieces (pieces children).length (pieces children) lifting
    exact .trans ⟨replaces_pieces children, fun _ made => made⟩
      (out.lifts.trans ⟨replaces_joinPieces _, fun _ made => made⟩)
  · exact .refl _ _

mutual

/-- Notes may be lifted out of a tree. -/
theorem lifts_lift : ∀ (node : Node) (lifting : Lifting),
    Lifts written [node] lifting [(lift node lifting).1] (lift node lifting).2
  | ⟨kind, children⟩, lifting => by
      rw [lift]
      split
      · exact .refl _ _
      · exact .node (.trans (lifts_liftAll children lifting) (lifts_liftChildren _ _))

theorem lifts_liftAll : ∀ (nodes : List Node) (lifting : Lifting),
    Lifts written nodes lifting (liftAll nodes lifting).1 (liftAll nodes lifting).2
  | [], lifting => .refl [] lifting
  | node :: rest, lifting => .append (lifts_lift node lifting) (lifts_liftAll rest _)

end

/-- Lifting out of sound notes keeps them sound and makes sound ones. -/
theorem areNotesSound_liftNotes {notes : List Note} {lifting : Lifting}
    (sound : AreNotesSound written notes) (made : AreNotesSound written lifting.made) :
    AreNotesSound written (liftNotes notes lifting).1 ∧
      AreNotesSound written (liftNotes notes lifting).2.made := by
  induction notes generalizing lifting with
  | nil => exact ⟨sound, made⟩
  | cons note rest ih =>
      obtain ⟨here, others⟩ := List.forall_mem_cons.1 sound
      obtain ⟨replaces, lifted⟩ := @lifts_lift written ⟨.fragment, note.content⟩ lifting
      have holder : AreSound written true [⟨.fragment, note.content⟩] :=
        areSound_singleton.2 (isSound_mk.2 ⟨trivial, holdsParts rfl _, here⟩)
      obtain ⟨contents, more⟩ := ih others (lifted holder made)
      have content := (areSound_singleton.1 (replaces.sound holder)).below
      exact ⟨List.forall_mem_cons.2 ⟨content, contents⟩, more⟩

/-- Lifting the notes out of a document leaves the tree and the notes sound. -/
theorem isSound_liftDocument {tree : Node} {notes : List Note} (sound : IsSound written true tree)
    (known : AreNotesSound written notes) :
    IsSound written true (liftDocument tree notes).1 ∧
      AreNotesSound written (liftDocument tree notes).2 := by
  have nothing : AreNotesSound written [] := fun _ member => absurd member List.not_mem_nil
  obtain ⟨replaces, made⟩ := @lifts_lift written tree ⟨notes.map (·.label), 0, []⟩
  have whole := areSound_singleton.2 sound
  let emptied : Lifting := { (lift tree ⟨notes.map (·.label), 0, []⟩).2 with made := [] }
  have none : AreNotesSound written emptied.made := nothing
  obtain ⟨contents, more⟩ :=
    areNotesSound_liftNotes (areNotesSound_append.2 ⟨known, made whole nothing⟩) none
  exact ⟨areSound_singleton.1 (replaces.sound whole), areNotesSound_append.2 ⟨contents, more⟩⟩

/-! ### References -/

/-- Whether what references become is sound and may stand anywhere. -/
def IsSoundReference (written : Bool) (reference : String → Numbering → Node × Numbering) : Prop :=
  ∀ label numbering, (reference label numbering).1.kind.isClosed = true ∧
    IsSound written true (reference label numbering).1

section

variable {reference : String → Numbering → Node × Numbering}

mutual

/-- References below a node may be resolved. -/
theorem replaces_resolve (resolves : IsSoundReference written reference) :
    ∀ (node : Node) (numbering : Numbering),
      Replaces written [node] [(resolve reference node numbering).1]
  | ⟨kind, children⟩, numbering => by
      rw [resolve]
      exact .node (.refl kind) (replaces_resolveAll resolves children numbering)

/-- Trees with their references resolved may replace them, if what references become is sound. -/
theorem replaces_resolveAll (resolves : IsSoundReference written reference) :
    ∀ (nodes : List Node) (numbering : Numbering),
      Replaces written nodes (resolveAll reference nodes numbering).1
  | [], _ => .refl []
  | node :: rest, numbering => by
      rw [resolveAll]
      refine .cons ?_ (replaces_resolveAll resolves rest _)
      split
      · next label kind =>
          obtain ⟨closed, sound⟩ := resolves label numbering
          refine .of_isClosed List.mem_cons_self ?_ ?_ closed fun _ => sound
          · rw [isFootnoteList, kind]
            rfl
          · rw [kind]
            rfl
      · exact replaces_resolve resolves node numbering

end

end

/-- What becomes of references is sound when the short notes are. -/
theorem isSoundReference_reference {notes : Notes} (short : AreNotesSound written notes.short) :
    IsSoundReference written notes.reference := by
  refine Notes.reference_induction (motive := fun _ _ _ made =>
    made.1.kind.isClosed = true ∧ IsSound written true made.1) ?circle ?short ?listed ?missing
  case circle => exact fun _ _ _ _ _ => ⟨rfl, isSound_leaf trivial⟩
  case short =>
    intro shown note reference numbering member _ _ resolves
    have inside := (replaces_resolveAll resolves note.content numbering).sound (short note member)
    exact ⟨rfl, isSound_mk.2 ⟨trivial, holdsParts rfl _, inside⟩⟩
  case listed => exact fun _ _ _ _ _ _ => ⟨rfl, isSound_leaf trivial⟩
  case missing => exact fun _ _ _ _ _ _ => ⟨rfl, isSound_leaf trivial⟩

/-! ### The list of footnotes -/

variable {notes : Notes}

/-- The items are sound, if the notes are. -/
theorem areSound_items (listed : AreNotesSound written notes.listed)
    (short : AreNotesSound written notes.short) (fuel n : Nat) (numbering : Numbering) :
    AreSound written true (notes.items fuel n numbering).1 := by
  induction fuel generalizing n numbering with
  | zero => exact areSound_nil
  | succ fuel ih =>
      rw [Notes.items]
      split
      · exact areSound_nil
      · next label found =>
          have resolved := (replaces_resolveAll (isSoundReference_reference short) _ numbering).sound
            (content_induction areSound_nil listed label)
          have item : IsSound written true ⟨.footnoteItem label (UInt64.ofNat (n + 1)), _⟩ :=
            isSound_mk.2 ⟨trivial, holdsParts rfl _, resolved⟩
          exact areSound_cons.2 ⟨(isSound_of_isClosed rfl).2 item, ih _ _⟩

/-- Sorting notes into short and listed ones keeps them sound. -/
theorem areNotesSound_ofList (options : FootnoteOptions) {notes : List Note}
    (sound : AreNotesSound written notes) :
    AreNotesSound written (Notes.ofList options notes).listed ∧
      AreNotesSound written (Notes.ofList options notes).short := by
  refine ⟨fun note member => sound note (List.mem_filter.1 member).1, fun note member => ?_⟩
  obtain ⟨long, kept, rfl⟩ := List.mem_map.1 member
  obtain ⟨known, short⟩ := List.mem_filter.1 kept
  have content := sound long known
  rw [isShort, Bool.and_eq_true] at short
  obtain ⟨-, short⟩ := short
  split at short
  · next paragraph same =>
      rw [same] at content ⊢
      simpa using (areSound_singleton.1 content).below
  · cases short

/-- A list of footnotes may stand at the end of a document. -/
theorem isSound_append_list {tree : Node} {items : List Node} (root : tree.kind = .document)
    (sound : IsSound written true tree) (listed : AreSound written true items) :
    IsSound written true
      ⟨tree.kind, tree.children ++ if items.isEmpty then [] else [⟨.footnoteList, items⟩]⟩ := by
  have list : AreSound written true (if items.isEmpty then [] else [⟨.footnoteList, items⟩]) := by
    split
    · exact areSound_nil
    · exact areSound_singleton.2 (isSound_mk.2 ⟨trivial, holdsParts rfl _, listed⟩)
  have last : (if items.isEmpty then [] else [⟨.footnoteList, items⟩]).all isFootnoteList = true := by
    split <;> rfl
  rw [root]
  refine isSound_mk.2 ⟨trivial, holdsParts rfl _, areSound_append.2 ⟨?_, list⟩⟩
  rw [last]
  exact sound.below

/-- What is numbered of a sound document is sound, and so are its notes. -/
theorem isSound_collect (options : FootnoteOptions) {document : Node}
    (root : document.kind = .document) (sound : IsSound written true document) :
    IsSound written true (collect options document).1 ∧
      AreNotesSound written (collect options document).2 := by
  have known : AreNotesSound written (firsts [] (notesAll document.children)).1 :=
    fun note member => areNotesSound_notesAll sound.below note (firsts_subset _ _ member)
  have stripped : IsSound written true ⟨document.kind, stripAll document.children⟩ := by
    rw [root]
    exact isSound_mk.2
      ⟨trivial, holdsParts rfl _, (replaces_stripAll document.children).sound sound.below⟩
  rw [collect]
  split
  · exact isSound_liftDocument stripped known
  · exact ⟨stripped, known⟩

/-- Numbering the footnotes of a sound document leaves it sound. -/
theorem isSound_apply (options : FootnoteOptions) {document : Node}
    (root : document.kind = .document) (sound : IsSound written true document) :
    IsSound written true (apply options document).1 := by
  obtain ⟨tree, notes⟩ := isSound_collect options root sound
  obtain ⟨listed, short⟩ := areNotesSound_ofList options notes
  have resolves := isSoundReference_reference short
  rw [apply_eq]
  refine isSound_append_list ?_ ?_ (areSound_items listed short _ _ _)
  · rw [resolve_kind, collect_kind, root]
  · exact areSound_singleton.1 ((replaces_resolve resolves _ _).sound (areSound_singleton.2 tree))

end DocPress.Footnote
