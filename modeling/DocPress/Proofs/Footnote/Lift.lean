import DocPress.Footnote.Definition
import DocPress.Footnote.Lift
import DocPress.Proofs.Node

/-!
What is left when the definitions of footnotes are taken out of a tree, and what lifting puts into it.
Neither the tree nor the contents of the notes hold a definition, and nothing is in them that was not in
the tree. Besides what was there, lifting puts in only texts, paragraphs around the notes that were
lifted, and references to them.
-/

namespace DocPress

/-- Whether the kind is the definition of a footnote. -/
def NodeKind.isDefinition : NodeKind → Bool
  | .footnoteDefinition _ => true
  | _ => false

theorem NodeKind.exists_of_isDefinition {kind : NodeKind} (definition : kind.isDefinition = true) :
    ∃ label, kind = .footnoteDefinition label := by
  cases kind with
  | footnoteDefinition label => exact ⟨label, rfl⟩
  | _ => cases definition

namespace Footnote

open Node

variable {p : NodeKind → Prop}

/-- All nodes in the contents of notes have a kind that satisfies `p`. -/
def EveryNote (p : NodeKind → Prop) (notes : List Note) : Prop :=
  ∀ note ∈ notes, EveryAll p note.content

theorem everyNote_append {first second : List Note} :
    EveryNote p (first ++ second) ↔ EveryNote p first ∧ EveryNote p second := by
  simp only [EveryNote, List.mem_append]
  constructor
  · intro every
    exact ⟨fun note member => every note (.inl member), fun note member => every note (.inr member)⟩
  · rintro ⟨head, tail⟩ note (member | member)
    · exact head note member
    · exact tail note member

/-- A node that is no definition leaves itself. -/
theorem strip_of_not_definition {kind : NodeKind} (children : List Node)
    (other : kind.isDefinition = false) :
    strip ⟨kind, children⟩ = [⟨kind, stripAll children⟩] := by
  cases kind <;> simp [NodeKind.isDefinition] at other <;> rfl

/-- The definitions in a node that is none itself are those in its children. -/
theorem notes_of_not_definition {kind : NodeKind} (children : List Node)
    (other : kind.isDefinition = false) : notes ⟨kind, children⟩ = notesAll children := by
  cases kind <;> simp [NodeKind.isDefinition] at other <;> rfl

mutual

/-- Taking out definitions leaves only nodes of the tree, and no definitions. -/
theorem strip_every :
    ∀ (node : Node), node.Every p →
      EveryAll (fun kind => p kind ∧ kind.isDefinition = false) (strip node)
  | ⟨kind, children⟩, every => by
      obtain ⟨here, below⟩ := every_mk.1 every
      cases definition : kind.isDefinition with
      | true =>
          obtain ⟨_, rfl⟩ := NodeKind.exists_of_isDefinition definition
          simp [strip]
      | false =>
          rw [strip_of_not_definition children definition]
          simp [here, definition, stripAll_every children below]

/-- Taking out definitions leaves only nodes of the trees, and no definitions. -/
theorem stripAll_every :
    ∀ (nodes : List Node), EveryAll p nodes →
      EveryAll (fun kind => p kind ∧ kind.isDefinition = false) (stripAll nodes)
  | [], _ => by simp [stripAll]
  | node :: rest, every => by
      obtain ⟨head, tail⟩ := everyAll_cons.1 every
      simp [stripAll, strip_every node head, stripAll_every rest tail]

end

mutual

/-- The contents of the notes in a tree have only nodes of the tree, and no definitions. -/
theorem notes_every :
    ∀ (node : Node), node.Every p →
      EveryNote (fun kind => p kind ∧ kind.isDefinition = false) (notes node)
  | ⟨kind, children⟩, every => by
      obtain ⟨-, below⟩ := every_mk.1 every
      cases definition : kind.isDefinition with
      | true =>
          obtain ⟨_, rfl⟩ := NodeKind.exists_of_isDefinition definition
          rw [notes, everyNote_append]
          refine ⟨notesAll_every children below, ?_⟩
          simpa [EveryNote] using stripAll_every children below
      | false =>
          rw [notes_of_not_definition children definition]
          exact notesAll_every children below

/-- The contents of the notes in trees have only nodes of the trees, and no definitions. -/
theorem notesAll_every :
    ∀ (nodes : List Node), EveryAll p nodes →
      EveryNote (fun kind => p kind ∧ kind.isDefinition = false) (notesAll nodes)
  | [], _ => by simp [notesAll, EveryNote]
  | node :: rest, every => by
      obtain ⟨head, tail⟩ := everyAll_cons.1 every
      rw [notesAll, everyNote_append]
      exact ⟨notes_every node head, notesAll_every rest tail⟩

end

/-- The first notes of the labels are some of the notes. -/
theorem firsts_subset (seen : List String) (notes : List Note) : (firsts seen notes).1 ⊆ notes := by
  induction notes generalizing seen with
  | nil => simp [firsts]
  | cons note rest ih =>
      simp only [firsts]
      split
      · exact List.subset_cons_of_subset note (ih seen)
      · exact List.cons_subset_cons note (ih (note.label :: seen))

/-- The content found for a label is the content of a note with this label. -/
theorem exists_note_of_content? {label : String} {notes : List Note} {content : List Node}
    (found : content? label notes = some content) :
    ∃ note ∈ notes, note.label = label ∧ note.content = content := by
  obtain ⟨note, search, same⟩ := Option.map_eq_some_iff.1 found
  have labelled : note.label = label := by simpa using List.find?_some search
  exact ⟨note, List.mem_of_find?_eq_some search, labelled, same⟩

theorem mem_of_content? {label : String} {notes : List Note} {content : List Node}
    (found : content? label notes = some content) : label ∈ notes.map (·.label) := by
  obtain ⟨note, member, rfl, -⟩ := exists_note_of_content? found
  exact List.mem_map_of_mem member

/-- What holds of no nodes and of the contents of notes holds of what is found for a label. -/
theorem content_induction {motive : List Node → Prop} {notes : List Note} (nil : motive [])
    (note : ∀ note ∈ notes, motive note.content) (label : String) :
    motive ((content? label notes).getD []) := by
  cases found : content? label notes with
  | none => exact nil
  | some content =>
      obtain ⟨known, member, -, rfl⟩ := exists_note_of_content? found
      exact note known member

theorem EveryNote.content? {p : NodeKind → Prop} {notes : List Note} (every : EveryNote p notes)
    (label : String) : EveryAll p ((Footnote.content? label notes).getD []) :=
  content_induction everyAll_nil every label

/-- There is no content for a label that no note has. -/
theorem content?_eq_none_iff {label : String} {notes : List Note} :
    content? label notes = none ↔ label ∉ notes.map (·.label) := by
  rw [content?, Option.map_eq_none_iff, List.find?_eq_none]
  simp only [beq_iff_eq, List.mem_map, not_exists, not_and]

/-! ### Pieces of text -/

/-- A property of kinds that what lifting makes has. -/
structure AllowsLifting (p : NodeKind → Prop) : Prop where
  text : ∀ value, p (.text value)
  paragraph : p .paragraph
  reference : ∀ label, p (.footnoteReference label)

/-- All nodes in a piece have a kind that satisfies `p`. -/
def Piece.Every (p : NodeKind → Prop) : Piece → Prop
  | .char _ => True
  | .node tree => tree.Every p

/-- A node that is no text is a piece of its own. -/
theorem pieces_of_not_text {kind : NodeKind} (children rest : List Node)
    (other : kind.isText = false) :
    pieces (⟨kind, children⟩ :: rest) = .node ⟨kind, children⟩ :: pieces rest := by
  cases kind <;> simp [NodeKind.isText] at other <;> rfl

/-- What holds of the characters of texts and of all other nodes holds of the pieces. -/
theorem forall_mem_pieces {q : Piece → Prop} {nodes : List Node}
    (char : ∀ value children, ⟨.text value, children⟩ ∈ nodes → ∀ c ∈ value.toList, q (.char c))
    (node : ∀ node ∈ nodes, node.kind.isText = false → q (.node node)) :
    ∀ piece ∈ pieces nodes, q piece := by
  induction nodes with
  | nil => exact fun _ member => absurd member List.not_mem_nil
  | cons first rest ih =>
      obtain ⟨here, later⟩ := List.forall_mem_cons.1 node
      have behind := ih (fun value children member => char value children (.tail _ member)) later
      obtain ⟨kind, children⟩ := first
      cases text : kind.isText with
      | true =>
          obtain ⟨value, rfl⟩ := NodeKind.exists_of_isText text
          rw [pieces, List.forall_mem_append, List.forall_mem_map]
          exact ⟨char value children List.mem_cons_self, behind⟩
      | false =>
          rw [pieces_of_not_text children rest text, List.forall_mem_cons]
          exact ⟨here text, behind⟩

/-- Cutting nodes into pieces brings in no kind. -/
theorem pieces_every {nodes : List Node} (every : EveryAll p nodes) :
    ∀ piece ∈ pieces nodes, piece.Every p :=
  forall_mem_pieces (fun _ _ _ _ _ => True.intro)
    fun node member _ => everyAll_iff_forall.1 every node member

/-- Nodes with a character in front of them, which becomes part of a text that they start with. -/
def putChar (c : Char) : List Node → List Node
  | ⟨.text value, children⟩ :: more => ⟨.text (String.singleton c ++ value), children⟩ :: more
  | nodes => .text (String.singleton c) :: nodes

theorem joinPieces_char (c : Char) (rest : List Piece) :
    joinPieces (.char c :: rest) = putChar c (joinPieces rest) := rfl

theorem putChar_of_not_text (c : Char) {kind : NodeKind} (other : kind.isText = false)
    (children more : List Node) :
    putChar c (⟨kind, children⟩ :: more) =
      .text (String.singleton c) :: ⟨kind, children⟩ :: more := by
  cases kind <;> simp [NodeKind.isText] at other <;> rfl

theorem hasCaret_of_not_text {kind : NodeKind} (children : List Node) (other : kind.isText = false) :
    hasCaret ⟨kind, children⟩ = false := by
  cases kind <;> simp [NodeKind.isText] at other <;> rfl

/-- Joining pieces brings in no kind but that of texts. -/
theorem joinPieces_every (allows : AllowsLifting p) {pieces : List Piece}
    (every : ∀ piece ∈ pieces, piece.Every p) : EveryAll p (joinPieces pieces) := by
  induction pieces with
  | nil => simp [joinPieces]
  | cons piece rest ih =>
      have tail := ih fun piece member => every piece (List.mem_cons_of_mem _ member)
      cases piece with
      | node node => exact everyAll_cons.2 ⟨every (.node node) List.mem_cons_self, tail⟩
      | char c =>
          rw [joinPieces]
          split
          · next value children more joined =>
              rw [joined, everyAll_cons, every_mk] at tail
              simp [allows.text, tail.1.2, tail.2]
          · simp [Node.text, leaf, allows.text, tail]

/-- An opening bracket inside of a note opens one more to be closed. -/
theorem closeNote?_opening (depth : Nat) (rest : List Piece) :
    closeNote? depth (.char '[' :: rest) =
      (closeNote? (depth + 1) rest).map fun parts => (.char '[' :: parts.1, parts.2) :=
  closeNote?.eq_4 depth rest

/-- A piece that is no bracket is part of the note. -/
theorem closeNote?_other {piece : Piece} (closes : piece ≠ .char ']') (opens : piece ≠ .char '[')
    (depth : Nat) (rest : List Piece) :
    closeNote? depth (piece :: rest) =
      (closeNote? depth rest).map fun parts => (piece :: parts.1, parts.2) :=
  closeNote?.eq_5 depth piece rest closes opens

/-- A piece that closes nothing belongs to the note, and may open a bracket in it. -/
theorem closeNote?_of_ne {piece : Piece} (other : piece ≠ .char ']') (depth : Nat) :
    ∃ deeper, ∀ rest, closeNote? depth (piece :: rest) =
      (closeNote? deeper rest).map fun parts => (piece :: parts.1, parts.2) := by
  by_cases opens : piece = .char '['
  · subst opens
    exact ⟨depth + 1, closeNote?_opening depth⟩
  · exact ⟨depth, closeNote?_other other opens depth⟩

/-- Whether brackets come in pairs in pieces in front of which `depth` brackets are open. -/
inductive Paired : Nat → List Piece → Prop where
  | nil : Paired 0 []
  | closing {depth : Nat} {rest : List Piece} (later : Paired depth rest) :
      Paired (depth + 1) (.char ']' :: rest)
  | opening {depth : Nat} {rest : List Piece} (later : Paired (depth + 1) rest) :
      Paired depth (.char '[' :: rest)
  | other {depth : Nat} {piece : Piece} {rest : List Piece} (closes : piece ≠ .char ']')
      (opens : piece ≠ .char '[') (later : Paired depth rest) : Paired depth (piece :: rest)

/-- A note whose brackets are paired ends at the first bracket behind it. -/
theorem Paired.closeNote? {depth : Nat} {inner : List Piece} (paired : Paired depth inner)
    (after : List Piece) :
    Footnote.closeNote? depth (inner ++ .char ']' :: after) = some (inner, after) := by
  induction paired with
  | nil => rfl
  | closing later ih => rw [List.cons_append, Footnote.closeNote?, ih, Option.map_some]
  | opening later ih => rw [List.cons_append, closeNote?_opening, ih, Option.map_some]
  | other closes opens later ih =>
      rw [List.cons_append, closeNote?_other closes opens, ih, Option.map_some]

/-- A note ends at the bracket in front of which the brackets in it come in pairs. -/
theorem closeNote?_eq_some_iff {depth : Nat} {pieces inner after : List Piece} :
    closeNote? depth pieces = some (inner, after) ↔
      Paired depth inner ∧ pieces = inner ++ .char ']' :: after := by
  constructor
  · intro found
    induction pieces generalizing depth inner after with
    | nil => cases found
    | cons first rest ih =>
        by_cases closes : first = .char ']'
        · subst closes
          cases depth with
          | zero =>
              obtain ⟨rfl, rfl⟩ := Prod.mk.inj (Option.some.inj found)
              exact ⟨.nil, rfl⟩
          | succ depth =>
              obtain ⟨⟨before, behind⟩, deeper, same⟩ := Option.map_eq_some_iff.1 found
              obtain ⟨rfl, rfl⟩ := Prod.mk.inj same
              obtain ⟨paired, rfl⟩ := ih deeper
              exact ⟨.closing paired, rfl⟩
        · by_cases opens : first = .char '['
          · subst opens
            rw [closeNote?_opening] at found
            obtain ⟨⟨before, behind⟩, deeper, same⟩ := Option.map_eq_some_iff.1 found
            obtain ⟨rfl, rfl⟩ := Prod.mk.inj same
            obtain ⟨paired, rfl⟩ := ih deeper
            exact ⟨.opening paired, rfl⟩
          · rw [closeNote?_other closes opens] at found
            obtain ⟨⟨before, behind⟩, further, same⟩ := Option.map_eq_some_iff.1 found
            obtain ⟨rfl, rfl⟩ := Prod.mk.inj same
            obtain ⟨paired, rfl⟩ := ih further
            exact ⟨.other closes opens paired, rfl⟩
  · rintro ⟨paired, rfl⟩
    exact paired.closeNote? after

/-- The bracket that closes a note stands between the pieces in the note and those after it. -/
theorem eq_of_closeNote? {depth : Nat} {pieces inner after : List Piece}
    (found : closeNote? depth pieces = some (inner, after)) :
    pieces = inner ++ .char ']' :: after :=
  (closeNote?_eq_some_iff.1 found).2

theorem length_lt_of_closeNote? {depth : Nat} {pieces inner after : List Piece}
    (found : closeNote? depth pieces = some (inner, after)) : after.length < pieces.length := by
  rw [eq_of_closeNote? found, List.length_append, List.length_cons]
  omega

/-- What lifting does to pieces, with what is left of them and the state of lifting after it: each piece
is kept, or a note that is closed and not blank becomes the reference to it. -/
inductive LiftsOut : List Piece → Lifting → List Piece → Lifting → Prop where
  | nil (lifting : Lifting) : LiftsOut [] lifting [] lifting
  | keep {behind left : List Piece} {before after : Lifting} (piece : Piece)
      (later : LiftsOut behind before left after) :
      LiftsOut (piece :: behind) before (piece :: left) after
  | note {inner behind left : List Piece} {before after : Lifting}
      (paired : Paired 0 inner) (filled : isBlank (joinPieces inner) = false)
      (later : LiftsOut behind (before.make (joinPieces inner)).2 left after) :
      LiftsOut (.char '^' :: .char '[' :: inner ++ .char ']' :: behind) before
        (.node (before.make (joinPieces inner)).1 :: left) after

namespace LiftsOut

variable {cut left : List Piece} {before after : Lifting}

/-- Pieces in front of what is lifted out of stay. -/
theorem append_left (lifts : LiftsOut cut before left after) (front : List Piece) :
    LiftsOut (front ++ cut) before (front ++ left) after := by
  induction front with
  | nil => exact lifts
  | cons piece rest ih => exact .keep piece ih

theorem refl (cut : List Piece) (lifting : Lifting) : LiftsOut cut lifting cut lifting := by
  simpa using append_left (.nil lifting) cut

/-- A property of pieces that references have stays when notes are lifted. -/
theorem forall_mem {q : Piece → Prop} (lifts : LiftsOut cut before left after)
    (reference : ∀ label, q (.node (leaf (.footnoteReference label)))) (all : ∀ piece ∈ cut, q piece) :
    ∀ piece ∈ left, q piece := by
  induction lifts with
  | nil lifting => exact all
  | keep piece later ih =>
      rw [List.forall_mem_cons] at all ⊢
      exact ⟨all.1, ih all.2⟩
  | note paired filled later ih =>
      simp only [List.cons_append, List.forall_mem_cons, List.forall_mem_append] at all
      exact List.forall_mem_cons.2 ⟨reference _, ih all.2.2.2.2⟩

end LiftsOut

/-- Lifting takes whole notes out of the pieces, one after another. -/
theorem liftsOut_liftPieces (fuel : Nat) (pieces : List Piece) (lifting : Lifting) :
    LiftsOut pieces lifting (liftPieces fuel pieces lifting).1 (liftPieces fuel pieces lifting).2 := by
  fun_induction liftPieces fuel pieces lifting with
  | case1 | case2 | case3 => exact .refl _ _
  | case4 fuel rest lifting inner after found content blank later more lifted ih =>
      -- A blank note is left as it is, and what stands behind it is lifted.
      rw [lifted] at ih
      obtain rfl := eq_of_closeNote? found
      exact .keep _ (.keep _ ((LiftsOut.keep _ ih).append_left inner))
  | case5 fuel rest lifting inner after found content blank reference made making later more lifted
      ih =>
      rw [lifted] at ih
      obtain ⟨paired, rfl⟩ := closeNote?_eq_some_iff.1 found
      obtain ⟨rfl, rfl⟩ := Prod.mk.inj making
      exact .note paired (Bool.eq_false_iff.2 blank) ih
  | case6 fuel piece rest lifting other later more lifted ih =>
      rw [lifted] at ih
      exact .keep piece ih

/-- Making a note keeps the contents of all notes in `p`. -/
theorem Lifting.make_every (allows : AllowsLifting p) {content : List Node} {lifting : Lifting}
    (every : EveryAll p content) (made : EveryNote p lifting.made) :
    EveryNote p (lifting.make content).2.made := by
  rw [make, everyNote_append]
  exact ⟨made, by simp [EveryNote, allows.paragraph, every]⟩

/-- The notes that are lifted hold no kinds but those of the pieces. -/
theorem LiftsOut.everyNote (allows : AllowsLifting p) {cut left : List Piece} {before after : Lifting}
    (lifts : LiftsOut cut before left after) (every : ∀ piece ∈ cut, piece.Every p)
    (made : EveryNote p before.made) : EveryNote p after.made := by
  induction lifts with
  | nil lifting => exact made
  | keep piece later ih => exact ih (List.forall_mem_cons.1 every).2 made
  | note paired filled later ih =>
      simp only [List.cons_append, List.forall_mem_cons, List.forall_mem_append] at every
      obtain ⟨-, -, inside, -, behind⟩ := every
      exact ih behind (Lifting.make_every allows (joinPieces_every allows inside) made)

/-- Lifting out of children brings in no kind but those it makes. -/
theorem liftChildren_every (allows : AllowsLifting p) {children : List Node} {lifting : Lifting}
    (every : EveryAll p children) (made : EveryNote p lifting.made) :
    EveryAll p (liftChildren children lifting).1 ∧
      EveryNote p (liftChildren children lifting).2.made := by
  unfold liftChildren
  split
  · have lifts := liftsOut_liftPieces (pieces children).length (pieces children) lifting
    have cut := pieces_every every
    have left := lifts.forall_mem (fun label => by simp [Piece.Every, leaf, allows.reference]) cut
    exact ⟨joinPieces_every allows left, lifts.everyNote allows cut made⟩
  · exact ⟨every, made⟩

/-- Lifting changes no kind at the root of a tree. -/
@[simp] theorem lift_kind (node : Node) (lifting : Lifting) :
    (lift node lifting).1.kind = node.kind := by
  obtain ⟨kind, children⟩ := node
  unfold lift
  split <;> rfl

mutual

/-- Lifting out of a tree brings in no kind but those it makes, in the tree or in the notes. -/
theorem lift_every (allows : AllowsLifting p) :
    ∀ (node : Node) (lifting : Lifting), EveryAll p node.children → EveryNote p lifting.made →
      EveryAll p (lift node lifting).1.children ∧ EveryNote p (lift node lifting).2.made
  | ⟨kind, children⟩, lifting, every, made => by
      unfold lift
      split
      · exact ⟨every, made⟩
      · obtain ⟨below, notes⟩ := liftAll_every allows children lifting every made
        exact liftChildren_every allows below notes

theorem liftAll_every (allows : AllowsLifting p) :
    ∀ (nodes : List Node) (lifting : Lifting), EveryAll p nodes → EveryNote p lifting.made →
      EveryAll p (liftAll nodes lifting).1 ∧ EveryNote p (liftAll nodes lifting).2.made
  | [], _, every, made => ⟨every, made⟩
  | node :: rest, lifting, every, made => by
      obtain ⟨head, tail⟩ := everyAll_cons.1 every
      obtain ⟨children, notes⟩ := lift_every allows node lifting head.children made
      obtain ⟨others, more⟩ := liftAll_every allows rest (lift node lifting).2 tail notes
      have lifted : (lift node lifting).1.Every p :=
        every_iff.2 ⟨by simpa using head.kind, children⟩
      exact ⟨everyAll_cons.2 ⟨lifted, others⟩, more⟩

end

/-- Lifting out of notes brings in no kind but those it makes. -/
theorem liftNotes_every (allows : AllowsLifting p) {notes : List Note} {lifting : Lifting}
    (every : EveryNote p notes) (made : EveryNote p lifting.made) :
    EveryNote p (liftNotes notes lifting).1 ∧ EveryNote p (liftNotes notes lifting).2.made := by
  induction notes generalizing lifting with
  | nil => exact ⟨every, made⟩
  | cons note rest ih =>
      obtain ⟨content, more⟩ :=
        lift_every allows ⟨.fragment, note.content⟩ lifting (every note List.mem_cons_self) made
      obtain ⟨others, made⟩ :=
        ih (fun note member => every note (List.mem_cons_of_mem _ member)) more
      refine ⟨?_, made⟩
      intro lifted member
      rcases List.mem_cons.1 member with rfl | member
      · exact content
      · exact others lifted member

/-- Lifting the notes out of a document puts only texts, paragraphs and references into it. -/
theorem liftDocument_every (allows : AllowsLifting p) {tree : Node} {notes : List Note}
    (every : EveryAll p tree.children) (known : EveryNote p notes) :
    EveryAll p (liftDocument tree notes).1.children ∧ EveryNote p (liftDocument tree notes).2 := by
  let lifted := lift tree ⟨notes.map (·.label), 0, []⟩
  let emptied : Lifting := { lifted.2 with made := [] }
  have nothing : EveryNote p emptied.made := by simp [emptied, EveryNote]
  obtain ⟨children, made⟩ :=
    lift_every allows tree ⟨notes.map (·.label), 0, []⟩ every (by simp [EveryNote])
  obtain ⟨contents, more⟩ :=
    liftNotes_every allows (everyNote_append.2 ⟨known, made⟩) nothing
  exact ⟨children, everyNote_append.2 ⟨contents, more⟩⟩

@[simp] theorem liftDocument_kind (tree : Node) (notes : List Note) :
    (liftDocument tree notes).1.kind = tree.kind := by
  simp [liftDocument]

/-! ### Notes that are made -/

namespace Lifting

/-- Whether the one state of lifting comes of the other one by making notes. -/
inductive Makes : Lifting → Lifting → Prop where
  | refl (lifting : Lifting) : Makes lifting lifting
  | make {before after : Lifting} (content : List Node) (rest : Makes (before.make content).2 after) :
      Makes before after

theorem Makes.trans {before middle after : Lifting} (first : Makes before middle)
    (second : Makes middle after) : Makes before after := by
  induction first with
  | refl lifting => exact second
  | make content rest ih => exact .make content (ih second)

end Lifting

open Lifting (Makes)

/-- Lifting notes out of pieces only adds notes with labels of their own. -/
theorem LiftsOut.makes {cut left : List Piece} {before after : Lifting}
    (lifts : LiftsOut cut before left after) : Makes before after := by
  induction lifts with
  | nil lifting => exact .refl lifting
  | keep piece later ih => exact ih
  | note paired filled later ih => exact .make _ ih

/-- Lifting out of children only adds notes with labels of their own. -/
theorem makes_liftChildren (children : List Node) (lifting : Lifting) :
    Makes lifting (liftChildren children lifting).2 := by
  unfold liftChildren
  split
  · exact (liftsOut_liftPieces _ _ _).makes
  · exact .refl lifting

mutual

/-- Lifting out of a tree only adds notes with labels of their own. -/
theorem makes_lift : ∀ (node : Node) (lifting : Lifting), Makes lifting (lift node lifting).2
  | ⟨kind, children⟩, lifting => by
      unfold lift
      split
      · exact .refl lifting
      · exact (makes_liftAll children lifting).trans (makes_liftChildren _ _)

theorem makes_liftAll : ∀ (nodes : List Node) (lifting : Lifting), Makes lifting (liftAll nodes lifting).2
  | [], lifting => .refl lifting
  | node :: rest, lifting => (makes_lift node lifting).trans (makes_liftAll rest _)

end

/-- Lifting out of notes only adds notes with labels of their own. -/
theorem makes_liftNotes (notes : List Note) (lifting : Lifting) :
    Makes lifting (liftNotes notes lifting).2 := by
  induction notes generalizing lifting with
  | nil => exact .refl lifting
  | cons note rest ih =>
      have here := makes_lift ⟨.fragment, note.content⟩ lifting
      have later := ih (lift ⟨.fragment, note.content⟩ lifting).2
      exact here.trans later

@[simp] theorem map_label_liftNotes (notes : List Note) (lifting : Lifting) :
    (liftNotes notes lifting).1.map (·.label) = notes.map (·.label) := by
  induction notes generalizing lifting with
  | nil => rfl
  | cons note rest ih => simp only [liftNotes, List.map_cons, ih]

/-- The notes made have labels with a number. -/
theorem Lifting.Makes.exists_generatedLabel {before after : Lifting} (makes : Makes before after)
    (generated : ∀ note ∈ before.made, ∃ n, note.label = generatedLabel n) :
    ∀ note ∈ after.made, ∃ n, note.label = generatedLabel n := by
  induction makes with
  | refl lifting => exact generated
  | make content rest ih =>
      apply ih
      intro note member
      rcases List.mem_append.1 member with old | new
      · exact generated note old
      · rw [List.mem_singleton] at new
        exact ⟨_, congrArg Note.label new⟩

/-- The notes of a document are those that it had and those that are made, which have labels with a
number. -/
theorem mem_liftDocument {tree : Node} {notes : List Note} {note : Note}
    (member : note ∈ (liftDocument tree notes).2) :
    note.label ∈ notes.map (·.label) ∨ ∃ n, note.label = generatedLabel n := by
  have none (taken : List String) (count : Nat) :
      ∀ note ∈ (Lifting.mk taken count []).made, ∃ n, note.label = generatedLabel n := by
    intro note impossible
    cases impossible
  have first := (makes_lift tree ⟨notes.map (·.label), 0, []⟩).exists_generatedLabel (none _ _)
  rcases List.mem_append.1 member with listed | late
  · have known : note.label ∈ List.map Note.label _ := List.mem_map_of_mem listed
    rw [map_label_liftNotes, List.map_append, List.mem_append] at known
    rcases known with old | new
    · exact .inl old
    · obtain ⟨made, early, same⟩ := List.mem_map.1 new
      obtain ⟨n, generated⟩ := first made early
      exact .inr ⟨n, same.symm.trans generated⟩
  · exact .inr ((makes_liftNotes _ _).exists_generatedLabel (none _ _) note late)

end Footnote

end DocPress
