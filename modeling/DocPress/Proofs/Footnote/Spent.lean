import DocPress.Proofs.Footnote.Numbered
import DocPress.Proofs.Footnote.Piece
import DocPress.Proofs.Highlight

/-!
Trees out of which no note can be lifted any more. Lifting leaves such trees, and so does resolving
their references, if no note that is left because it is blank shows another note afterwards.
-/

namespace DocPress.Footnote

open Node

/-! ### Spent trees -/

mutual

/-- Whether no note can be lifted out of a tree; of what is closed in it, `blank` tells which trees count
as blank. -/
def IsSpent (blank : Node → Prop) : Node → Prop
  | ⟨kind, children⟩ =>
    kind.isCode = true ∨ AreSpent blank children ∧ Spent blank (pieces children)

def AreSpent (blank : Node → Prop) : List Node → Prop
  | [] => True
  | node :: rest => IsSpent blank node ∧ AreSpent blank rest

end

section

variable {blank : Node → Prop}

/-- Trees are spent when each one is. -/
theorem areSpent_iff_forall {nodes : List Node} :
    AreSpent blank nodes ↔ ∀ node ∈ nodes, IsSpent blank node := by
  induction nodes with
  | nil => simp [AreSpent]
  | cons node rest ih => rw [AreSpent, ih, List.forall_mem_cons]

theorem isSpent_leaf (kind : NodeKind) : IsSpent blank (leaf kind) :=
  .inr ⟨True.intro, .nil⟩

theorem isSpent_of_not_code {node : Node} (text : node.kind.isCode = false) :
    IsSpent blank node ↔ AreSpent blank node.children ∧ Spent blank (pieces node.children) := by
  obtain ⟨kind, children⟩ := node
  rw [IsSpent, text]
  exact or_iff_right Bool.false_ne_true

end

/-- A character in front of spent trees leaves them spent. -/
theorem areSpent_putChar (c : Char) {nodes : List Node} (spent : AreSpent IsBlankText nodes) :
    AreSpent IsBlankText (putChar c nodes) := by
  cases nodes with
  | nil => exact ⟨isSpent_leaf _, True.intro⟩
  | cons node more =>
      obtain ⟨kind, children⟩ := node
      cases text : kind.isText with
      | true =>
          obtain ⟨_, rfl⟩ := NodeKind.exists_of_isText text
          exact spent
      | false =>
          rw [putChar_of_not_text c text]
          exact ⟨isSpent_leaf _, spent⟩

/-- Spent pieces are joined to spent trees. -/
theorem areSpent_joinPieces {pieces : List Piece}
    (spent : ∀ piece ∈ pieces, piece.Holds (IsSpent IsBlankText)) :
    AreSpent IsBlankText (joinPieces pieces) := by
  induction pieces with
  | nil => exact True.intro
  | cons piece rest ih =>
      obtain ⟨here, later⟩ := List.forall_mem_cons.1 spent
      cases piece with
      | char c =>
          rw [joinPieces_char]
          exact areSpent_putChar c (ih later)
      | node node => exact ⟨here, ih later⟩

/-- Without a caret in their texts there is none among the pieces of nodes. -/
theorem ne_caret_of_mem_pieces {nodes : List Node} (none : nodes.any hasCaret = false) :
    ∀ piece ∈ pieces nodes, piece ≠ .char '^' := by
  rw [List.any_eq_false] at none
  refine forall_mem_pieces (fun value children member c inside => ?_) fun node _ _ => nofun
  rintro ⟨⟩
  exact none _ member (List.contains_iff_mem.2 inside)

/-- After lifting there is nothing more to lift out of children. -/
theorem isSpent_liftChildren {children : List Node} (spent : AreSpent IsBlankText children)
    (lifting : Lifting) :
    AreSpent IsBlankText (liftChildren children lifting).1 ∧
      Spent IsBlankText (pieces (liftChildren children lifting).1) := by
  rw [liftChildren]
  split
  · have cut : ∀ piece ∈ pieces children, piece.Holds (·.kind.isText = false) :=
      pieces_hold fun _ _ text => text
    have below : ∀ piece ∈ pieces children, piece.Holds (IsSpent IsBlankText) :=
      pieces_hold fun node member _ => areSpent_iff_forall.1 spent node member
    have lifts := liftsOut_liftPieces (pieces children).length (pieces children) lifting
    have cutStill := lifts.forall_mem (fun _ => rfl) cut
    have belowStill := lifts.forall_mem (fun _ => isSpent_leaf _) below
    constructor
    · exact areSpent_joinPieces belowStill
    · rw [pieces_joinPieces cutStill]
      exact spent_liftPieces (Nat.le_refl _) lifting
  · next plain =>
      have none := Bool.eq_false_iff.2 plain
      exact ⟨spent, spent_of_forall_ne (ne_caret_of_mem_pieces none)⟩

mutual

/-- Lifting leaves spent trees. -/
theorem isSpent_lift : ∀ (node : Node) (lifting : Lifting), IsSpent IsBlankText (lift node lifting).1
  | ⟨kind, children⟩, lifting => by
      rw [lift]
      split
      · next code => exact .inl code
      · exact .inr (isSpent_liftChildren (areSpent_liftAll children lifting) _)

theorem areSpent_liftAll :
    ∀ (nodes : List Node) (lifting : Lifting), AreSpent IsBlankText (liftAll nodes lifting).1
  | [], _ => True.intro
  | node :: rest, lifting => ⟨isSpent_lift node lifting, areSpent_liftAll rest _⟩

end

/-- After lifting there is nothing more to lift out of notes. -/
theorem isSpent_liftNotes {notes : List Note} {lifting : Lifting} :
    ∀ note ∈ (liftNotes notes lifting).1, IsSpent IsBlankText ⟨.fragment, note.content⟩ := by
  induction notes generalizing lifting with
  | nil => exact fun _ member => absurd member List.not_mem_nil
  | cons note rest ih =>
      rw [liftNotes, List.forall_mem_cons]
      refine ⟨?_, ih⟩
      have spent := isSpent_lift ⟨.fragment, note.content⟩ lifting
      have kind := lift_kind ⟨.fragment, note.content⟩ lifting
      generalize lift ⟨.fragment, note.content⟩ lifting = lifted at spent kind ⊢
      obtain ⟨⟨_, children⟩, more⟩ := lifted
      cases kind
      exact spent

/-! ### Lifting out of spent trees -/

theorem ownText_of_not_code {kind : NodeKind} (text : kind.isCode = false)
    (children others : List Node) : ownText ⟨kind, children⟩ = ownText ⟨kind, others⟩ := by
  cases kind <;> first | rfl | cases text

/-- Blank nodes are cut into blank pieces. -/
theorem isBlank_pieces {nodes : List Node} (blank : ∀ node ∈ nodes, IsBlankText node) :
    ∀ piece ∈ pieces nodes, piece.IsBlank IsBlankText :=
  forall_mem_pieces (fun _ _ member => (isBlankText_mk.1 (blank _ member)).1)
    fun node member _ => blank node member

/-- The characters of a text take their own places. -/
theorem follows_pieces {blank blank' : Node → Prop} {node node' : Node} {rest rest' : List Node}
    (kind : node'.kind = node.kind) (keeps : node.kind.isText = false → blank node → blank' node')
    (later : List.Forall₂ (Piece.Follows blank blank') (pieces rest) (pieces rest')) :
    List.Forall₂ (Piece.Follows blank blank') (pieces (node :: rest)) (pieces (node' :: rest')) := by
  obtain ⟨kind, children⟩ := node
  obtain ⟨_, children'⟩ := node'
  cases kind
  cases text : kind.isText with
  | true =>
      obtain ⟨value, rfl⟩ := NodeKind.exists_of_isText text
      refine List.rel_append ?_ later
      induction value.toList with
      | nil => exact .nil
      | cons c more ih => exact .cons (.char c) ih
  | false =>
      rw [pieces_of_not_text children rest text, pieces_of_not_text children' rest' text]
      exact .cons (.node (keeps text)) later

/-- Nothing is lifted out of spent children, and blank ones stay blank. -/
theorem liftChildren_of_spent {children : List Node} (spent : Spent IsBlankText (pieces children))
    (lifting : Lifting) :
    (liftChildren children lifting).2 = lifting ∧
      ((∀ node ∈ children, IsBlankText node) →
        ∀ node ∈ (liftChildren children lifting).1, IsBlankText node) := by
  rw [liftChildren]
  split
  · dsimp only
    rw [spent.liftPieces_eq (Nat.le_refl _)]
    exact ⟨rfl, fun blank => isBlank_iff.1 (isBlank_joinPieces.2 (isBlank_pieces blank))⟩
  · exact ⟨rfl, id⟩

mutual

/-- Nothing is lifted out of a spent tree, and a blank one stays blank. -/
theorem lift_of_isSpent : ∀ (node : Node) (lifting : Lifting), IsSpent IsBlankText node →
    (lift node lifting).2 = lifting ∧ (IsBlankText node → IsBlankText (lift node lifting).1)
  | ⟨kind, children⟩, lifting, spent => by
      rw [lift]
      split
      · exact ⟨rfl, id⟩
      · next text =>
          have text := Bool.eq_false_iff.2 text
          obtain ⟨below, here⟩ := (isSpent_of_not_code text).1 spent
          obtain ⟨same, follows, blank⟩ := liftAll_of_areSpent children lifting below
          obtain ⟨still, blankStill⟩ := liftChildren_of_spent (here.of_follows follows) (liftAll children lifting).2
          refine ⟨still.trans same, fun all => ?_⟩
          obtain ⟨own, inside⟩ := isBlankText_mk.1 all
          refine isBlankText_mk.2 ⟨?_, blankStill (blank inside)⟩
          rwa [ownText_of_not_code text _ children]

/-- Lifting out of spent trees lifts nothing, and leaves the pieces they are cut into. -/
theorem liftAll_of_areSpent : ∀ (nodes : List Node) (lifting : Lifting), AreSpent IsBlankText nodes →
    (liftAll nodes lifting).2 = lifting ∧
      List.Forall₂ (Piece.Follows IsBlankText IsBlankText) (pieces nodes)
        (pieces (liftAll nodes lifting).1) ∧
      ((∀ node ∈ nodes, IsBlankText node) → ∀ node ∈ (liftAll nodes lifting).1, IsBlankText node)
  | [], _, _ => ⟨rfl, .nil, id⟩
  | node :: rest, lifting, spent => by
      obtain ⟨here, blank⟩ := lift_of_isSpent node lifting spent.1
      obtain ⟨later, follows, blanks⟩ := liftAll_of_areSpent rest (lift node lifting).2 spent.2
      refine ⟨later.trans here, follows_pieces (lift_kind node lifting) (fun _ => blank) follows, ?_⟩
      intro all
      rw [List.forall_mem_cons] at all
      exact List.forall_mem_cons.2 ⟨blank all.1, blanks all.2⟩

end

/-! ### Resolving references in spent trees -/

/-- Whether a tree is blank, and no reference in it leads to one of the notes that are shown. -/
def StaysBlank (shown : List String) (node : Node) : Prop :=
  IsBlankText node ∧ ∀ label ∈ shown, .footnoteReference label ∉ node.kinds

theorem StaysBlank.below {shown : List String} {kind : NodeKind} {children : List Node}
    (blank : StaysBlank shown ⟨kind, children⟩) : ∀ node ∈ children, StaysBlank shown node := by
  intro node member
  refine ⟨(isBlankText_mk.1 blank.1).2 node member, fun label short inside => ?_⟩
  have absent := blank.2 label short
  rw [kinds_mk] at absent
  exact absent (List.mem_cons_of_mem _ (mem_kindsAll member inside))

/-- What references become, where those to the notes `shown` become something that may be no blank. -/
structure ShowsSpent (shown : List String) (reference : String → Numbering → Node × Numbering) :
    Prop where
  cut : ∀ label numbering, (reference label numbering).1.kind.isText = false
  spent : ∀ label numbering, IsSpent IsBlankText (reference label numbering).1
  blank : ∀ label numbering, label ∉ shown → IsBlankText (reference label numbering).1

section Resolve

variable {shown : List String} {reference : String → Numbering → Node × Numbering}

theorem isEmpty_resolveAll (nodes : List Node) (numbering : Numbering) :
    (resolveAll reference nodes numbering).1.isEmpty = nodes.isEmpty := by
  cases nodes <;> rfl

/-- A blank tree without references to the notes shown stays blank. -/
theorem resolveAll_blank (shows : ShowsSpent shown reference) (nodes : List Node)
    (numbering : Numbering) (blank : ∀ node ∈ nodes, StaysBlank shown node) :
    ∀ node ∈ (resolveAll reference nodes numbering).1, IsBlankText node := by
  induction nodes using references_induction generalizing numbering with
  | nil => exact fun _ member => absurd member List.not_mem_nil
  | reference label children rest behind =>
      obtain ⟨here, later⟩ := List.forall_mem_cons.1 blank
      rw [resolveAll_reference, List.forall_mem_cons]
      refine ⟨?_, behind _ later⟩
      apply shows.blank
      intro short
      have absent := here.2 label short
      rw [kinds_mk] at absent
      exact absent List.mem_cons_self
  | other kind children rest refers below behind =>
      obtain ⟨here, later⟩ := List.forall_mem_cons.1 blank
      rw [resolveAll_other refers, List.forall_mem_cons]
      refine ⟨isBlankText_mk.2 ⟨?_, below numbering here.below⟩, behind _ later⟩
      rw [Highlight.ownText_congr (isEmpty_resolveAll children numbering)]
      exact (isBlankText_mk.1 here.1).1

/-- Resolving references in spent trees leaves them spent. -/
theorem areSpent_resolveAll (shows : ShowsSpent shown reference) (nodes : List Node)
    (numbering : Numbering) (spent : AreSpent (StaysBlank shown) nodes) :
    AreSpent IsBlankText (resolveAll reference nodes numbering).1 ∧
      List.Forall₂ (Piece.Follows (StaysBlank shown) IsBlankText) (pieces nodes)
        (pieces (resolveAll reference nodes numbering).1) := by
  have blank (node : Node) (numbering : Numbering) (stays : StaysBlank shown node) :=
    resolveAll_blank shows [node] numbering (List.forall_mem_singleton.2 stays)
  induction nodes using references_induction generalizing numbering with
  | nil => exact ⟨True.intro, .nil⟩
  | reference label children rest behind =>
      have blank (stays : StaysBlank shown ⟨.footnoteReference label, children⟩) :
          IsBlankText (reference label numbering).1 := blank _ numbering stays _ List.mem_cons_self
      rw [resolveAll_reference]
      obtain ⟨others, follows⟩ := behind (reference label numbering).2 spent.2
      refine ⟨⟨shows.spent label numbering, others⟩, ?_⟩
      have cut := shows.cut label numbering
      generalize (reference label numbering).1 = node at cut blank ⊢
      obtain ⟨kind, below⟩ := node
      rw [pieces_of_not_text below _ cut]
      exact .cons (.node blank) follows
  | other kind children rest refers below behind =>
      have blank := blank ⟨kind, children⟩ numbering
      rw [resolveAll_other refers] at blank ⊢
      obtain ⟨others, follows⟩ := behind (resolveAll reference children numbering).2 spent.2
      have keeps := fun (_ : kind.isText = false) stays => blank stays _ List.mem_cons_self
      refine ⟨⟨?_, others⟩, follows_pieces rfl keeps follows⟩
      rcases spent.1 with code | ⟨inside, pieces⟩
      · exact .inl code
      · obtain ⟨inside, inner⟩ := below numbering inside
        exact .inr ⟨inside, pieces.of_follows inner⟩

end Resolve

/-- Notes out of which no note can be lifted. -/
structure Notes.AreSpent (notes : Notes) : Prop where
  listed : ∀ note ∈ notes.listed,
    IsSpent (StaysBlank (notes.short.map (·.label))) ⟨.fragment, note.content⟩
  short : ∀ note ∈ notes.short,
    IsSpent (StaysBlank (notes.short.map (·.label))) ⟨.fragment, note.content⟩

/-- A node without a text and children is blank. -/
theorem isBlankText_leaf {kind : NodeKind} (none : ownText (leaf kind) = "") :
    IsBlankText (leaf kind) := by
  refine isBlankText_mk.2 ⟨?_, fun _ member => absurd member List.not_mem_nil⟩
  rw [show ownText ⟨kind, []⟩ = "" from none]
  exact fun _ member => absurd member List.not_mem_nil

/-- What references become is spent when each one is, and blank where no note is shown. -/
theorem showsSpent_iff {shown : List String} {reference : String → Numbering → Node × Numbering} :
    ShowsSpent shown reference ↔ ∀ label numbering, (reference label numbering).1.kind.isText = false ∧
      IsSpent IsBlankText (reference label numbering).1 ∧
      (label ∉ shown → IsBlankText (reference label numbering).1) :=
  ⟨fun shows label numbering => ⟨shows.cut label numbering, shows.spent label numbering,
      shows.blank label numbering⟩,
    fun shows => ⟨fun label numbering => (shows label numbering).1,
      fun label numbering => (shows label numbering).2.1,
      fun label numbering => (shows label numbering).2.2⟩⟩

/-- What references become is spent, if the notes are. -/
theorem showsSpent_reference {notes : Notes} (spent : notes.AreSpent) :
    ShowsSpent (notes.short.map (·.label)) notes.reference := by
  refine showsSpent_iff.2 (Notes.reference_induction (motive := fun _ label _ made =>
    made.1.kind.isText = false ∧ IsSpent IsBlankText made.1 ∧
      (label ∉ notes.short.map (·.label) → IsBlankText made.1)) ?circle ?short ?listed ?missing)
  case circle => exact fun _ _ _ _ _ => ⟨rfl, isSpent_leaf _, fun _ => isBlankText_leaf rfl⟩
  case short =>
    intro shown note reference numbering member _ _ shows
    obtain ⟨below, pieces⟩ := (isSpent_of_not_code rfl).1 (spent.short note member)
    obtain ⟨inside, follows⟩ := areSpent_resolveAll (showsSpent_iff.2 shows) note.content numbering below
    exact ⟨rfl, .inr ⟨inside, pieces.of_follows follows⟩,
      fun long => absurd (List.mem_map_of_mem member) long⟩
  case listed => exact fun _ _ _ _ _ _ => ⟨rfl, isSpent_leaf _, fun _ => isBlankText_leaf rfl⟩
  case missing => exact fun _ _ _ _ _ _ => ⟨rfl, isSpent_leaf _, fun _ => isBlankText_leaf rfl⟩

/-- The items are spent, if the notes are. -/
theorem areSpent_items {notes : Notes} (spent : notes.AreSpent) (fuel n : Nat)
    (numbering : Numbering) : AreSpent IsBlankText (notes.items fuel n numbering).1 ∧
      Spent IsBlankText (pieces (notes.items fuel n numbering).1) := by
  induction fuel generalizing n numbering with
  | zero => exact ⟨True.intro, .nil⟩
  | succ fuel ih =>
      unfold Notes.items
      split
      · exact ⟨True.intro, .nil⟩
      · next label found =>
          have content : IsSpent (StaysBlank (notes.short.map (·.label)))
              ⟨.fragment, (content? label notes.listed).getD []⟩ :=
            content_induction (motive := fun content => IsSpent _ ⟨.fragment, content⟩)
              (isSpent_leaf _) spent.listed label
          obtain ⟨below, pieces⟩ := (isSpent_of_not_code rfl).1 content
          obtain ⟨inside, follows⟩ := areSpent_resolveAll (showsSpent_reference spent) _ numbering below
          obtain ⟨others, behind⟩ := ih (n + 1) (resolveAll notes.reference _ numbering).2
          refine ⟨⟨.inr ⟨inside, pieces.of_follows follows⟩, others⟩, .other ?_ behind⟩
          rintro ⟨rest, same⟩
          cases same

/-! ### Documents without notes to lift -/

/-- The labels of the notes of a document that are shown in place. -/
def shortLabels (options : FootnoteOptions) (document : Node) : List String :=
  (Notes.ofList options (collect options document).2).short.map (·.label)

/-- The tree that is numbered, and the contents of its notes. -/
def holders (options : FootnoteOptions) (document : Node) : List Node :=
  (collect options document).1 ::
    (collect options document).2.map fun note => ⟨.fragment, note.content⟩

/-- Notes that are spent as they stand are so as short and as listed ones. -/
theorem areSpent_ofList {options : FootnoteOptions} {notes : List Note}
    (spent : ∀ note ∈ notes, IsSpent (StaysBlank ((Notes.ofList options notes).short.map (·.label)))
      ⟨.fragment, note.content⟩) : (Notes.ofList options notes).AreSpent where
  listed note member := spent note (List.mem_filter.1 member).1
  short := by
    intro shown member
    obtain ⟨note, kept, rfl⟩ := List.mem_map.1 member
    obtain ⟨known, short⟩ := List.mem_filter.1 kept
    have content := spent note known
    rw [isShort, Bool.and_eq_true] at short
    obtain ⟨-, short⟩ := short
    split at short
    · next paragraph same =>
        rw [Bool.and_eq_true, decide_eq_true_iff] at short
        obtain ⟨kind, children⟩ := paragraph
        obtain ⟨rfl, -⟩ := short
        rw [same] at content ⊢
        obtain ⟨below, -⟩ := (isSpent_of_not_code rfl).1 content
        have inside := (isSpent_of_not_code rfl).1 below.1
        rw [List.flatMap_singleton]
        exact .inr inside
    · cases short

/-- Numbering a document leaves nothing to lift if nothing is left to lift in its parts. -/
theorem isSpent_apply {options : FootnoteOptions} {document : Node} (root : document.kind = .document)
    (spent : ∀ holder ∈ holders options document,
      IsSpent (StaysBlank (shortLabels options document)) holder) :
    IsSpent IsBlankText (apply options document).1 := by
  rw [holders, List.forall_mem_cons, List.forall_mem_map] at spent
  have notes := areSpent_ofList spent.2
  have kind : (collect options document).1.kind = .document := (collect_kind options document).trans root
  have text : (collect options document).1.kind.isCode = false := by
    rw [kind]
    rfl
  obtain ⟨below, pieces⟩ := (isSpent_of_not_code text).1 spent.1
  have resolves : ShowsSpent (shortLabels options document)
      (Notes.ofList options (collect options document).2).reference := showsSpent_reference notes
  obtain ⟨inside, follows⟩ := areSpent_resolveAll resolves _
    ⟨[], (firsts [] (notesAll document.children)).2.map .duplicateFootnote⟩ below
  rw [apply_eq, resolve_eq, kind]
  dsimp only
  generalize resolveAll _ (collect options document).1.children _ = resolved at inside follows ⊢
  obtain ⟨items, listed⟩ := areSpent_items notes
    (Notes.ofList options (collect options document).2).listed.length 0 resolved.2
  have whole := pieces.of_follows follows
  right
  split
  · rw [List.append_nil]
    exact ⟨inside, whole⟩
  · rw [areSpent_iff_forall, List.forall_mem_append, List.forall_mem_singleton, pieces_concat _ _ rfl]
    exact ⟨⟨areSpent_iff_forall.1 inside, .inr ⟨items, listed⟩⟩, whole.concat _⟩

/-- The notes that are made while notes are lifted out of the contents of those that a document has
and those made of its tree. -/
def lateNotes (document : Node) : List Note :=
  let notes := (firsts [] (notesAll document.children)).1
  let lifted := (lift ⟨document.kind, stripAll document.children⟩ ⟨notes.map (·.label), 0, []⟩).2
  (liftNotes (notes ++ lifted.made) { lifted with made := [] }).2.made

theorem staysBlank_nil : StaysBlank [] = IsBlankText := by
  funext node
  simp [StaysBlank]

theorem shortLabels_eq_nil {options : FootnoteOptions} (long : options.inlineShort = false)
    (document : Node) : shortLabels options document = [] := by
  have none : isShort options = fun _ => false := by
    funext note
    rw [isShort, long, Bool.false_and]
  simp [shortLabels, Notes.ofList, none]

/-- Where all notes are listed, what is left to lift is left in the notes that are found last. -/
theorem isSpent_holders {options : FootnoteOptions} (inPlace : options.inlineNotes = true)
    {document : Node}
    (late : ∀ note ∈ lateNotes document, IsSpent IsBlankText ⟨.fragment, note.content⟩) :
    ∀ holder ∈ holders options document, IsSpent IsBlankText holder := by
  rw [holders, List.forall_mem_cons, List.forall_mem_map, collect, if_pos inPlace]
  constructor
  · exact isSpent_lift ⟨document.kind, stripAll document.children⟩
      ⟨(firsts [] (notesAll document.children)).1.map (·.label), 0, []⟩
  · intro note member
    rcases List.mem_append.1 member with early | found
    · exact isSpent_liftNotes note early
    · exact late note found

mutual

/-- A tree without carets in its texts is spent. -/
theorem isSpent_of_no_caret {blank : Node → Prop} :
    ∀ node : Node, node.walk.any hasCaret = false → IsSpent blank node
  | ⟨kind, children⟩, plain => by
      rw [walk, List.any_cons, Bool.or_eq_false_iff] at plain
      obtain ⟨below, texts⟩ := areSpent_of_no_caret children plain.2
      exact .inr ⟨below, spent_of_forall_ne (ne_caret_of_mem_pieces texts)⟩

/-- Where no text has a caret there is nothing to lift. -/
theorem areSpent_of_no_caret {blank : Node → Prop} :
    ∀ nodes : List Node, (walkAll nodes).any hasCaret = false →
      AreSpent blank nodes ∧ nodes.any hasCaret = false
  | [], _ => ⟨True.intro, rfl⟩
  | node :: rest, plain => by
      rw [walkAll, List.any_append, Bool.or_eq_false_iff] at plain
      obtain ⟨others, texts⟩ := areSpent_of_no_caret rest plain.2
      have here : hasCaret node = false := by
        obtain ⟨kind, children⟩ := node
        have all := plain.1
        rw [walk, List.any_cons, Bool.or_eq_false_iff] at all
        exact all.1
      refine ⟨⟨isSpent_of_no_caret node plain.1, others⟩, ?_⟩
      rw [List.any_cons, here, texts, Bool.or_false]

end

/-- Nothing can be lifted out of a numbered document, if nothing can be lifted out of the tree that is
numbered and out of the contents of its notes, where references to notes shown in place count as text.
When no notes are shown in place, this has to hold only of the notes that are found last, while notes
are lifted out of other notes. -/
theorem stage_leaves_nothing_to_lift (highlighter : Syntax.Highlighter) (options : FootnoteOptions)
    {document : Node} (root : document.kind = .document) (inPlace : options.inlineNotes = true) :
    ∃ tree warnings, (Stage.footnotes options).apply highlighter document = .ok (tree, warnings) ∧
      ((∀ holder ∈ holders options document,
          IsSpent (StaysBlank (shortLabels options document)) holder) →
        (lift tree ⟨[], 0, []⟩).2.made = []) ∧
      (options.inlineShort = false →
        (∀ note ∈ lateNotes document, IsSpent IsBlankText ⟨.fragment, note.content⟩) →
        (lift tree ⟨[], 0, []⟩).2.made = []) := by
  have spent_made {tree : Node} (spent : IsSpent IsBlankText tree) :
      (lift tree ⟨[], 0, []⟩).2.made = [] := by
    rw [(lift_of_isSpent tree _ spent).1]
  refine ⟨(apply options document).1, (apply options document).2, by simp [Stage.apply, root], ?_, ?_⟩
  · intro spent
    exact spent_made (isSpent_apply root spent)
  · intro long late
    apply spent_made
    apply isSpent_apply root
    rw [shortLabels_eq_nil long, staysBlank_nil]
    exact isSpent_holders inPlace late

/-- A note in a note, both lifted. -/
theorem stage_leaves_nothing_nested :
    let page : Node := .document [⟨.paragraph, [.text "One^[a ^[b] c]."]⟩]
    page.kind = .document ∧ ({} : FootnoteOptions).inlineNotes = true ∧
      (∀ note ∈ lateNotes page, IsSpent IsBlankText ⟨.fragment, note.content⟩) ∧
      ∃ tree warnings, (Stage.footnotes {}).apply Syntax.standard page = .ok (tree, warnings) ∧
        (lift tree ⟨[], 0, []⟩).2.made = [] := by
  intro page
  have plain : (lateNotes page).all (fun note =>
      (Node.mk .fragment note.content).walk.any hasCaret == false) = true := by
    decide +kernel
  have late : ∀ note ∈ lateNotes page, IsSpent IsBlankText ⟨.fragment, note.content⟩ := by
    intro note member
    exact isSpent_of_no_caret _ (beq_iff_eq.1 (List.all_eq_true.1 plain note member))
  have root : page.kind = .document := rfl
  obtain ⟨tree, warnings, done, -, nothing⟩ :=
    stage_leaves_nothing_to_lift Syntax.standard {} root rfl
  exact ⟨rfl, rfl, late, tree, warnings, done, nothing rfl late⟩

/-- A note in a note in a note, which stays text. -/
theorem stage_leaves_third_note :
    let page : Node := .document [⟨.paragraph, [.text "^[a ^[b ^[c] d] e]"]⟩]
    ∃ tree warnings, (Stage.footnotes {}).apply Syntax.standard page = .ok (tree, warnings) ∧
      (lift tree ⟨[], 0, []⟩).2.made.map (·.label) = ["inline-1"] := by
  intro page
  refine ⟨(apply {} page).1, (apply {} page).2, by simp [Stage.apply, page, Node.document], ?_⟩
  decide +kernel

end DocPress.Footnote
