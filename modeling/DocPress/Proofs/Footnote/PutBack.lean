import DocPress.Proofs.Footnote.Spent
import DocPress.Proofs.HeadingId

/-!
Lifting notes loses nothing and invents nothing. When each note that was made is put back, in brackets
after a caret, in place of a reference to it, the tree is the old one up to how its texts are cut. The
notes made are closed and not blank, and their labels are new.
-/

namespace DocPress.Footnote

open Node

/-! ### Tidy trees -/

/-- Puts a text in front of nodes: it becomes part of a text that they start with, and is left out when
it is empty. -/
def addText (value : String) : List Node → List Node
  | ⟨.text later, children⟩ :: rest => ⟨.text (value ++ later), children⟩ :: rest
  | nodes => if value = "" then nodes else .text value :: nodes

mutual

/-- A tree whose texts side by side are joined and whose empty texts are left out. Code stays as it
is. -/
def tidy : Node → Node
  | ⟨kind, children⟩ => if kind.isCode then ⟨kind, children⟩ else ⟨kind, tidyAll children⟩

/-- Trees whose texts side by side are joined and whose empty texts are left out. -/
def tidyAll : List Node → List Node
  | [] => []
  | ⟨.text value, _⟩ :: rest => addText value (tidyAll rest)
  | node :: rest => tidy node :: tidyAll rest

end

/-- A piece whose tree is tidy. -/
def Piece.tidy : Piece → Piece
  | .char c => .char c
  | .node tree => .node (Footnote.tidy tree)

/-- The pieces of nodes, with tidy trees. -/
def tidied (nodes : List Node) : List Piece :=
  (pieces nodes).map Piece.tidy

theorem addText_of_not_text (value : String) {kind : NodeKind} (other : kind.isText = false)
    (children more : List Node) :
    addText value (⟨kind, children⟩ :: more) =
      if value = "" then ⟨kind, children⟩ :: more else .text value :: ⟨kind, children⟩ :: more := by
  cases kind <;> simp [NodeKind.isText] at other <;> rfl

theorem addText_empty (nodes : List Node) : addText "" nodes = nodes := by
  cases nodes with
  | nil => rfl
  | cons node more =>
      obtain ⟨kind, children⟩ := node
      cases text : kind.isText with
      | true =>
          obtain ⟨_, rfl⟩ := NodeKind.exists_of_isText text
          simp [addText]
      | false => rw [addText_of_not_text "" text, if_pos rfl]

/-- A text is added character by character. -/
theorem addText_singleton (c : Char) (value : String) (nodes : List Node) :
    addText (String.singleton c ++ value) nodes = putChar c (addText value nodes) := by
  have filled : String.singleton c ++ value ≠ "" := by
    intro same
    simpa using congrArg String.toList same
  have alone (nodes : List Node) (here : addText (String.singleton c ++ value) nodes =
        .text (String.singleton c ++ value) :: nodes)
      (there : addText value nodes = if value = "" then nodes else .text value :: nodes)
      (apart : putChar c nodes = .text (String.singleton c) :: nodes) :
      addText (String.singleton c ++ value) nodes = putChar c (addText value nodes) := by
    rw [here, there]
    split
    · next empty => rw [apart, empty, String.append_empty]
    · rfl
  cases nodes with
  | nil => exact alone [] (if_neg filled) rfl rfl
  | cons node more =>
      obtain ⟨kind, children⟩ := node
      cases text : kind.isText with
      | true =>
          obtain ⟨_, rfl⟩ := NodeKind.exists_of_isText text
          simp [addText, putChar, String.append_assoc]
      | false =>
          apply alone
          · rw [addText_of_not_text _ text, if_neg filled]
          · exact addText_of_not_text value text children more
          · exact putChar_of_not_text c text children more

/-- A text in front of nodes adds its characters to their pieces. -/
theorem addText_joinPieces (value : String) (cut : List Piece) :
    addText value (joinPieces cut) = joinPieces (value.toList.map .char ++ cut) := by
  obtain ⟨chars, rfl⟩ : ∃ chars, value = String.ofList chars := ⟨value.toList, by simp⟩
  rw [String.toList_ofList]
  induction chars with
  | nil => exact addText_empty _
  | cons c more ih =>
      have parts : String.ofList (c :: more) = String.singleton c ++ String.ofList more := by
        rw [← String.toList_inj]
        simp
      rw [parts, addText_singleton, ih]
      rfl

/-- A text is tidied to its characters. -/
theorem tidied_text (value : String) (children rest : List Node) :
    tidied (⟨.text value, children⟩ :: rest) = value.toList.map .char ++ tidied rest := by
  rw [tidied, pieces, List.map_append, List.map_map]
  rfl

theorem tidied_of_not_text {kind : NodeKind} (children rest : List Node)
    (other : kind.isText = false) :
    tidied (⟨kind, children⟩ :: rest) = .node (tidy ⟨kind, children⟩) :: tidied rest := by
  rw [tidied, pieces_of_not_text children rest other]
  rfl

theorem tidyAll_of_not_text {kind : NodeKind} (children rest : List Node)
    (other : kind.isText = false) :
    tidyAll (⟨kind, children⟩ :: rest) = tidy ⟨kind, children⟩ :: tidyAll rest := by
  cases kind <;> simp [NodeKind.isText] at other <;> rfl

/-- Tidy nodes are made up of the pieces of the nodes. -/
theorem tidyAll_eq (nodes : List Node) : tidyAll nodes = joinPieces (tidied nodes) := by
  induction nodes with
  | nil => rw [tidyAll]; rfl
  | cons node rest ih =>
      obtain ⟨kind, children⟩ := node
      cases text : kind.isText with
      | true =>
          obtain ⟨value, rfl⟩ := NodeKind.exists_of_isText text
          rw [tidied_text, ← addText_joinPieces, ← ih]
          rfl
      | false =>
          rw [tidied_of_not_text children rest text, joinPieces, ← ih,
            tidyAll_of_not_text children rest text]

@[simp] theorem tidy_kind (node : Node) : (tidy node).kind = node.kind := by
  obtain ⟨kind, children⟩ := node
  rw [tidy]
  split <;> rfl

/-! ### Putting notes back -/

/-- Whether nodes come of others by putting notes back, each in brackets after a caret, in place of
references to them. The notes put back stand in document order, each in front of those in its content. -/
inductive PutsBack : List Node → List Node → List Note → Prop where
  | nil : PutsBack [] [] []
  /-- Texts and code stay as they are. -/
  | whole {node : Node} {rest rest' : List Node} {notes : List Note}
      (closed : (node.kind.isText || node.kind.isCode) = true) (later : PutsBack rest rest' notes) :
      PutsBack (node :: rest) (node :: rest') notes
  | node {kind : NodeKind} {children children' rest rest' : List Node} {inner notes : List Note}
      (opens : (kind.isText || kind.isCode) = false) (below : PutsBack children children' inner)
      (later : PutsBack rest rest' notes) :
      PutsBack (⟨kind, children⟩ :: rest) (⟨kind, children'⟩ :: rest') (inner ++ notes)
  | note (label : String) {content content' rest rest' : List Node} {inner notes : List Note}
      (inside : PutsBack content content' inner) (later : PutsBack rest rest' notes) :
      PutsBack (.leaf (.footnoteReference label) :: rest)
        (.text "^[" :: content' ++ .text "]" :: rest')
        (⟨label, [⟨.paragraph, content⟩]⟩ :: inner ++ notes)

theorem PutsBack.append {nodes nodes' others others' : List Node} {first second : List Note}
    (front : PutsBack nodes nodes' first) (behind : PutsBack others others' second) :
    PutsBack (nodes ++ others) (nodes' ++ others') (first ++ second) := by
  induction front with
  | nil => exact behind
  | whole closed later ih => exact .whole closed ih
  | node opens below later _ ih =>
      rw [List.append_assoc]
      exact .node opens below ih
  | note label inside later _ ih =>
      have back := PutsBack.note label inside ih
      simpa using back

/-- A character in front stays there. -/
theorem PutsBack.putChar {nodes nodes' : List Node} {notes : List Note}
    (back : PutsBack nodes nodes' notes) (c : Char) :
    ∃ whole, PutsBack (Footnote.putChar c nodes) whole notes ∧
      pieces whole = .char c :: pieces nodes' := by
  have alone (apart : Footnote.putChar c nodes = .text (String.singleton c) :: nodes) :
      ∃ whole, PutsBack (Footnote.putChar c nodes) whole notes ∧
        pieces whole = .char c :: pieces nodes' := by
    refine ⟨.text (String.singleton c) :: nodes', ?_, by simp [Node.text, leaf, pieces]⟩
    rw [apart]
    exact .whole rfl back
  cases back with
  | nil => exact alone rfl
  | @whole node rest rest' _ closed later =>
      obtain ⟨kind, children⟩ := node
      cases text : kind.isText with
      | true =>
          obtain ⟨_, rfl⟩ := NodeKind.exists_of_isText text
          exact ⟨_, .whole rfl later, by simp [pieces]⟩
      | false => exact alone (putChar_of_not_text c text children rest)
  | node opens below later =>
      exact alone (putChar_of_not_text c (Bool.or_eq_false_iff.1 opens).1 _ _)
  | note label inside later => exact alone rfl

/-- Whether pieces come of others by putting notes back in place of references to them. -/
inductive PiecesBack : List Piece → List Piece → List Note → Prop where
  | nil : PiecesBack [] [] []
  | char {rest rest' : List Piece} {notes : List Note} (c : Char)
      (later : PiecesBack rest rest' notes) : PiecesBack (.char c :: rest) (.char c :: rest') notes
  | node {tree tree' : Node} {rest rest' : List Piece} {inner notes : List Note}
      (cut : tree.kind.isText = false) (kind : tree'.kind = tree.kind)
      (below : PutsBack [tree] [tree'] inner) (later : PiecesBack rest rest' notes) :
      PiecesBack (.node tree :: rest) (.node tree' :: rest') (inner ++ notes)
  | note (label : String) {content content' : List Node} {rest rest' : List Piece}
      {inner notes : List Note} (inside : PutsBack content content' inner)
      (later : PiecesBack rest rest' notes) :
      PiecesBack (.node (.leaf (.footnoteReference label)) :: rest)
        (.char '^' :: .char '[' :: pieces content' ++ .char ']' :: rest')
        (⟨label, [⟨.paragraph, content⟩]⟩ :: inner ++ notes)

namespace PiecesBack

variable {cut cut' others others' : List Piece} {notes later : List Note}

/-- The trees among pieces are no texts. -/
theorem forall_not_text (back : PiecesBack cut cut' notes) :
    ∀ piece ∈ cut, piece.Holds (·.kind.isText = false) := by
  induction back with
  | nil => exact fun _ member => absurd member List.not_mem_nil
  | char c later ih => exact List.forall_mem_cons.2 ⟨True.intro, ih⟩
  | node text kind below later ih => exact List.forall_mem_cons.2 ⟨text, ih⟩
  | note label inside later ih => exact List.forall_mem_cons.2 ⟨rfl, ih⟩

theorem append (front : PiecesBack cut cut' notes) (behind : PiecesBack others others' later) :
    PiecesBack (cut ++ others) (cut' ++ others') (notes ++ later) := by
  induction front with
  | nil => exact behind
  | char c _ ih => exact .char c ih
  | node text kind below _ ih =>
      rw [List.append_assoc]
      exact .node text kind below ih
  | note label inside _ ih =>
      have back := PiecesBack.note label inside ih
      simpa using back

/-- Putting notes back into pieces that stand one behind the other is done one part after the
other. -/
theorem split (back : PiecesBack (cut ++ others) cut' notes) :
    ∃ front behind first second, cut' = front ++ behind ∧ notes = first ++ second ∧
      PiecesBack cut front first ∧ PiecesBack others behind second := by
  induction cut generalizing cut' notes with
  | nil => exact ⟨[], cut', [], notes, rfl, rfl, .nil, back⟩
  | cons piece rest ih =>
      cases back with
      | char c later =>
          obtain ⟨front, behind, first, second, rfl, rfl, before, after⟩ := ih later
          exact ⟨.char c :: front, behind, first, second, rfl, rfl, .char c before, after⟩
      | node text kind below later =>
          obtain ⟨front, behind, first, second, rfl, rfl, before, after⟩ := ih later
          refine ⟨_, behind, _, second, rfl, ?_, .node text kind below before, after⟩
          rw [List.append_assoc]
      | note label inside later =>
          obtain ⟨front, behind, first, second, rfl, rfl, before, after⟩ := ih later
          refine ⟨_, behind, _, second, ?_, ?_, .note label inside before, after⟩
          · simp
          · simp

/-- A run of characters stays. -/
theorem chars (chars : List Char) (later : PiecesBack others others' notes) :
    PiecesBack (chars.map .char ++ others) (chars.map .char ++ others') notes := by
  induction chars with
  | nil => exact later
  | cons c more ih => exact .char c ih

/-- What is put back into pieces is put back into the nodes that they make up. -/
theorem joinPieces (back : PiecesBack cut cut' notes) :
    ∃ whole, PutsBack (Footnote.joinPieces cut) whole notes ∧ pieces whole = cut' := by
  induction back with
  | nil => exact ⟨[], .nil, rfl⟩
  | char c later ih =>
      obtain ⟨whole, back, rfl⟩ := ih
      rw [joinPieces_char]
      exact back.putChar c
  | @node tree tree' _ _ _ _ text kind below later ih =>
      obtain ⟨whole, back, rfl⟩ := ih
      refine ⟨tree' :: whole, below.append back, ?_⟩
      obtain ⟨kind', children'⟩ := tree'
      exact pieces_of_not_text children' whole (by rw [← text, ← kind])
  | note label inside later ih =>
      obtain ⟨whole, back, rfl⟩ := ih
      refine ⟨_, .note label inside back, ?_⟩
      simp [Node.text, leaf, pieces, pieces_append]

end PiecesBack

/-- What is put back into nodes is put back into their pieces. -/
theorem PutsBack.pieces {nodes nodes' : List Node} {notes : List Note}
    (back : PutsBack nodes nodes' notes) :
    PiecesBack (Footnote.pieces nodes) (Footnote.pieces nodes') notes := by
  induction back with
  | nil => exact .nil
  | @whole node rest rest' notes closed later ih =>
      obtain ⟨kind, children⟩ := node
      cases text : kind.isText with
      | true =>
          obtain ⟨_, rfl⟩ := NodeKind.exists_of_isText text
          exact .chars _ ih
      | false =>
          rw [pieces_of_not_text children _ text, pieces_of_not_text children _ text]
          exact .node text rfl (.whole closed .nil) ih
  | @node kind children children' rest rest' inner notes opens below later _ ih =>
      have text := (Bool.or_eq_false_iff.1 opens).1
      have here : PutsBack [⟨kind, children⟩] [⟨kind, children'⟩] inner := by
        simpa using PutsBack.node opens below .nil
      rw [pieces_of_not_text children _ text, pieces_of_not_text children' _ text]
      exact .node text rfl here ih
  | note label inside later _ ih =>
      have back := PiecesBack.note label inside ih
      simpa [Node.text, leaf, Footnote.pieces, pieces_append] using back

/-! ### Notes that are made -/

/-- Free labels are found as free ids are. -/
theorem firstFree_inline (taken : List String) (fuel n : Nat) :
    HeadingId.firstFree taken "inline" fuel n = generatedLabel (freeNumber taken fuel n) := by
  induction fuel generalizing n with
  | zero => rfl
  | succ fuel ih =>
      have same : HeadingId.numbered "inline" n = generatedLabel n := rfl
      rw [HeadingId.firstFree, freeNumber, same]
      split
      · exact ih (n + 1)
      · rfl

/-- The label that is made for a note is not taken. -/
theorem freeNumber_not_mem (taken : List String) (n : Nat) :
    generatedLabel (freeNumber taken taken.length n) ∉ taken := by
  rw [← firstFree_inline]
  exact HeadingId.firstFree_not_mem taken "inline" n

/-- A note gets a label that was not taken, and takes it. -/
theorem exists_make (content : List Node) (lifting : Lifting) :
    ∃ label, label ∉ lifting.taken ∧
      (lifting.make content).1 = .leaf (.footnoteReference label) ∧
      (lifting.make content).2.taken = label :: lifting.taken ∧
      (lifting.make content).2.made = lifting.made ++ [⟨label, [⟨.paragraph, content⟩]⟩] :=
  ⟨_, freeNumber_not_mem lifting.taken (lifting.count + 1), rfl, rfl, rfl⟩

/-- Whether a note is made of content that is not blank and in which brackets come in pairs. -/
def Note.IsMade (note : Note) : Prop :=
  ∃ content, note.content = [⟨.paragraph, content⟩] ∧ isBlank content = false ∧
    Paired 0 (pieces content)

/-- Whether notes were made of pieces so that putting them back undoes it. Where notes were put back into
the pieces before, those that were made are put back besides. -/
def PiecesLift (cut : List Piece) (before : Lifting) (left : List Piece) (after : Lifting) : Prop :=
  ∀ (whole : List Piece) (notes : List Note), PiecesBack cut whole notes →
    ∃ made used, after.made = before.made ++ made ∧ PiecesBack left whole used ∧
      used.Perm (notes ++ made) ∧ ∀ note ∈ made, note.IsMade

namespace PiecesLift

variable {cut left : List Piece} {before after : Lifting}

theorem refl (cut : List Piece) (lifting : Lifting) : PiecesLift cut lifting cut lifting := by
  intro whole notes back
  exact ⟨[], notes, by simp, back, by simp, by simp⟩

/-- Pieces in front stay there. -/
theorem behind (lift : PiecesLift cut before left after) (front : List Piece) :
    PiecesLift (front ++ cut) before (front ++ left) after := by
  intro whole notes back
  obtain ⟨start, rest, first, second, rfl, rfl, ahead, later⟩ := back.split
  obtain ⟨made, used, grown, found, all, closed⟩ := lift _ _ later
  refine ⟨made, first ++ used, grown, ahead.append found, ?_, closed⟩
  rw [List.append_assoc]
  exact all.append_left first

/-- A note is made of what is closed and not blank. -/
theorem note {inner : List Piece} (lift : PiecesLift cut (before.make (joinPieces inner)).2 left after)
    (filled : isBlank (joinPieces inner) = false) (paired : Paired 0 inner) :
    PiecesLift (.char '^' :: .char '[' :: inner ++ .char ']' :: cut) before
      (.node (before.make (joinPieces inner)).1 :: left) after := by
  intro whole notes back
  -- The caret and the brackets are characters, so they are still there where notes were put back.
  cases back with
  | char _ back =>
  cases back with
  | char _ back =>
  obtain ⟨front, rest, first, second, rfl, rfl, ahead, later⟩ := back.split
  cases later with
  | char _ later =>
  obtain ⟨made, used, grown, found, all, closed⟩ := lift _ _ later
  obtain ⟨content, inside, rfl⟩ := ahead.joinPieces
  obtain ⟨label, -, reference, -, entered⟩ := exists_make (joinPieces inner) before
  rw [entered, List.append_assoc] at grown
  rw [reference]
  refine ⟨_, _, grown, .note label inside found, ?perm, ?closed⟩
  case perm =>
    -- The note was made before those behind it, but stands in front of those in its content.
    have moved := (all.append_left first).cons ⟨label, [⟨.paragraph, joinPieces inner⟩]⟩
    rw [← List.append_assoc] at moved
    exact moved.trans List.perm_middle.symm
  case closed =>
    rw [List.singleton_append, List.forall_mem_cons]
    refine ⟨⟨joinPieces inner, rfl, filled, ?_⟩, closed⟩
    rwa [pieces_joinPieces ahead.forall_not_text]

end PiecesLift

/-- What is lifted out of pieces can be put back. -/
theorem LiftsOut.piecesLift {cut left : List Piece} {before after : Lifting}
    (lifts : LiftsOut cut before left after) : PiecesLift cut before left after := by
  induction lifts with
  | nil lifting => exact .refl [] lifting
  | keep piece later ih => exact ih.behind [piece]
  | note paired filled later ih => exact .note ih filled paired

/-! ### Trees -/

/-- What is lifted out of children can be put back, together with the notes in them. -/
theorem liftChildren_back {children restored : List Node} {notes : List Note}
    (back : PutsBack children restored notes) (lifting : Lifting) :
    ∃ made used whole, (liftChildren children lifting).2.made = lifting.made ++ made ∧
      PutsBack (liftChildren children lifting).1 whole used ∧ used.Perm (notes ++ made) ∧
      pieces whole = pieces restored ∧ ∀ note ∈ made, note.IsMade := by
  rw [liftChildren]
  split
  · obtain ⟨made, used, grown, found, all, closed⟩ :=
      (liftsOut_liftPieces (pieces children).length (pieces children) lifting).piecesLift _ _ back.pieces
    obtain ⟨whole, joined, same⟩ := found.joinPieces
    exact ⟨made, used, whole, grown, joined, all, same, closed⟩
  · exact ⟨[], notes, restored, by simp, back, by simp, rfl, by simp⟩

/-- Whether the texts of a tree are leaves. -/
def HasBareTexts (node : Node) : Prop :=
  ∀ text ∈ node.walk, text.kind.isText = true → text.children = []

theorem tidied_cons {node node' : Node} {rest rest' : List Node} (here : tidy node' = tidy node)
    (later : tidied rest' = tidied rest) : tidied (node' :: rest') = tidied (node :: rest) := by
  have kind : node'.kind = node.kind := by rw [← tidy_kind, here, tidy_kind]
  obtain ⟨kind, children⟩ := node
  obtain ⟨_, children'⟩ := node'
  cases kind
  cases text : kind.isText with
  | true =>
      obtain ⟨_, rfl⟩ := NodeKind.exists_of_isText text
      rw [tidied_text, tidied_text, later]
  | false => rw [tidied_of_not_text _ _ text, tidied_of_not_text _ _ text, here, later]

theorem mem_walkAll {text node : Node} {nodes : List Node} (member : node ∈ nodes)
    (inside : text ∈ node.walk) : text ∈ walkAll nodes := by
  induction nodes with
  | nil => cases member
  | cons first rest ih =>
      rw [walkAll, List.mem_append]
      cases member with
      | head => exact .inl inside
      | tail _ later => exact .inr (ih later)

theorem HasBareTexts.below {kind : NodeKind} {children : List Node}
    (bare : HasBareTexts ⟨kind, children⟩) : ∀ child ∈ children, HasBareTexts child := by
  intro child member text inside
  apply bare text
  rw [walk, List.mem_cons]
  exact .inr (mem_walkAll member inside)

/-- Nothing is lifted out of texts and code. -/
theorem lift_of_closed {node : Node} (closed : (node.kind.isText || node.kind.isCode) = true)
    (bare : HasBareTexts node) (lifting : Lifting) : lift node lifting = (node, lifting) := by
  obtain ⟨kind, children⟩ := node
  rw [lift]
  split
  · rfl
  · next code =>
      have text : kind.isText = true := by simpa [code] using closed
      obtain rfl : children = [] := bare ⟨kind, children⟩ (by simp [walk]) text
      rfl

mutual

/-- The notes made of a tree can be put back into what is left of it. -/
theorem lift_back : ∀ (node : Node) (lifting : Lifting), HasBareTexts node →
    ∃ made used restored, (lift node lifting).2.made = lifting.made ++ made ∧
      PutsBack [(lift node lifting).1] [restored] used ∧ used.Perm made ∧
      tidy restored = tidy node ∧ ∀ note ∈ made, note.IsMade
  | ⟨kind, children⟩, lifting, bare => by
      cases closed : kind.isText || kind.isCode with
      | true =>
          rw [lift_of_closed closed bare]
          exact ⟨[], [], ⟨kind, children⟩, by simp, .whole closed .nil, by simp, rfl, by simp⟩
      | false =>
          have code : ¬kind.isCode = true := Bool.eq_false_iff.1 (Bool.or_eq_false_iff.1 closed).2
          obtain ⟨made, notes, inner, grown, back, all, same, filled⟩ :=
            liftAll_back children lifting bare.below
          -- Notes across the children may hold references to those that were made below.
          obtain ⟨more, used, whole, grown', back', all', same', filled'⟩ :=
            liftChildren_back back (liftAll children lifting).2
          rw [lift, if_neg code]
          refine ⟨made ++ more, used, ⟨kind, whole⟩, ?grown, ?back, ?all, ?same, ?filled⟩
          case grown => rw [grown', grown, List.append_assoc]
          case back => simpa using PutsBack.node closed back' .nil
          case all => exact all'.trans (all.append_right more)
          case same =>
            rw [tidy, tidy, if_neg code, if_neg code, tidyAll_eq, tidyAll_eq, ← same, tidied, same']
            rfl
          case filled => exact List.forall_mem_append.2 ⟨filled, filled'⟩

/-- What is lifted out of trees can be put back: tidied up, the trees are the same again. -/
theorem liftAll_back : ∀ (nodes : List Node) (lifting : Lifting),
    (∀ node ∈ nodes, HasBareTexts node) →
    ∃ made used restored, (liftAll nodes lifting).2.made = lifting.made ++ made ∧
      PutsBack (liftAll nodes lifting).1 restored used ∧ used.Perm made ∧
      tidied restored = tidied nodes ∧ ∀ note ∈ made, note.IsMade
  | [], lifting, _ => ⟨[], [], [], by simp [liftAll], .nil, by simp, rfl, by simp⟩
  | node :: rest, lifting, bare => by
      rw [List.forall_mem_cons] at bare
      obtain ⟨made, used, restored, grown, back, all, same, closed⟩ := lift_back node lifting bare.1
      obtain ⟨made', used', restored', grown', back', all', same', closed'⟩ :=
        liftAll_back rest (lift node lifting).2 bare.2
      refine ⟨made ++ made', used ++ used', restored :: restored', ?_, ?_, ?_, ?_, ?_⟩
      · rw [liftAll, grown', grown, List.append_assoc]
      · exact back.append back'
      · exact all.append all'
      · exact tidied_cons same same'
      · exact List.forall_mem_append.2 ⟨closed, closed'⟩

end

/-! ### Code -/

mutual

/-- The code in a tree in document order. Texts hold none. -/
def codes : Node → List Node
  | ⟨.text _, _⟩ => []
  | ⟨kind, children⟩ => if kind.isCode then [⟨kind, children⟩] else codesAll children

/-- The code in trees in document order. -/
def codesAll : List Node → List Node
  | [] => []
  | node :: rest => codes node ++ codesAll rest

end

theorem codes_of_not_text {kind : NodeKind} (children : List Node) (other : kind.isText = false) :
    codes ⟨kind, children⟩ = if kind.isCode then [⟨kind, children⟩] else codesAll children := by
  cases kind <;> simp [NodeKind.isText] at other <;> rfl

@[simp] theorem codesAll_append (nodes others : List Node) :
    codesAll (nodes ++ others) = codesAll nodes ++ codesAll others := by
  induction nodes with
  | nil => rfl
  | cons node rest ih => rw [List.cons_append, codesAll, codesAll, ih, List.append_assoc]

/-- Adding a text adds no code. -/
theorem codesAll_addText (value : String) (nodes : List Node) :
    codesAll (addText value nodes) = codesAll nodes := by
  have alone (nodes : List Node) :
      codesAll (if value = "" then nodes else .text value :: nodes) = codesAll nodes := by
    split
    · rfl
    · rw [codesAll, Node.text, leaf, codes, List.nil_append]
  cases nodes with
  | nil => exact alone []
  | cons node more =>
      obtain ⟨kind, children⟩ := node
      cases text : kind.isText with
      | true =>
          obtain ⟨_, rfl⟩ := NodeKind.exists_of_isText text
          rfl
      | false =>
          rw [addText_of_not_text value text]
          exact alone _

mutual

/-- Tidying leaves code alone. -/
theorem codes_tidy : ∀ node : Node, codes (tidy node) = codes node
  | ⟨kind, children⟩ => by
      rw [tidy]
      split
      · rfl
      · next code =>
          cases text : kind.isText with
          | true =>
              obtain ⟨_, rfl⟩ := NodeKind.exists_of_isText text
              rfl
          | false =>
              rw [codes_of_not_text _ text, codes_of_not_text _ text, if_neg code, if_neg code]
              exact codesAll_tidyAll children

theorem codesAll_tidyAll : ∀ nodes : List Node, codesAll (tidyAll nodes) = codesAll nodes
  | [] => by rw [tidyAll]
  | ⟨kind, children⟩ :: rest => by
      cases text : kind.isText with
      | true =>
          obtain ⟨_, rfl⟩ := NodeKind.exists_of_isText text
          rw [tidyAll, codesAll_addText, codesAll_tidyAll rest]
          rfl
      | false =>
          rw [tidyAll_of_not_text children rest text, codesAll, codesAll,
            codes_tidy ⟨kind, children⟩, codesAll_tidyAll rest]

end

/-- Code comes back from the nodes and from the notes put back into them. -/
theorem PutsBack.codes {nodes nodes' : List Node} {notes : List Note}
    (back : PutsBack nodes nodes' notes) :
    (codesAll nodes').Perm (codesAll nodes ++ notes.flatMap fun note => codesAll note.content) := by
  induction back with
  | nil => exact .nil
  | whole closed later ih =>
      rw [codesAll, codesAll, List.append_assoc]
      exact ih.append_left _
  | @node kind children children' rest rest' inner notes opens below later inside ih =>
      obtain ⟨text, code⟩ := Bool.or_eq_false_iff.1 opens
      have here (children : List Node) : Footnote.codes ⟨kind, children⟩ = codesAll children := by
        rw [codes_of_not_text children text, if_neg (Bool.eq_false_iff.1 code)]
      -- The code behind the node stands in front of that in the notes of its children.
      have swapped := (List.perm_append_comm_assoc (inner.flatMap fun note => codesAll note.content)
        (codesAll rest) (notes.flatMap fun note => codesAll note.content)).append_left
          (codesAll children)
      rw [codesAll, codesAll, here, here, List.flatMap_append, List.append_assoc]
      rw [← List.append_assoc] at swapped
      exact (inside.append ih).trans swapped
  | @note label content content' rest rest' inner notes below later inside ih =>
      have left : codesAll (.text "^[" :: content' ++ .text "]" :: rest') =
          codesAll content' ++ codesAll rest' := by
        rw [codesAll_append]
        rfl
      have right : codesAll (.leaf (.footnoteReference label) :: rest) = codesAll rest := rfl
      have own : codesAll [⟨.paragraph, content⟩] = codesAll content := by
        rw [codesAll, codesAll, List.append_nil]
        rfl
      rw [left, right, List.cons_append, List.flatMap_cons, own, List.flatMap_append,
        ← List.append_assoc (codesAll content)]
      exact (inside.append ih).trans (List.perm_append_comm_assoc _ _ _)

/-! ### New labels -/

/-- The notes that are made have labels of their own that were not taken. -/
theorem Lifting.Makes.exists_made {before after : Lifting} (makes : Makes before after) :
    ∃ made, after.made = before.made ++ made ∧ (made.map (·.label)).Nodup ∧
      ∀ note ∈ made, note.label ∉ before.taken := by
  induction makes with
  | refl lifting => exact ⟨[], by simp, List.nodup_nil, by simp⟩
  | @make before after content rest ih =>
      obtain ⟨made, grown, distinct, fresh⟩ := ih
      obtain ⟨label, free, -, taken, entered⟩ := exists_make content before
      rw [taken] at fresh
      refine ⟨⟨label, [⟨.paragraph, content⟩]⟩ :: made, ?_, ?_, ?_⟩
      · rw [grown, entered, List.append_assoc, List.singleton_append]
      · rw [List.map_cons, List.nodup_cons]
        refine ⟨?_, distinct⟩
        intro member
        obtain ⟨note, inside, same⟩ := List.mem_map.1 member
        exact fresh note inside (same ▸ List.mem_cons_self)
      · rw [List.forall_mem_cons]
        refine ⟨free, ?_⟩
        intro note member used
        exact fresh note member (List.mem_cons_of_mem _ used)

/-! ### Lifting undone -/

/-- Whether lifting makes the notes `made` of a tree, and putting them back gives the tree again. -/
structure IsUndone (node : Node) (before : Lifting) (made : List Note) (restored : Node) : Prop where
  grown : (lift node before).2.made = before.made ++ made
  /-- Each of the notes is put back once. -/
  back : ∃ used, PutsBack [(lift node before).1] [restored] used ∧ used.Perm made
  same : tidy restored = tidy node
  /-- Code is in what is left or in the notes, as it was. -/
  code : (codes (lift node before).1 ++ made.flatMap fun note => codesAll note.content).Perm
    (codes node)
  closed : ∀ note ∈ made, note.IsMade
  /-- The notes that are left as text are not closed or blank. -/
  spent : IsSpent IsBlankText (lift node before).1
  distinct : (made.map (·.label)).Nodup
  fresh : ∀ note ∈ made, note.label ∉ before.taken

/-- Lifting the notes out of a tree is undone by putting them back. -/
theorem lift_undone (node : Node) (before : Lifting) (bare : HasBareTexts node) :
    ∃ made restored, IsUndone node before made restored := by
  obtain ⟨made, used, restored, grown, back, all, same, closed⟩ := lift_back node before bare
  obtain ⟨made', grown', distinct, fresh⟩ := (makes_lift node before).exists_made
  obtain rfl : made = made' := List.append_cancel_left (grown.symm.trans grown')
  have code : (codes (lift node before).1 ++ made.flatMap fun note => codesAll note.content).Perm
      (codes node) := by
    have found := back.codes
    rw [codesAll, codesAll, codesAll, codesAll, List.append_nil, List.append_nil] at found
    rw [← codes_tidy node, ← same, codes_tidy restored]
    exact ((all.flatMap_right _).symm.append_left _).trans found.symm
  exact ⟨made, restored, grown, ⟨used, back, all⟩, same, code, closed, isSpent_lift node before,
    distinct, fresh⟩

/-- A note across a tree that holds another note, next to one that is blank and one without end. -/
def crossedNotes : Node :=
  ⟨.paragraph,
    [.text "x ^", .text "[a ", ⟨.emphasis, [.text "b^[c]"]⟩, .text " [d]", .leaf (.inlineCode "^[e]"),
      .text "] ^[ ]", .text "", .text "^[f"]⟩

/-- Two notes in crossed brackets: both are put back although the first label was taken. -/
theorem lift_undone_crossed :
    HasBareTexts crossedNotes ∧
      ∃ made restored, IsUndone crossedNotes ⟨["inline-1"], 0, []⟩ made restored ∧
        made.map (·.label) = ["inline-2", "inline-3"] := by
  have bare : HasBareTexts crossedNotes := by
    show ∀ text ∈ crossedNotes.walk, text.kind.isText = true → text.children = []
    decide +kernel
  obtain ⟨made, restored, undone⟩ := lift_undone crossedNotes ⟨["inline-1"], 0, []⟩ bare
  refine ⟨bare, made, restored, undone, ?_⟩
  have grown := congrArg (List.map Note.label) undone.grown
  rw [List.nil_append] at grown
  rw [← grown]
  decide +kernel

end DocPress.Footnote
