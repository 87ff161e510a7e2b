import Mathlib.Data.List.Forall2
import DocPress.Proofs.Footnote.Lift

/-!
Pieces out of which no note can be lifted: a note in them is not closed, or it is blank. Lifting leaves
such pieces and changes nothing about them, and other pieces may take their places as long as what was
blank is.
-/

namespace DocPress.Footnote

open Node

/-! ### Blank pieces -/

/-- Whether a tree has a text of blanks. -/
def IsBlankText (node : Node) : Prop :=
  ∀ c ∈ node.textContent.toList, Text.isBlank c = true

/-- Whether a piece is a blank, or a tree that counts as blank. -/
def Piece.IsBlank (blank : Node → Prop) : Piece → Prop
  | .char c => Text.isBlank c = true
  | .node tree => blank tree

theorem mem_textContentAll {nodes : List Node} {c : Char} :
    c ∈ (textContentAll nodes).toList ↔ ∃ node ∈ nodes, c ∈ node.textContent.toList := by
  induction nodes with
  | nil => simp [textContentAll]
  | cons node rest ih =>
      rw [textContentAll, String.toList_append, List.mem_append, ih]
      simp

theorem isBlank_iff {nodes : List Node} : isBlank nodes = true ↔ ∀ node ∈ nodes, IsBlankText node := by
  simp only [isBlank, List.all_eq_true, IsBlankText]

theorem isBlankText_mk {kind : NodeKind} {children : List Node} :
    IsBlankText ⟨kind, children⟩ ↔
      (∀ c ∈ (ownText ⟨kind, children⟩).toList, Text.isBlank c = true) ∧
        ∀ node ∈ children, IsBlankText node := by
  simp only [IsBlankText, textContent, String.toList_append, List.mem_append, mem_textContentAll]
  constructor
  · intro blank
    exact ⟨fun c member => blank c (.inl member),
      fun node member c inside => blank c (.inr ⟨node, member, inside⟩)⟩
  · rintro ⟨own, below⟩ c (member | ⟨node, member, inside⟩)
    · exact own c member
    · exact below node member c inside

/-- A character in front keeps nodes blank exactly when it is blank. -/
theorem isBlank_putChar (c : Char) (nodes : List Node) :
    isBlank (putChar c nodes) = true ↔ Text.isBlank c = true ∧ isBlank nodes = true := by
  simp only [isBlank_iff]
  cases nodes with
  | nil => simp [putChar, Node.text, leaf, isBlankText_mk, ownText]
  | cons node more =>
      obtain ⟨kind, children⟩ := node
      cases text : kind.isText with
      | true =>
          obtain ⟨_, rfl⟩ := NodeKind.exists_of_isText text
          simp [putChar, isBlankText_mk, ownText, and_assoc, or_imp, forall_and]
      | false =>
          rw [putChar_of_not_text c text]
          simp [Node.text, leaf, isBlankText_mk, ownText]

/-- The nodes that pieces make up are blank when all the pieces are. -/
theorem isBlank_joinPieces {pieces : List Piece} :
    isBlank (joinPieces pieces) = true ↔ ∀ piece ∈ pieces, piece.IsBlank IsBlankText := by
  induction pieces with
  | nil => simp [joinPieces, isBlank]
  | cons piece rest ih =>
      rw [List.forall_mem_cons]
      cases piece with
      | char c => rw [joinPieces_char, isBlank_putChar, ih, Piece.IsBlank]
      | node node => rw [joinPieces, isBlank_iff, List.forall_mem_cons, ← isBlank_iff, ih, Piece.IsBlank]

/-! ### Pieces of nodes -/

/-- Whether a piece that is a tree satisfies `p`. -/
def Piece.Holds (p : Node → Prop) : Piece → Prop
  | .char _ => True
  | .node tree => p tree

/-- The trees among the pieces of nodes are those of the nodes that are no texts. -/
theorem pieces_hold {p : Node → Prop} {nodes : List Node}
    (all : ∀ node ∈ nodes, node.kind.isText = false → p node) :
    ∀ piece ∈ pieces nodes, piece.Holds p :=
  forall_mem_pieces (fun _ _ _ _ _ => True.intro) all

/-- A character in front is the first piece. -/
theorem pieces_putChar (c : Char) (nodes : List Node) :
    pieces (putChar c nodes) = .char c :: pieces nodes := by
  cases nodes with
  | nil => simp [putChar, pieces, Node.text, leaf]
  | cons node more =>
      obtain ⟨kind, children⟩ := node
      cases text : kind.isText with
      | true =>
          obtain ⟨_, rfl⟩ := NodeKind.exists_of_isText text
          simp [putChar, pieces]
      | false =>
          rw [putChar_of_not_text c text]
          simp [pieces, Node.text, leaf]

/-- Nodes are cut into pieces one list after the other. -/
theorem pieces_append (nodes others : List Node) :
    pieces (nodes ++ others) = pieces nodes ++ pieces others := by
  induction nodes with
  | nil => rfl
  | cons node rest ih =>
      obtain ⟨kind, children⟩ := node
      cases text : kind.isText with
      | true =>
          obtain ⟨_, rfl⟩ := NodeKind.exists_of_isText text
          rw [List.cons_append, pieces, pieces, ih, List.append_assoc]
      | false =>
          rw [List.cons_append, pieces_of_not_text children _ text,
            pieces_of_not_text children _ text, ih, List.cons_append]

theorem pieces_concat (nodes : List Node) {kind : NodeKind} (children : List Node)
    (text : kind.isText = false) : pieces (nodes ++ [⟨kind, children⟩]) =
      pieces nodes ++ [.node ⟨kind, children⟩] := by
  rw [pieces_append, pieces_of_not_text children [] text]
  rfl

/-- The nodes that pieces make up fall into these pieces again. -/
theorem pieces_joinPieces {cut : List Piece}
    (isCut : ∀ piece ∈ cut, piece.Holds (·.kind.isText = false)) :
    pieces (joinPieces cut) = cut := by
  induction cut with
  | nil => rfl
  | cons piece rest ih =>
      obtain ⟨here, later⟩ := List.forall_mem_cons.1 isCut
      cases piece with
      | char c => rw [joinPieces_char, pieces_putChar, ih later]
      | node node =>
          obtain ⟨kind, children⟩ := node
          rw [joinPieces, pieces_of_not_text children _ here, ih later]

/-! ### Spent pieces -/

/-- Whether pieces start with a caret and an opening bracket. -/
def OpensNote (pieces : List Piece) : Prop :=
  ∃ rest, pieces = .char '^' :: .char '[' :: rest

/-- Whether no note can be lifted out of pieces: those that are closed are blank. -/
inductive Spent (blank : Node → Prop) : List Piece → Prop where
  | nil : Spent blank []
  /-- After a note that is not closed nothing is lifted. -/
  | unclosed {rest : List Piece} (none : closeNote? 0 rest = none) :
      Spent blank (.char '^' :: .char '[' :: rest)
  | blank {rest inner after : List Piece} (found : closeNote? 0 rest = some (inner, after))
      (within : ∀ piece ∈ inner, piece.IsBlank blank) (behind : Spent blank after) :
      Spent blank (.char '^' :: .char '[' :: rest)
  | other {piece : Piece} {rest : List Piece} (shut : ¬OpensNote (piece :: rest))
      (behind : Spent blank rest) : Spent blank (piece :: rest)

theorem liftPieces_of_not_opens {piece : Piece} {rest : List Piece}
    (shut : ¬OpensNote (piece :: rest)) (fuel : Nat) (lifting : Lifting) :
    liftPieces (fuel + 1) (piece :: rest) lifting =
      (piece :: (liftPieces fuel rest lifting).1, (liftPieces fuel rest lifting).2) := by
  rw [liftPieces]
  rintro others rfl rfl
  exact shut ⟨others, rfl⟩

/-- Nothing is lifted out of spent pieces. -/
theorem Spent.liftPieces_eq {pieces : List Piece} (spent : Spent IsBlankText pieces) {fuel : Nat}
    (enough : pieces.length ≤ fuel) (lifting : Lifting) :
    liftPieces fuel pieces lifting = (pieces, lifting) := by
  induction spent generalizing fuel with
  | nil => cases fuel <;> rfl
  | @unclosed rest none =>
      cases fuel with
      | zero => rfl
      | succ fuel => simp only [liftPieces, none]
  | @blank rest inner after found within behind ih =>
      cases fuel with
      | zero => rfl
      | succ fuel =>
          have short := length_lt_of_closeNote? found
          rw [List.length_cons, List.length_cons] at enough
          have rest := ih (show after.length ≤ fuel by omega)
          simp only [liftPieces, found, isBlank_joinPieces.2 within, if_true, rest]
          rw [eq_of_closeNote? found]
          rfl
  | @other piece rest shut behind ih =>
      cases fuel with
      | zero => rfl
      | succ fuel => rw [liftPieces_of_not_opens shut, ih (Nat.le_of_succ_le_succ enough)]

/-- What is lifted out of pieces does not make them start with a bracket. -/
theorem head?_liftPieces {fuel : Nat} {pieces : List Piece} {lifting : Lifting}
    (head : (liftPieces fuel pieces lifting).1.head? = some (.char '[')) :
    pieces.head? = some (.char '[') := by
  cases fuel with
  | zero => exact head
  | succ fuel =>
      unfold liftPieces at head
      split at head
      · exact head
      · exact head
      · split at head
        · exact head
        · dsimp only at head
          split at head <;> cases head
      · exact head

/-- Lifting leaves spent pieces. -/
theorem spent_liftPieces {fuel : Nat} {pieces : List Piece} (enough : pieces.length ≤ fuel)
    (lifting : Lifting) : Spent IsBlankText (liftPieces fuel pieces lifting).1 := by
  fun_induction liftPieces fuel pieces lifting with
  | case1 pieces lifting =>
      rw [List.length_eq_zero_iff.1 (Nat.le_zero.1 enough)]
      exact .nil
  | case2 fuel lifting positive => exact .nil
  | case3 fuel rest lifting unclosed => exact .unclosed unclosed
  | case4 fuel rest lifting inner after found content blank later more lifted ih =>
      rw [lifted] at ih
      have short := length_lt_of_closeNote? found
      rw [List.length_cons, List.length_cons] at enough
      have behind := ih (by omega)
      obtain ⟨paired, rfl⟩ := closeNote?_eq_some_iff.1 found
      exact .blank (paired.closeNote? later) (isBlank_joinPieces.1 blank) behind
  | case5 fuel rest lifting inner after found content blank made next making later more lifted ih =>
      rw [lifted] at ih
      have short := length_lt_of_closeNote? found
      rw [List.length_cons, List.length_cons] at enough
      have behind := ih (by omega)
      refine .other ?_ behind
      rintro ⟨others, same⟩
      cases same
  | case6 fuel piece rest lifting other later more lifted ih =>
      rw [lifted] at ih
      refine .other ?_ (ih (Nat.le_of_succ_le_succ enough))
      rintro ⟨others, same⟩
      obtain ⟨rfl, rfl⟩ := List.cons.inj same
      have head : (liftPieces fuel rest lifting).1.head? = some (.char '[') := by
        rw [lifted]
        rfl
      obtain ⟨tail, rfl⟩ := List.head?_eq_some_iff.1 (head?_liftPieces head)
      exact other tail rfl rfl

/-- Pieces without a caret are spent. -/
theorem spent_of_forall_ne {blank : Node → Prop} {pieces : List Piece}
    (plain : ∀ piece ∈ pieces, piece ≠ .char '^') : Spent blank pieces := by
  induction pieces with
  | nil => exact .nil
  | cons piece rest ih =>
      obtain ⟨here, later⟩ := List.forall_mem_cons.1 plain
      refine .other ?_ (ih later)
      rintro ⟨others, same⟩
      exact here (List.cons.inj same).1

/-- A node behind all pieces stays behind a note. -/
theorem closeNote?_concat (depth : Nat) (pieces : List Piece) (tree : Node) :
    closeNote? depth (pieces ++ [.node tree]) =
      (closeNote? depth pieces).map fun parts => (parts.1, parts.2 ++ [.node tree]) := by
  induction pieces generalizing depth with
  | nil => rfl
  | cons first rest ih =>
      by_cases closes : first = .char ']'
      · subst closes
        cases depth with
        | zero => rfl
        | succ depth =>
            rw [List.cons_append, closeNote?, closeNote?, ih, Option.map_map, Option.map_map]
            rfl
      · obtain ⟨deeper, step⟩ := closeNote?_of_ne closes depth
        rw [List.cons_append, step, step, ih, Option.map_map, Option.map_map]
        rfl

/-- A tree after spent pieces leaves them spent. -/
theorem Spent.concat {blank : Node → Prop} {pieces : List Piece} (spent : Spent blank pieces)
    (tree : Node) : Spent blank (pieces ++ [.node tree]) := by
  induction spent with
  | nil =>
      refine .other ?_ .nil
      rintro ⟨others, same⟩
      cases same
  | @unclosed rest none =>
      apply Spent.unclosed
      show closeNote? 0 (rest ++ [.node tree]) = Option.none
      rw [closeNote?_concat, none, Option.map_none]
  | @blank rest inner after found within behind ih =>
      refine .blank ?_ within ih
      show closeNote? 0 (rest ++ [.node tree]) = _
      rw [closeNote?_concat, found, Option.map_some]
  | @other piece rest shut behind ih =>
      refine .other ?_ ih
      rintro ⟨others, same⟩
      rcases rest with _ | ⟨second, rest⟩
      · cases same
      · cases same
        exact shut ⟨rest, rfl⟩

/-! ### Pieces in place of others -/

/-- Whether a piece takes the place of another one: a character that of itself, and a tree that of a
tree, so that what counts as blank still does. -/
inductive Piece.Follows (blank blank' : Node → Prop) : Piece → Piece → Prop where
  | char (c : Char) : Follows blank blank' (.char c) (.char c)
  | node {tree tree' : Node} (keeps : blank tree → blank' tree') :
      Follows blank blank' (.node tree) (.node tree')

section Follows

variable {blank blank' : Node → Prop}

/-- Pieces that follow blank ones are blank. -/
theorem isBlank_of_follows {old new : List Piece}
    (follows : List.Forall₂ (Piece.Follows blank blank') old new)
    (all : ∀ piece ∈ old, piece.IsBlank blank) : ∀ piece ∈ new, piece.IsBlank blank' := by
  induction follows with
  | nil => exact fun _ member => absurd member List.not_mem_nil
  | cons here later ih =>
      rw [List.forall_mem_cons] at all ⊢
      refine ⟨?_, ih all.2⟩
      cases here with
      | char c => exact all.1
      | node keeps => exact keeps all.1

/-- A note that opens in what follows pieces opens in them. -/
theorem opensNote_of_follows {old new : List Piece}
    (follows : List.Forall₂ (Piece.Follows blank blank') old new) (opens : OpensNote new) :
    OpensNote old := by
  obtain ⟨rest, rfl⟩ := opens
  rcases follows with _ | ⟨_ | _, _ | ⟨_ | _, later⟩⟩
  exact ⟨_, rfl⟩

/-- What follows an opening is one. -/
theorem follows_opening {rest new : List Piece}
    (follows : List.Forall₂ (Piece.Follows blank blank') (.char '^' :: .char '[' :: rest) new) :
    ∃ rest', new = .char '^' :: .char '[' :: rest' ∧
      List.Forall₂ (Piece.Follows blank blank') rest rest' := by
  rcases follows with _ | ⟨_ | _, _ | ⟨_ | _, later⟩⟩
  exact ⟨_, rfl, later⟩

/-- Whether two results of looking for the end of a note are both nothing, or the pieces of the one take
the places of those of the other. -/
def PartsFollow (blank blank' : Node → Prop) :
    Option (List Piece × List Piece) → Option (List Piece × List Piece) → Prop :=
  Option.Rel fun old new => List.Forall₂ (Piece.Follows blank blank') old.1 new.1 ∧
    List.Forall₂ (Piece.Follows blank blank') old.2 new.2

theorem PartsFollow.cons {old new : Option (List Piece × List Piece)} {piece piece' : Piece}
    (parts : PartsFollow blank blank' old new) (here : piece.Follows blank blank' piece') :
    PartsFollow blank blank' (old.map fun parts => (piece :: parts.1, parts.2))
      (new.map fun parts => (piece' :: parts.1, parts.2)) := by
  cases parts with
  | none => exact .none
  | some both => exact .some ⟨.cons here both.1, both.2⟩

/-- A note is closed in the same place. -/
theorem closeNote?_follows {old new : List Piece}
    (follows : List.Forall₂ (Piece.Follows blank blank') old new) (depth : Nat) :
    PartsFollow blank blank' (closeNote? depth old) (closeNote? depth new) := by
  induction follows generalizing depth with
  | nil => exact .none
  | @cons first first' rest rest' here later ih =>
      have kept (deeper : Nat) := (ih deeper).cons here
      cases here with
      | char c =>
          by_cases closes : c = ']'
          · subst closes
            cases depth with
            | zero => exact .some ⟨.nil, later⟩
            | succ depth => exact kept depth
          · have other : Piece.char c ≠ .char ']' := fun same => closes (Piece.char.inj same)
            obtain ⟨deeper, step⟩ := closeNote?_of_ne other depth
            rw [step, step]
            exact kept deeper
      | node keeps => exact kept depth

/-- Pieces in place of spent ones are spent. -/
theorem Spent.of_follows {old new : List Piece} (spent : Spent blank old)
    (follows : List.Forall₂ (Piece.Follows blank blank') old new) : Spent blank' new := by
  induction spent generalizing new with
  | nil =>
      cases follows
      exact .nil
  | @unclosed rest none =>
      obtain ⟨rest', rfl, later⟩ := follows_opening follows
      have closing := closeNote?_follows later 0
      rw [none] at closing
      cases result : closeNote? 0 rest' with
      | none => exact .unclosed result
      | some parts =>
          rw [result] at closing
          cases closing
  | @blank rest inner after found within behind ih =>
      obtain ⟨rest', rfl, later⟩ := follows_opening follows
      have closing := closeNote?_follows later 0
      rw [found] at closing
      cases result : closeNote? 0 rest' with
      | none =>
          rw [result] at closing
          cases closing
      | some parts =>
          rw [result] at closing
          cases closing with
          | some both => exact .blank result (isBlank_of_follows both.1 within) (ih both.2)
  | @other piece rest shut behind ih =>
      obtain ⟨piece', rest', here, later, rfl⟩ := List.forall₂_cons_left_iff.1 follows
      exact .other (fun opens => shut (opensNote_of_follows follows opens)) (ih later)

end Follows

end DocPress.Footnote
