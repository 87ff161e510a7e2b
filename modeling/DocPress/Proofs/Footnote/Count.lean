import Mathlib.Algebra.GroupWithZero.Nat
import DocPress.Proofs.Footnote.Numbered

/-!
Footnotes do not multiply nodes. When all notes are listed, what is in them is moved, so that there are
no more nodes of a kind in the numbered document than in the document, apart from the kinds that
footnotes are made of.
-/

namespace DocPress

/-- Whether footnotes may be made of nodes of the kind, or it is at the root of what they are taken
from. -/
def NodeKind.isNotePart : NodeKind → Bool
  | .document | .fragment | .paragraph | .text _ | .footnoteReference _ | .footnoteDefinition _
  | .footnoteCrossReference .. | .brokenReference _ | .inlineNote _ | .footnoteList
  | .footnoteItem .. => true
  | _ => false

namespace Footnote

open Node

/-- Whether `p` is about other kinds than those that footnotes are made of. -/
def IsApart (p : NodeKind → Bool) : Prop :=
  ∀ kind : NodeKind, kind.isNotePart = true → p kind = false

variable {p : NodeKind → Bool}

/-- A node that footnotes are made of is not counted itself. -/
theorem IsApart.countWhere_eq (apart : IsApart p) {node : Node}
    (part : node.kind.isNotePart = true) : node.countWhere p = countAllWhere p node.children := by
  obtain ⟨kind, children⟩ := node
  rw [countWhere_mk, apart kind part]
  exact Nat.zero_add _

theorem IsApart.countWhere_mk (apart : IsApart p) {kind : NodeKind} (children : List Node)
    (part : kind.isNotePart = true) :
    (Node.mk kind children).countWhere p = countAllWhere p children :=
  apart.countWhere_eq part

/-- The number of nodes in the contents of notes whose kind satisfies `p`. -/
def countNotes (p : NodeKind → Bool) (notes : List Note) : Nat :=
  (notes.map fun note => countAllWhere p note.content).sum

theorem countNotes_append (p : NodeKind → Bool) (first second : List Note) :
    countNotes p (first ++ second) = countNotes p first + countNotes p second := by
  rw [countNotes, List.map_append, List.sum_append]
  rfl

theorem countNotes_singleton (p : NodeKind → Bool) (note : Note) :
    countNotes p [note] = countAllWhere p note.content := by
  rw [countNotes, List.map_singleton, List.sum_singleton]

/-! ### Definitions -/

mutual

/-- What is in a tree is in what is left of it without definitions, or in the notes. -/
theorem count_strip (apart : IsApart p) :
    ∀ node : Node, countAllWhere p (strip node) + countNotes p (notes node) = node.countWhere p
  | ⟨kind, children⟩ => by
      have below := count_stripAll apart children
      cases definition : kind.isDefinition with
      | true =>
          obtain ⟨_, rfl⟩ := NodeKind.exists_of_isDefinition definition
          rw [strip, notes, countNotes_append, countNotes_singleton, apart.countWhere_mk children rfl,
            countAllWhere_nil, Nat.zero_add, Nat.add_comm]
          exact below
      | false =>
          rw [strip_of_not_definition children definition, notes_of_not_definition children definition,
            countAllWhere_cons, countAllWhere_nil, countWhere_mk, countWhere_mk]
          omega

theorem count_stripAll (apart : IsApart p) :
    ∀ nodes : List Node,
      countAllWhere p (stripAll nodes) + countNotes p (notesAll nodes) = countAllWhere p nodes
  | [] => rfl
  | node :: rest => by
      have here := count_strip apart node
      have later := count_stripAll apart rest
      rw [stripAll, notesAll, countAllWhere_append, countNotes_append, countAllWhere_cons]
      omega

end

/-- The first notes of each label hold no more than all of them. -/
theorem countNotes_firsts_le (seen : List String) (notes : List Note) :
    countNotes p (firsts seen notes).1 ≤ countNotes p notes := by
  induction notes generalizing seen with
  | nil => exact Nat.le_refl _
  | cons note rest ih =>
      have more := countNotes_append p [note] rest
      rw [List.singleton_append] at more
      rw [firsts, more]
      split
      · exact Nat.le_trans (ih seen) (Nat.le_add_left _ _)
      · have kept := countNotes_append p [note] (firsts (note.label :: seen) rest).1
        rw [List.singleton_append] at kept
        have fewer := ih (note.label :: seen)
        dsimp only
        omega

/-! ### Notes written in place -/

/-- The number of nodes in a piece whose kind satisfies `p`. -/
def Piece.countWhere (p : NodeKind → Bool) : Piece → Nat
  | .char _ => 0
  | .node tree => tree.countWhere p

/-- The number of nodes in pieces whose kind satisfies `p`. -/
def countPieces (p : NodeKind → Bool) (pieces : List Piece) : Nat :=
  (pieces.map (Piece.countWhere p)).sum

theorem countPieces_cons (p : NodeKind → Bool) (piece : Piece) (rest : List Piece) :
    countPieces p (piece :: rest) = piece.countWhere p + countPieces p rest := by
  rw [countPieces, List.map_cons, List.sum_cons]
  rfl

theorem countPieces_append (p : NodeKind → Bool) (first second : List Piece) :
    countPieces p (first ++ second) = countPieces p first + countPieces p second := by
  rw [countPieces, List.map_append, List.sum_append]
  rfl

/-- Characters count for nothing. -/
theorem countPieces_chars (p : NodeKind → Bool) (text : List Char) :
    countPieces p (text.map .char) = 0 := by
  induction text with
  | nil => rfl
  | cons c rest ih => rw [List.map_cons, countPieces_cons, ih, Piece.countWhere]

/-- Pieces hold no more than the nodes they are cut from. -/
theorem countPieces_pieces_le (p : NodeKind → Bool) (nodes : List Node) :
    countPieces p (pieces nodes) ≤ countAllWhere p nodes := by
  induction nodes with
  | nil => exact Nat.le_refl _
  | cons node rest ih =>
      obtain ⟨kind, children⟩ := node
      rw [countAllWhere_cons]
      cases text : kind.isText with
      | true =>
          obtain ⟨_, rfl⟩ := NodeKind.exists_of_isText text
          rw [pieces, countPieces_append, countPieces_chars]
          omega
      | false =>
          rw [pieces_of_not_text children rest text, countPieces_cons, Piece.countWhere]
          omega

/-- A character in front of nodes counts for nothing. -/
theorem countAllWhere_putChar (apart : IsApart p) (c : Char) (nodes : List Node) :
    countAllWhere p (putChar c nodes) = countAllWhere p nodes := by
  cases nodes with
  | nil =>
      show countAllWhere p [⟨.text (String.singleton c), []⟩] = _
      rw [countAllWhere_cons, apart.countWhere_mk [] rfl]
      rfl
  | cons node more =>
      obtain ⟨kind, children⟩ := node
      cases text : kind.isText with
      | true =>
          obtain ⟨_, rfl⟩ := NodeKind.exists_of_isText text
          rw [putChar, countAllWhere_cons, countAllWhere_cons, apart.countWhere_mk children rfl,
            apart.countWhere_mk children rfl]
      | false =>
          rw [putChar_of_not_text c text, Node.text, leaf, countAllWhere_cons,
            apart.countWhere_mk [] rfl]
          exact Nat.zero_add _

/-- Joining pieces adds nothing to count. -/
theorem countAllWhere_joinPieces (apart : IsApart p) (pieces : List Piece) :
    countAllWhere p (joinPieces pieces) = countPieces p pieces := by
  induction pieces with
  | nil => rfl
  | cons piece rest ih =>
      cases piece with
      | char c =>
          rw [joinPieces_char, countAllWhere_putChar apart, ih, countPieces_cons, Piece.countWhere,
            Nat.zero_add]
      | node node => rw [joinPieces, countAllWhere_cons, ih, countPieces_cons, Piece.countWhere]

/-- A note takes over all that is counted in its content. -/
theorem count_make (apart : IsApart p) (content : List Node) (lifting : Lifting) :
    (lifting.make content).1.countWhere p = 0 ∧
      countNotes p (lifting.make content).2.made =
        countNotes p lifting.made + countAllWhere p content := by
  constructor
  · rw [Lifting.make, leaf, apart.countWhere_mk [] rfl]
    rfl
  · rw [Lifting.make, countNotes_append, countNotes_singleton]
    dsimp only
    rw [countAllWhere_cons, apart.countWhere_mk content rfl, countAllWhere_nil, Nat.add_zero]

/-- What is in pieces is in what is left of them, or in the notes made. -/
theorem LiftsOut.count (apart : IsApart p) {cut left : List Piece} {before after : Lifting}
    (lifts : LiftsOut cut before left after) :
    countPieces p left + countNotes p after.made = countPieces p cut + countNotes p before.made := by
  induction lifts with
  | nil lifting => rfl
  | keep piece later ih =>
      rw [countPieces_cons, countPieces_cons]
      omega
  | @note inner behind left before after paired filled later ih =>
      obtain ⟨none, more⟩ := count_make apart (joinPieces inner) before
      rw [countAllWhere_joinPieces apart] at more
      simp only [List.cons_append, countPieces_cons, countPieces_append, Piece.countWhere, none]
      omega

/-- Lifting out of children brings in nothing to count. -/
theorem count_liftChildren_le (apart : IsApart p) (children : List Node) (lifting : Lifting) :
    countAllWhere p (liftChildren children lifting).1 +
        countNotes p (liftChildren children lifting).2.made ≤
      countAllWhere p children + countNotes p lifting.made := by
  rw [liftChildren]
  split
  · have lifted := (liftsOut_liftPieces (pieces children).length (pieces children) lifting).count apart
    have fewer := countPieces_pieces_le p children
    dsimp only
    rw [countAllWhere_joinPieces apart]
    omega
  · exact Nat.le_refl _

mutual

/-- Lifting out of a tree brings in nothing to count, in the tree and the notes together. -/
theorem count_lift_le (apart : IsApart p) : ∀ (node : Node) (lifting : Lifting),
    (lift node lifting).1.countWhere p + countNotes p (lift node lifting).2.made ≤
      node.countWhere p + countNotes p lifting.made
  | ⟨kind, children⟩, lifting => by
      rw [lift]
      split
      · exact Nat.le_refl _
      · have below := count_liftAll_le apart children lifting
        have here := count_liftChildren_le apart (liftAll children lifting).1 (liftAll children lifting).2
        dsimp only
        rw [countWhere_mk, countWhere_mk]
        omega

theorem count_liftAll_le (apart : IsApart p) : ∀ (nodes : List Node) (lifting : Lifting),
    countAllWhere p (liftAll nodes lifting).1 + countNotes p (liftAll nodes lifting).2.made ≤
      countAllWhere p nodes + countNotes p lifting.made
  | [], _ => Nat.le_refl _
  | node :: rest, lifting => by
      have here := count_lift_le apart node lifting
      have later := count_liftAll_le apart rest (lift node lifting).2
      rw [liftAll, countAllWhere_cons]
      dsimp only
      rw [countAllWhere_cons]
      omega

end

theorem countNotes_cons (p : NodeKind → Bool) (note : Note) (rest : List Note) :
    countNotes p (note :: rest) = countAllWhere p note.content + countNotes p rest := by
  rw [countNotes, List.map_cons, List.sum_cons]
  rfl

/-- Lifting out of notes brings in nothing to count. -/
theorem count_liftNotes_le (apart : IsApart p) (notes : List Note) (lifting : Lifting) :
    countNotes p (liftNotes notes lifting).1 + countNotes p (liftNotes notes lifting).2.made ≤
      countNotes p notes + countNotes p lifting.made := by
  induction notes generalizing lifting with
  | nil => exact Nat.le_refl _
  | cons note rest ih =>
      have here := count_lift_le apart ⟨.fragment, note.content⟩ lifting
      have later := ih (lift ⟨.fragment, note.content⟩ lifting).2
      have fragment : (lift ⟨.fragment, note.content⟩ lifting).1.kind.isNotePart = true := by
        rw [lift_kind]
        rfl
      rw [apart.countWhere_eq fragment, apart.countWhere_mk note.content rfl] at here
      rw [liftNotes, countNotes_cons, countNotes_cons]
      dsimp only
      omega

/-- What is in a document is in the tree that is numbered or in its notes, if it is not lost. -/
theorem count_collect_le (apart : IsApart p) (options : FootnoteOptions) {document : Node}
    (root : document.kind = .document) :
    (collect options document).1.countWhere p + countNotes p (collect options document).2 ≤
      document.countWhere p := by
  obtain ⟨kind, children⟩ := document
  obtain rfl : kind = .document := root
  have stripped := count_stripAll apart children
  have fewer := @countNotes_firsts_le p [] (notesAll children)
  have tree := apart.countWhere_mk (stripAll children) (rfl : NodeKind.document.isNotePart = true)
  rw [collect, apart.countWhere_mk children rfl]
  dsimp only
  split
  · have lifted := count_lift_le apart ⟨.document, stripAll children⟩
      ⟨(firsts [] (notesAll children)).1.map (·.label), 0, []⟩
    rw [liftDocument]
    dsimp only
    have late := count_liftNotes_le apart ((firsts [] (notesAll children)).1 ++
      (lift ⟨.document, stripAll children⟩
        ⟨(firsts [] (notesAll children)).1.map (·.label), 0, []⟩).2.made)
      { (lift ⟨.document, stripAll children⟩
        ⟨(firsts [] (notesAll children)).1.map (·.label), 0, []⟩).2 with made := [] }
    rw [countNotes_append] at late ⊢
    have none : countNotes p [] = 0 := rfl
    dsimp only at late lifted
    omega
  · dsimp only
    omega

/-! ### Numbers -/

section Resolve

variable {reference : String → Numbering → Node × Numbering}

/-- Resolving references multiplies nothing if nothing comes of them that counts. -/
theorem count_resolveAll_le
    (none : ∀ label numbering, (reference label numbering).1.countWhere p = 0) (nodes : List Node)
    (numbering : Numbering) :
    countAllWhere p (resolveAll reference nodes numbering).1 ≤ countAllWhere p nodes := by
  induction nodes using references_induction generalizing numbering with
  | nil => exact Nat.le_refl _
  | reference label children rest behind =>
      have later := behind (reference label numbering).2
      rw [resolveAll_reference, countAllWhere_cons, countAllWhere_cons, none]
      omega
  | other kind children rest refers inner behind =>
      have below := inner numbering
      have later := behind (resolveAll reference children numbering).2
      rw [resolveAll_other refers, countAllWhere_cons, countAllWhere_cons, countWhere_mk, countWhere_mk]
      omega

end Resolve

/-- Where no notes are shown in place, references become leaves. -/
theorem countWhere_reference (apart : IsApart p) {notes : Notes} (long : notes.short = []) :
    ∀ label numbering, (notes.reference label numbering).1.countWhere p = 0 := by
  refine Notes.reference_induction (motive := fun _ _ _ made => made.1.countWhere p = 0)
    ?circle ?short ?listed ?missing
  case circle => exact fun _ _ _ _ _ => apart.countWhere_mk [] rfl
  case short =>
    intro shown note reference numbering member
    rw [long] at member
    cases member
  case listed => exact fun _ _ _ _ _ _ => apart.countWhere_mk [] rfl
  case missing => exact fun _ _ _ _ _ _ => apart.countWhere_mk [] rfl

/-! ### Items -/

/-- The content of the note of a label, if there is one. -/
def contentOf (notes : List Note) (label : String) : List Node :=
  (content? label notes).getD []

theorem contentOf_cons_self (note : Note) (rest : List Note) :
    contentOf (note :: rest) note.label = note.content := by
  simp [contentOf, content?]

theorem contentOf_cons_of_ne {note : Note} {label : String} (other : label ≠ note.label)
    (rest : List Note) : contentOf (note :: rest) label = contentOf rest label := by
  simp [contentOf, content?, other.symm]

/-- Of a list without repetitions at most one entry is the given one. -/
theorem sum_map_le_of_nodup {entries : List String} (distinct : entries.Nodup) (entry : String)
    {f g : String → Nat} (others : ∀ other, other ≠ entry → f other = g other) :
    (entries.map f).sum ≤ f entry + (entries.map g).sum := by
  induction entries with
  | nil => exact Nat.zero_le _
  | cons first rest ih =>
      rw [List.nodup_cons] at distinct
      rw [List.map_cons, List.sum_cons, List.map_cons, List.sum_cons]
      by_cases same : first = entry
      · subst same
        have rest_eq : rest.map f = rest.map g := List.map_congr_left fun other member =>
          others other fun again => distinct.1 (again ▸ member)
        rw [rest_eq]
        omega
      · have fewer := ih distinct.2
        rw [others first same]
        omega

/-- Notes that are taken by their labels, each once, have no more in them than all notes. -/
theorem sum_contentOf_le (p : NodeKind → Bool) {labels : List String} (distinct : labels.Nodup)
    (notes : List Note) :
    (labels.map fun label => countAllWhere p (contentOf notes label)).sum ≤ countNotes p notes := by
  induction notes with
  | nil =>
      have nothing : (fun label => countAllWhere p (contentOf [] label)) = fun _ => 0 := rfl
      rw [nothing]
      simp
  | cons note rest ih =>
      have others : ∀ label, label ≠ note.label →
          countAllWhere p (contentOf (note :: rest) label) =
            countAllWhere p (contentOf rest label) := fun label different => by
        rw [contentOf_cons_of_ne different]
      have one := sum_map_le_of_nodup distinct note.label others
      rw [contentOf_cons_self] at one
      rw [countNotes_cons]
      omega

/-- The label of an item. -/
def itemLabel? (item : Node) : Option String :=
  match item.kind with
  | .footnoteItem label _ => some label
  | _ => none

/-- Items have no more in them than the notes of their labels. -/
theorem count_items_le (apart : IsApart p) {notes : Notes} (long : notes.short = [])
    (fuel n : Nat) (numbering : Numbering) :
    countAllWhere p (notes.items fuel n numbering).1 ≤
      (((notes.items fuel n numbering).1.filterMap itemLabel?).map fun label =>
        countAllWhere p (contentOf notes.listed label)).sum := by
  induction fuel generalizing n numbering with
  | zero => exact Nat.le_refl _
  | succ fuel ih =>
      unfold Notes.items
      split
      · exact Nat.le_refl _
      · next label found =>
          have content := count_resolveAll_le (countWhere_reference apart long)
            (contentOf notes.listed label) numbering
          have later := ih (n + 1) (resolveAll notes.reference (contentOf notes.listed label) numbering).2
          dsimp only
          rw [List.filterMap_cons_some (show itemLabel? ⟨.footnoteItem label _, _⟩ = some label from rfl),
            countAllWhere_cons, apart.countWhere_mk _ rfl, List.map_cons, List.sum_cons]
          exact Nat.add_le_add content later

/-- The labels of items are those that were numbered, in order. -/
theorem filterMap_itemLabel? {items : List Node} {labels : List String}
    (listed : items.map (·.kind) = itemKinds labels) : items.filterMap itemLabel? = labels := by
  have own : items.filterMap itemLabel? = (items.map (·.kind)).filterMap
      fun kind => itemLabel? (leaf kind) := by
    rw [List.filterMap_map]
    rfl
  have each : (fun kind => itemLabel? (leaf kind)) ∘
      (fun entry : String × Nat => NodeKind.footnoteItem entry.1 (UInt64.ofNat (entry.2 + 1))) =
      some ∘ Prod.fst := rfl
  rw [own, listed, itemKinds, List.mapIdx_eq_zipIdx_map, List.filterMap_map, each,
    List.filterMap_eq_map, List.zipIdx_map_fst]

/-! ### Documents -/

/-- Without short notes every note is listed. -/
theorem short_ofList {options : FootnoteOptions} (long : options.inlineShort = false)
    (notes : List Note) : (Notes.ofList options notes).short = [] ∧
      (Notes.ofList options notes).listed = notes := by
  have none : ∀ note : Note, isShort options note = false := fun note => by
    rw [isShort, long]
    rfl
  simp [Notes.ofList, none]

/-- Where no notes are shown in place, numbering the footnotes of a document multiplies nothing else. -/
theorem count_apply_le (apart : IsApart p) {options : FootnoteOptions}
    (long : options.inlineShort = false) {document : Node} (root : document.kind = .document)
    (fresh : document.Every fun kind => kind.isListing = false ∧ kind.crossReference? = none) :
    (apply options document).1.countWhere p ≤ document.countWhere p := by
  obtain ⟨tree, notes⟩ := collect_unnumbered options fresh
  obtain ⟨short, all⟩ := short_ofList long (collect options document).2
  have numbered := numbered_of_unnumbered (unnumbered_ofList options notes)
    ((collect_kind options document).trans root) tree
    ((firsts [] (notesAll document.children)).2.map .duplicateFootnote)
  have collected := count_collect_le apart options root
  let start : Numbering := ⟨[], (firsts [] (notesAll document.children)).2.map .duplicateFootnote⟩
  let linked := Notes.ofList options (collect options document).2
  let resolved := resolve linked.reference (collect options document).1 start
  let items := linked.items linked.listed.length 0 resolved.2
  have text := count_resolveAll_le (countWhere_reference apart short)
    (collect options document).1.children start
  have listed := count_items_le apart short linked.listed.length 0 resolved.2
  rw [filterMap_itemLabel? numbered.listed] at listed
  have contents := sum_contentOf_le p numbered.distinct linked.listed
  -- The list itself is not counted, so it adds no more than its items.
  have list : countAllWhere p (if items.1.isEmpty then [] else [⟨.footnoteList, items.1⟩]) ≤
      countAllWhere p items.1 := by
    split
    · exact Nat.zero_le _
    · rw [countAllWhere_cons, apart.countWhere_mk items.1 rfl]
      exact Nat.le_refl _
  have kind : (collect options document).1.kind = .document := (collect_kind options document).trans root
  have tree : (apply options document).1 = ⟨.document, resolved.1.children ++
      if items.1.isEmpty then [] else [⟨.footnoteList, items.1⟩]⟩ := by
    rw [← kind, ← resolve_kind linked.reference (collect options document).1 start]
    rfl
  have body : countAllWhere p resolved.1.children ≤ (collect options document).1.countWhere p := by
    rw [apart.countWhere_eq (by rw [kind]; rfl), show resolved = _ from resolve_eq _ _ _]
    exact text
  rw [tree, apart.countWhere_mk _ rfl, countAllWhere_append]
  calc countAllWhere p resolved.1.children + _
      ≤ (collect options document).1.countWhere p + countNotes p linked.listed :=
        Nat.add_le_add body (Nat.le_trans list (Nat.le_trans listed contents))
    _ = (collect options document).1.countWhere p + countNotes p (collect options document).2 := by
        rw [all]
    _ ≤ document.countWhere p := collected

end Footnote

end DocPress
