import DocPress.Proofs.Footnote.Rename

/-!
References without a note. Some references to a label are marked, which gives them a label that nothing
else has, so that what has this label later on is what became of them. Every place where a marked
reference ends up is a broken reference with a warning. References to the label itself fare the same,
unless a note written in place gets the label.
-/

namespace DocPress

/-- The label of the footnote that a kind refers to, defines or shows. -/
def NodeKind.noteLabel? : NodeKind → Option String
  | .footnoteReference label | .footnoteDefinition label | .footnoteCrossReference label _
  | .brokenReference label | .inlineNote label | .footnoteItem label _ => some label
  | _ => none

namespace Footnote

open Node

/-- Whether a kind with the label `mark` is a reference. -/
def IsMarkedReference (mark : String) (kind : NodeKind) : Prop :=
  kind.noteLabel? = some mark → kind = .footnoteReference mark

/-- Whether a kind with the label `mark` is a broken reference. -/
def IsBrokenIfMarked (mark : String) (kind : NodeKind) : Prop :=
  kind.noteLabel? = some mark → kind = .brokenReference mark

variable {mark : String}

/-! ### Labels of definitions -/

mutual

/-- The label of a note stands at a definition in the tree. -/
theorem mem_kinds_of_mem_notes {label : String} :
    ∀ node : Node, label ∈ (notes node).map (·.label) → .footnoteDefinition label ∈ node.kinds
  | ⟨kind, children⟩, member => by
      rw [kinds_mk]
      cases definition : kind.isDefinition with
      | false =>
          rw [notes_of_not_definition children definition] at member
          exact List.mem_cons_of_mem _ (mem_kinds_of_mem_notesAll children member)
      | true =>
          obtain ⟨_, rfl⟩ := NodeKind.exists_of_isDefinition definition
          rw [notes, List.map_append, List.mem_append] at member
          rcases member with inside | own
          · exact List.mem_cons_of_mem _ (mem_kinds_of_mem_notesAll children inside)
          · rw [List.map_singleton, List.mem_singleton] at own
            rw [own]
            exact List.mem_cons_self

theorem mem_kinds_of_mem_notesAll {label : String} :
    ∀ nodes : List Node, label ∈ (notesAll nodes).map (·.label) →
      .footnoteDefinition label ∈ kindsAll nodes
  | [], member => by cases member
  | node :: rest, member => by
      rw [notesAll, List.map_append, List.mem_append] at member
      rw [kindsAll_cons, List.mem_append]
      rcases member with here | later
      · exact .inl (mem_kinds_of_mem_notes node here)
      · exact .inr (mem_kinds_of_mem_notesAll rest later)

end

/-- A label that no definition has is that of a note only if the note was written in place. -/
theorem generated_of_mem_noteLabels {options : FootnoteOptions} {document : Node} {label : String}
    (undefined : .footnoteDefinition label ∉ document.kinds)
    (member : label ∈ noteLabels options document) :
    options.inlineNotes = true ∧ ∃ n, label = generatedLabel n := by
  rcases mem_noteLabels member with defined | generated
  · obtain ⟨kind, children⟩ := document
    have inside := mem_kinds_of_mem_notesAll children defined
    rw [kinds_mk] at undefined
    exact absurd (List.mem_cons_of_mem _ inside) undefined
  · exact generated

/-! ### What becomes of marked references -/

/-- What became of the marked references of some nodes: they are broken references now, with a warning
for each of them, and have no number. -/
structure Tallied (mark : String) (before : Numbering) (result : List Node × Numbering) :
    Prop where
  broken : EveryAll (IsBrokenIfMarked mark) result.1
  counted : result.2.warnings.count (.undefinedFootnote mark) =
    before.warnings.count (.undefinedFootnote mark) +
      (kindsAll result.1).count (.brokenReference mark)
  unnumbered : mark ∉ before.order → mark ∉ result.2.order

namespace Tallied

variable {before middle after : Numbering} {nodes : List Node}

theorem nil (mark : String) (numbering : Numbering) : Tallied mark numbering ([], numbering) where
  broken := everyAll_nil
  counted := by rw [kindsAll_nil, List.count_nil, Nat.add_zero]
  unnumbered := id

theorem append {more : List Node} (head : Tallied mark before (nodes, middle))
    (tail : Tallied mark middle (more, after)) : Tallied mark before (nodes ++ more, after) where
  broken := everyAll_append.2 ⟨head.broken, tail.broken⟩
  counted := by
    rw [tail.counted, head.counted, kindsAll_append, List.count_append, Nat.add_assoc]
  unnumbered absent := tail.unnumbered (head.unnumbered absent)

theorem cons {node : Node} (head : Tallied mark before ([node], middle))
    (tail : Tallied mark middle (nodes, after)) : Tallied mark before (node :: nodes, after) :=
  head.append tail

/-- A node of another label around nodes. -/
theorem wrap {kind : NodeKind} (below : Tallied mark before (nodes, after))
    (other : kind.noteLabel? ≠ some mark) : Tallied mark before ([⟨kind, nodes⟩], after) where
  broken := by
    rw [everyAll_cons, every_mk]
    exact ⟨⟨fun marked => absurd marked other, below.broken⟩, everyAll_nil⟩
  counted := by
    have different : kind ≠ .brokenReference mark := by
      rintro rfl
      exact other rfl
    have same := below.counted
    simpa [List.count_cons, different] using same
  unnumbered := below.unnumbered

/-- The list of items, which is left out if there are none. -/
theorem listing (items : Tallied mark before (nodes, after)) :
    Tallied mark before (if nodes.isEmpty then [] else [⟨.footnoteList, nodes⟩], after) := by
  split
  · next empty => rwa [List.isEmpty_iff.1 empty] at items
  · exact items.wrap (Option.some_ne_none mark).symm

/-- A broken reference of another label, whatever is warned of it. -/
theorem broken_of_ne {label : String} (other : label ≠ mark) {warning : Warning}
    (silent : warning ≠ .undefinedFootnote mark) (numbering : Numbering) :
    Tallied mark numbering ([leaf (.brokenReference label)], numbering.warn warning) := by
  have warned : Tallied mark numbering ([], numbering.warn warning) :=
    { broken := everyAll_nil
      counted := by simp [Numbering.warn, silent]
      unnumbered := id }
  refine warned.wrap fun same => other ?_
  exact Option.some.inj same

/-- A marked reference that is broken and warned of. -/
theorem broken_self (mark : String) (numbering : Numbering) :
    Tallied mark numbering
      ([leaf (.brokenReference mark)], numbering.warn (.undefinedFootnote mark)) where
  broken := by
    rw [leaf, everyAll_cons, every_mk]
    exact ⟨⟨fun _ => rfl, everyAll_nil⟩, everyAll_nil⟩
  counted := by simp [Numbering.warn, leaf]
  unnumbered := id

end Tallied

/-- A way to resolve references that keeps the tally. -/
def Tallies (mark : String) (reference : String → Numbering → Node × Numbering) : Prop :=
  ∀ label numbering,
    Tallied mark numbering ([(reference label numbering).1], (reference label numbering).2)

/-- A kind that is no reference does not have the mark. -/
theorem noteLabel?_ne_of_isMarkedReference {kind : NodeKind} (marked : IsMarkedReference mark kind)
    (other : kind.isReference = false) : kind.noteLabel? ≠ some mark := by
  intro own
  rw [marked own] at other
  cases other

/-- Resolving nodes is tallied, if what each reference becomes is. -/
theorem resolveAll_tallied {reference : String → Numbering → Node × Numbering}
    (tallies : Tallies mark reference) (nodes : List Node) (numbering : Numbering)
    (marked : EveryAll (IsMarkedReference mark) nodes) :
    Tallied mark numbering (resolveAll reference nodes numbering) := by
  induction nodes using references_induction generalizing numbering with
  | nil => exact .nil mark numbering
  | reference label children rest behind =>
      obtain ⟨-, tail⟩ := everyAll_cons.1 marked
      rw [resolveAll_reference]
      exact (tallies _ numbering).cons (behind _ tail)
  | other kind children rest refers inner behind =>
      obtain ⟨head, tail⟩ := everyAll_cons.1 marked
      obtain ⟨here, below⟩ := every_mk.1 head
      rw [resolveAll_other refers]
      have other := noteLabel?_ne_of_isMarkedReference here refers
      exact ((inner numbering below).wrap other).cons (behind _ tail)

/-- Notes that marked references do not lead to. -/
structure Notes.Misses (mark : String) (notes : Notes) : Prop where
  listed : mark ∉ notes.listed.map (·.label)
  short : mark ∉ notes.short.map (·.label)
  listedContent : EveryNote (IsMarkedReference mark) notes.listed
  shortContent : EveryNote (IsMarkedReference mark) notes.short

/-- A reference to a label without a note is tallied. -/
theorem Notes.reference_tallies {notes : Notes} (misses : notes.Misses mark) :
    Tallies mark notes.reference := by
  refine Notes.reference_induction (motive := fun _ _ numbering made =>
    Tallied mark numbering ([made.1], made.2)) ?circle ?short ?listed ?missing
  case circle =>
    intro shown label numbering _ short
    have other : label ≠ mark := fun same => misses.short (same ▸ short)
    have cycle : Warning.footnoteCycle label ≠ .undefinedFootnote mark := by
      intro same
      cases same
    exact .broken_of_ne other cycle numbering
  case short =>
    intro shown note reference numbering member _ _ tallies
    have inner := resolveAll_tallied tallies note.content numbering (misses.shortContent note member)
    have other : note.label ≠ mark := fun same =>
      misses.short (same ▸ List.mem_map_of_mem member)
    exact inner.wrap fun same => other (Option.some.inj same)
  case listed =>
    intro shown label numbering _ _ known
    have other : label ≠ mark := fun same => misses.listed (same ▸ known)
    obtain ⟨order, -⟩ := number_spec label numbering
    have numbered : Tallied mark numbering ([], (numbering.number label).2) :=
      { broken := everyAll_nil
        counted := by
          rw [number_warnings, kindsAll_nil, List.count_nil, Nat.add_zero]
        unnumbered := by
          intro absent
          rw [order, mem_enter]
          exact fun entered => entered.elim absent fun same => other same.symm }
    exact numbered.wrap fun same => other (Option.some.inj same)
  case missing =>
    intro shown label numbering _ _ _
    by_cases own : label = mark
    · subst own
      exact .broken_self label numbering
    · have silent : Warning.undefinedFootnote label ≠ .undefinedFootnote mark := fun same =>
        own (Warning.undefinedFootnote.inj same)
      exact .broken_of_ne own silent numbering

/-- The items are tallied. -/
theorem Notes.items_tallied {notes : Notes} (misses : notes.Misses mark) (fuel n : Nat)
    (numbering : Numbering) (absent : mark ∉ numbering.order) :
    Tallied mark numbering (notes.items fuel n numbering) := by
  induction fuel generalizing n numbering with
  | zero => exact .nil mark numbering
  | succ fuel ih =>
      unfold items
      split
      · exact .nil mark numbering
      · next label next =>
          have inner := resolveAll_tallied (reference_tallies misses) _ numbering
            (EveryNote.content? misses.listedContent label)
          have other : label ≠ mark := by
            rintro rfl
            exact absent (List.mem_of_getElem? next)
          have unmarked : (NodeKind.footnoteItem label (UInt64.ofNat (n + 1))).noteLabel? ≠ some mark :=
            fun same => other (Option.some.inj same)
          exact (inner.wrap unmarked).cons (ih (n + 1) _ (inner.unnumbered absent))

/-- Notes none of which has a label miss it. -/
theorem Notes.misses_ofList (options : FootnoteOptions) {notes : List Note}
    (absent : mark ∉ notes.map (·.label)) (contents : EveryNote (IsMarkedReference mark) notes) :
    (ofList options notes).Misses mark where
  listed member := absent (labels_listed_ofList options notes member)
  short member := absent (labels_short_ofList options notes member)
  listedContent := (everyNote_ofList options contents).1
  shortContent := (everyNote_ofList options contents).2

/-- Resolving a document and putting the list of its notes at its end. -/
theorem tallied_document {notes : Notes} (misses : notes.Misses mark) {tree : Node}
    (root : tree.kind = .document) (marked : EveryAll (IsMarkedReference mark) tree.children)
    (warnings : List Warning) :
    let resolved := resolve notes.reference tree ⟨[], warnings⟩
    let listed := notes.items notes.listed.length 0 resolved.2
    Tallied mark ⟨[], warnings⟩ ([⟨resolved.1.kind,
      resolved.1.children ++ if listed.1.isEmpty then [] else [⟨.footnoteList, listed.1⟩]⟩],
      listed.2) := by
  intro resolved listed
  have text : Tallied mark ⟨[], warnings⟩ (resolved.1.children, resolved.2) := by
    have below := resolveAll_tallied (Notes.reference_tallies misses) tree.children ⟨[], warnings⟩ marked
    simpa only [resolved, resolve_eq] using below
  have items : Tallied mark resolved.2 listed :=
    Notes.items_tallied misses _ 0 _ (text.unnumbered List.not_mem_nil)
  have kind : resolved.1.kind = .document := by
    rw [resolve_kind, root]
  rw [kind]
  exact (text.append items.listing).wrap (Option.some_ne_none mark).symm

/-- In a document where only references have the label `mark`, and no note gets it, they all become
broken references that are warned of. -/
theorem apply_tallied (options : FootnoteOptions) {document : Node}
    (root : document.kind = .document) (marked : document.Every (IsMarkedReference mark))
    (absent : mark ∉ noteLabels options document) :
    (apply options document).1.Every (IsBrokenIfMarked mark) ∧
      (apply options document).1.kinds.count (.brokenReference mark) =
        (apply options document).2.count (.undefinedFootnote mark) := by
  have allows : AllowsLifting fun kind => IsMarkedReference mark kind ∧ kind.isDefinition = false :=
    { text := fun value => ⟨fun same => absurd same.symm (Option.some_ne_none mark), rfl⟩
      paragraph := ⟨fun same => absurd same.symm (Option.some_ne_none mark), rfl⟩
      reference := fun label => ⟨fun same => congrArg _ (Option.some.inj same), rfl⟩ }
  obtain ⟨tree, contents⟩ := collect_every options allows marked
  have misses : (Notes.ofList options (collect options document).2).Misses mark :=
    Notes.misses_ofList options absent fun note member => (contents note member).mono fun _ => And.left
  have whole := tallied_document misses ((collect_kind options document).trans root)
    (tree.mono fun _ => And.left) ((firsts [] (notesAll document.children)).2.map .duplicateFootnote)
  rw [apply_eq]
  constructor
  · exact (everyAll_cons.1 whole.broken).1
  · have counted := whole.counted
    have none : ((firsts [] (notesAll document.children)).2.map Warning.duplicateFootnote).count
        (.undefinedFootnote mark) = 0 := by
      rw [List.count_eq_zero, List.mem_map]
      rintro ⟨label, -, impossible⟩
      cases impossible
    rw [kindsAll_cons, kindsAll_nil, List.append_nil, none, Nat.zero_add] at counted
    exact counted.symm

/-! ### Warnings -/

/-- Whether the warnings of undefined references that were added are about labels without a note. -/
def WarnsOfNone (labels : List String) (before after : Numbering) : Prop :=
  ∀ label, .undefinedFootnote label ∈ after.warnings →
    .undefinedFootnote label ∈ before.warnings ∨ label ∉ labels

namespace WarnsOfNone

variable {labels : List String} {before middle after : Numbering}

theorem refl (labels : List String) (numbering : Numbering) :
    WarnsOfNone labels numbering numbering :=
  fun _ => .inl

theorem trans (first : WarnsOfNone labels before middle) (second : WarnsOfNone labels middle after) :
    WarnsOfNone labels before after := by
  intro label warned
  rcases second label warned with early | none
  · exact first label early
  · exact .inr none

/-- A warning of another label warns of none of them. -/
theorem warn {warning : Warning} (allowed : ∀ label ∈ labels, warning ≠ .undefinedFootnote label)
    (numbering : Numbering) : WarnsOfNone labels numbering (numbering.warn warning) := by
  intro label warned
  rcases List.mem_append.1 warned with early | now
  · exact .inl early
  · rw [List.mem_singleton] at now
    exact .inr fun member => allowed label member now.symm

/-- The warning of a circle is no warning of an undefined note. -/
theorem cycle (labels : List String) (label : String) (numbering : Numbering) :
    WarnsOfNone labels numbering (numbering.warn (.footnoteCycle label)) := by
  apply warn
  intro other member impossible
  cases impossible

end WarnsOfNone

mutual

/-- Resolving a tree warns of none of the labels, if no reference does. -/
theorem warnsOfNone_resolve {labels : List String}
    {reference : String → Numbering → Node × Numbering}
    (warns : ∀ label numbering, WarnsOfNone labels numbering (reference label numbering).2) :
    ∀ (node : Node) (numbering : Numbering),
      WarnsOfNone labels numbering (resolve reference node numbering).2
  | ⟨_, children⟩, numbering => warnsOfNone_resolveAll warns children numbering

theorem warnsOfNone_resolveAll {labels : List String}
    {reference : String → Numbering → Node × Numbering}
    (warns : ∀ label numbering, WarnsOfNone labels numbering (reference label numbering).2) :
    ∀ (nodes : List Node) (numbering : Numbering),
      WarnsOfNone labels numbering (resolveAll reference nodes numbering).2
  | [], numbering => .refl labels numbering
  | node :: rest, numbering => by
      rw [resolveAll]
      refine .trans ?_ (warnsOfNone_resolveAll warns rest _)
      split
      · exact warns _ numbering
      · exact warnsOfNone_resolve warns node numbering

end

/-- The labels of the notes, listed or shown in place. -/
def Notes.allLabels (notes : Notes) : List String :=
  notes.listed.map (·.label) ++ notes.short.map (·.label)

/-- A reference to a label with a note gives no warning that it is undefined. -/
theorem Notes.warnsOfNone_reference (notes : Notes) : ∀ label numbering,
    WarnsOfNone notes.allLabels numbering (notes.reference label numbering).2 := by
  refine Notes.reference_induction (motive := fun _ _ numbering made =>
    WarnsOfNone notes.allLabels numbering made.2) ?circle ?short ?listed ?missing
  case circle => exact fun _ label numbering _ _ => .cycle _ label numbering
  case short =>
    exact fun _ note _ numbering _ _ _ warns => warnsOfNone_resolveAll warns note.content numbering
  case listed =>
    intro shown label numbering _ _ _ other warned
    left
    rwa [← number_warnings label numbering]
  case missing =>
    intro shown label numbering _ long unlisted
    refine .warn ?_ numbering
    rintro _ member ⟨⟩
    exact (List.mem_append.1 member).elim unlisted long

/-- The items give no warning that a label with a note is undefined. -/
theorem Notes.warnsOfNone_items (notes : Notes) (fuel n : Nat) (numbering : Numbering) :
    WarnsOfNone notes.allLabels numbering (notes.items fuel n numbering).2 := by
  induction fuel generalizing n numbering with
  | zero => exact .refl _ numbering
  | succ fuel ih =>
      unfold items
      split
      · exact .refl _ numbering
      · exact .trans (warnsOfNone_resolveAll notes.warnsOfNone_reference _ numbering) (ih _ _)

/-- A note is listed or shown in place. -/
theorem mem_allLabels_ofList (options : FootnoteOptions) {notes : List Note} {label : String}
    (member : label ∈ notes.map (·.label)) : label ∈ (Notes.ofList options notes).allLabels := by
  obtain ⟨note, known, rfl⟩ := List.mem_map.1 member
  rw [Notes.allLabels, List.mem_append, Notes.ofList, List.map_map]
  cases short : isShort options note with
  | false => exact .inl (List.mem_map_of_mem (List.mem_filter.2 ⟨known, by rw [short]; rfl⟩))
  | true => exact .inr (List.mem_map_of_mem (List.mem_filter.2 ⟨known, short⟩))

/-- A reference that is warned of as undefined has no note. -/
theorem not_mem_noteLabels_of_warned {options : FootnoteOptions} {document : Node} {label : String}
    (warned : .undefinedFootnote label ∈ (apply options document).2) :
    label ∉ noteLabels options document := by
  intro member
  let notes := Notes.ofList options (collect options document).2
  have text : WarnsOfNone notes.allLabels _ _ :=
    warnsOfNone_resolve notes.warnsOfNone_reference (collect options document).1
      ⟨[], (firsts [] (notesAll document.children)).2.map .duplicateFootnote⟩
  have whole := text.trans (notes.warnsOfNone_items notes.listed.length 0 _)
  rcases whole label warned with early | absent
  · obtain ⟨other, -, impossible⟩ := List.mem_map.1 early
    cases impossible
  · exact absent (mem_allLabels_ofList options member)

/-! ### Marking -/

/-- A label that was made for a note begins with the letter i. -/
theorem generatedLabel_ne {label : String} (other : label.toList.head? ≠ some 'i') {n : Nat} :
    generatedLabel n ≠ label := by
  rintro rfl
  apply other
  rw [generatedLabel, String.toList_append]
  rfl

/-- A mark for references to a label, which notes written in place do not get. -/
structure Marking where
  label : String
  mark : String
  fresh : ∀ n, generatedLabel n ≠ mark

namespace Marking

/-- The kinds with the label in place of the mark. -/
def erasedKind (m : Marking) : NodeKind → NodeKind
  | .footnoteReference name => .footnoteReference (if name = m.mark then m.label else name)
  | .brokenReference name => .brokenReference (if name = m.mark then m.label else name)
  | kind => kind

/-- Erasing a mark, which references and broken references may have. -/
def erasing (m : Marking) : Renaming where
  kind := m.erasedKind
  label name := if name = m.mark then m.label else name
  kind_noteKind own := by
    rename_i old
    cases old <;> first | rfl | cases own
  isNoteKind_kind old := by cases old <;> rfl
  kind_reference _ := rfl
  isReference_kind old := by cases old <;> rfl
  kind_broken _ := rfl
  isCode_kind old := by cases old <;> rfl
  ownText_kind old children := by cases old <;> rfl
  label_generated n := if_neg (m.fresh n)

/-- Erasing the mark makes no document and removes none. -/
theorem erasing_eq_document_iff (m : Marking) (tree : Node) :
    (m.erasing.node tree).kind = .document ↔ tree.kind = .document := by
  obtain ⟨kind, children⟩ := tree
  rw [Renaming.kind_node]
  cases kind <;> simp [erasing, erasedKind]

theorem label_erasing (m : Marking) (name : String) :
    m.erasing.label name = if name = m.mark then m.label else name := rfl

/-- The labels of notes do not change when a mark is erased that is none of them, if the label is none
of them either. -/
theorem keeps (m : Marking) {labels : List String} (mark : m.mark ∉ labels)
    (label : m.label ∉ labels) : m.erasing.Keeps labels := by
  intro name
  rw [label_erasing]
  by_cases marked : name = m.mark
  · rw [if_pos marked]
    exact .inr ⟨marked ▸ mark, label⟩
  · rw [if_neg marked]
    exact .inl rfl

/-- What is to become of marked references. `marked` is what is made of the document with the mark, and
`result` is what is made of the document with the label. -/
structure Breaks (m : Marking) (marked result : Node × List Warning) : Prop where
  /-- The references fare as the marked ones. -/
  tree : m.erasing.node marked.1 = result.1
  warnings : marked.2.map m.erasing.warning = result.2
  /-- Whatever has the mark now is a broken reference. -/
  broken : marked.1.Every (IsBrokenIfMarked m.mark)
  /-- Each of them is warned of once. -/
  counted : marked.1.kinds.count (.brokenReference m.mark) =
    marked.2.count (.undefinedFootnote m.mark)

end Marking

theorem Renaming.noteLabels_node (r : Renaming) (options : FootnoteOptions) (document : Node) :
    noteLabels options (r.node document) = noteLabels options document := by
  rw [noteLabels, r.collect_node, r.map_label_note, noteLabels]

/-- A mark that only references have is the label of no note. -/
theorem Marking.not_mem_noteLabels (m : Marking) (options : FootnoteOptions) {marked : Node}
    (references : marked.Every (IsMarkedReference m.mark)) :
    m.mark ∉ noteLabels options marked := by
  intro member
  have undefined : .footnoteDefinition m.mark ∉ marked.kinds := fun definition =>
    NodeKind.noConfusion (references _ definition rfl)
  obtain ⟨-, n, generated⟩ := generated_of_mem_noteLabels undefined member
  exact m.fresh n generated.symm

/-- References without a definition. When some of the references to a label that no definition has are
marked, then all places where they end up are broken references with a warning each, unless the label
is that of a note written in place; then those that are left are not broken. -/
theorem stage_breaks_undefined (highlighter : Syntax.Highlighter) (options : FootnoteOptions)
    (m : Marking) {document marked : Node} (root : document.kind = .document)
    (undefined : .footnoteDefinition m.label ∉ document.kinds)
    (erased : m.erasing.node marked = document)
    (references : marked.Every (IsMarkedReference m.mark)) :
    ∃ tree warnings, (Stage.footnotes options).apply highlighter document = .ok (tree, warnings) ∧
      (m.label ∉ noteLabels options document →
        m.Breaks (apply options marked) (tree, warnings)) ∧
      (m.label ∈ noteLabels options document →
        (options.inlineNotes = true ∧ ∃ n, m.label = generatedLabel n) ∧
          (.brokenReference m.mark ∈ (apply options marked).1.kinds →
            ¬m.Breaks (apply options marked) (tree, warnings))) := by
  refine ⟨(apply options document).1, (apply options document).2, by simp [Stage.apply, root], ?_, ?_⟩
  · intro unused
    have mark := m.not_mem_noteLabels options references
    have label : m.label ∉ noteLabels options marked := by
      rwa [← m.erasing.noteLabels_node, erased]
    have same := m.erasing.apply_node options marked (m.keeps mark label)
    rw [erased] at same
    have markedRoot : marked.kind = .document := by
      rw [← m.erasing_eq_document_iff, erased, root]
    obtain ⟨broken, counted⟩ := apply_tallied options markedRoot references mark
    exact
      { tree := (congrArg Prod.fst same).symm
        warnings := (congrArg Prod.snd same).symm
        broken := broken
        counted := counted }
  · intro used
    refine ⟨generated_of_mem_noteLabels undefined used, fun left breaks => ?_⟩
    -- A reference that is left would be warned of, although its label is that of a note.
    have warned : .undefinedFootnote m.mark ∈ (apply options marked).2 := by
      rw [← List.count_pos_iff, ← breaks.counted]
      exact List.count_pos_iff.2 left
    have erasedWarning : .undefinedFootnote m.label ∈ (apply options document).2 := by
      rw [← breaks.warnings, List.mem_map]
      exact ⟨_, warned, by rw [Renaming.warning, m.label_erasing, if_pos rfl]⟩
    exact not_mem_noteLabels_of_warned erasedWarning used

/-- A reference to a label that nothing defines, beside a note written in place and a broken reference to
the same label: the reference becomes broken as well, and it is warned of. -/
theorem stage_breaks_undefined_nowhere :
    let m : Marking := ⟨"nowhere", "?", fun _ => generatedLabel_ne (by decide)⟩
    let page (label : String) : Node := .document [⟨.paragraph, [.text "One^[x]",
      .leaf (.footnoteReference label), .leaf (.brokenReference "nowhere")]⟩]
    (page "nowhere").kind = .document ∧ .footnoteDefinition "nowhere" ∉ (page "nowhere").kinds ∧
      m.erasing.node (page "?") = page "nowhere" ∧ (page "?").Every (IsMarkedReference "?") ∧
      "nowhere" ∉ noteLabels {} (page "nowhere") ∧
      ∃ tree warnings,
        (Stage.footnotes {}).apply Syntax.standard (page "nowhere") = .ok (tree, warnings) ∧
        m.Breaks (apply {} (page "?")) (tree, warnings) := by
  intro m page
  have undefined : .footnoteDefinition "nowhere" ∉ (page "nowhere").kinds := by decide
  have erased : m.erasing.node (page "?") = page "nowhere" := by decide
  have references : (page "?").Every (IsMarkedReference "?") := by
    simp [page, Node.document, Node.text, leaf, IsMarkedReference, NodeKind.noteLabel?]
  have unused : "nowhere" ∉ noteLabels {} (page "nowhere") := by
    intro used
    obtain ⟨-, n, generated⟩ := generated_of_mem_noteLabels undefined used
    exact generatedLabel_ne (by decide) generated.symm
  obtain ⟨tree, warnings, done, breaks, -⟩ :=
    stage_breaks_undefined Syntax.standard {} m rfl undefined erased references
  exact ⟨rfl, undefined, erased, references, unused, tree, warnings, done, breaks unused⟩

/-- A reference without a definition that becomes a cross reference to a note written in place. -/
theorem stage_links_undefined :
    let page : Node := .document [⟨.paragraph, [.text "One^[x]. Ref",
      .leaf (.footnoteReference "inline-1"), .text "."]⟩]
    .footnoteDefinition "inline-1" ∉ page.kinds ∧
      (Stage.footnotes {}).apply Syntax.standard page = .ok (.document
        [⟨.paragraph, [.text "One", .leaf (.footnoteCrossReference "inline-1" 1), .text ". Ref",
          .leaf (.footnoteCrossReference "inline-1" 1), .text "."]⟩,
        ⟨.footnoteList, [⟨.footnoteItem "inline-1" 1, [⟨.paragraph, [.text "x"]⟩]⟩]⟩], []) := by
  decide +kernel

end Footnote

end DocPress
