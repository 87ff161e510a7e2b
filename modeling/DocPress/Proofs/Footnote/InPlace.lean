import DocPress.Proofs.Footnote.Spent

/-!
Notes that are shown in place. Showing them comes to an end even where they refer to each other in
circles: a note is not shown again inside itself, but a broken reference stands there, with a warning.
Where a note is shown it has no number, so that neither a cross reference nor an item has its label.
-/

namespace DocPress

/-- Whether nodes of the kind only come of references and notes: notes shown in place, cross references
and items. -/
def NodeKind.isNoteOutcome : NodeKind → Bool
  | .inlineNote _ | .footnoteCrossReference .. | .footnoteItem .. => true
  | _ => false

namespace Footnote

open Node

/-! ### What references become -/

/-- What nodes become where the notes `around` are being shown, together with the numbers given and the
warnings. There is no limit to how deep notes are shown inside each other. -/
inductive Shown (notes : Notes) :
    List String → Numbering → List Node → Numbering → List Node → Prop where
  | nil {around : List String} {numbering : Numbering} : Shown notes around numbering [] numbering []
  /-- Below other nodes references are resolved. -/
  | node {around : List String} {before middle after : Numbering} {kind : NodeKind}
      {children children' rest rest' : List Node} (other : kind.isReference = false)
      (below : Shown notes around before children middle children')
      (later : Shown notes around middle rest after rest') :
      Shown notes around before (⟨kind, children⟩ :: rest) after (⟨kind, children'⟩ :: rest')
  /-- Inside a note a reference to it is broken. -/
  | circle {around : List String} {before after : Numbering} {label : String}
      {children rest rest' : List Node} (inside : label ∈ around)
      (later : Shown notes around (before.warn (.footnoteCycle label)) rest after rest') :
      Shown notes around before (⟨.footnoteReference label, children⟩ :: rest) after
        (.leaf (.brokenReference label) :: rest')
  /-- Elsewhere a short note is shown. -/
  | short {around : List String} {before middle after : Numbering} {label : String}
      {children content content' rest rest' : List Node} (outside : label ∉ around)
      (found : content? label notes.short = some content)
      (inner : Shown notes (label :: around) before content middle content')
      (later : Shown notes around middle rest after rest') :
      Shown notes around before (⟨.footnoteReference label, children⟩ :: rest) after
        (⟨.inlineNote label, content'⟩ :: rest')
  /-- A note that is listed is referred to by its number. -/
  | listed {around : List String} {before after : Numbering} {label : String}
      {children rest rest' : List Node} (outside : label ∉ around)
      (long : label ∉ notes.short.map (·.label)) (known : label ∈ notes.labels)
      (later : Shown notes around (before.number label).2 rest after rest') :
      Shown notes around before (⟨.footnoteReference label, children⟩ :: rest) after
        (.leaf (.footnoteCrossReference label (UInt64.ofNat (before.number label).1)) :: rest')
  /-- Without a note a reference is broken. -/
  | missing {around : List String} {before after : Numbering} {label : String}
      {children rest rest' : List Node} (outside : label ∉ around)
      (long : label ∉ notes.short.map (·.label)) (unknown : label ∉ notes.labels)
      (later : Shown notes around (before.warn (.undefinedFootnote label)) rest after rest') :
      Shown notes around before (⟨.footnoteReference label, children⟩ :: rest) after
        (.leaf (.brokenReference label) :: rest')

/-- The items for the labels from the `n`-th on, until there are no more labels. Items may give numbers
to further labels. -/
inductive Itemized (notes : Notes) : Nat → Numbering → Numbering → List Node → Prop where
  | done {n : Nat} {numbering : Numbering} (none : numbering.order[n]? = none) :
      Itemized notes n numbering numbering []
  | item {n : Nat} {before middle after : Numbering} {label : String} {content items : List Node}
      (next : before.order[n]? = some label)
      (shown : Shown notes [] before ((content? label notes.listed).getD []) middle content)
      (later : Itemized notes (n + 1) middle after items) :
      Itemized notes n before after (⟨.footnoteItem label (UInt64.ofNat (n + 1)), content⟩ :: items)

/-! ### Showing comes to an end -/

section Ends

variable {notes : Notes}

/-- Whether a way to resolve references does what is to become of them where the notes `around` are
being shown. -/
def Shows (notes : Notes) (around : List String)
    (reference : String → Numbering → Node × Numbering) : Prop :=
  ∀ (label : String) (children : List Node) {before after : Numbering} {rest rest' : List Node},
    Shown notes around (reference label before).2 rest after rest' →
      Shown notes around before (⟨.footnoteReference label, children⟩ :: rest) after
        ((reference label before).1 :: rest')

/-- Resolving nodes shows them as they are to be shown, if every reference is. -/
theorem Shows.resolveAll {around : List String} {reference : String → Numbering → Node × Numbering}
    (shows : Shows notes around reference) (nodes : List Node) (numbering : Numbering) :
    Shown notes around numbering nodes
      (resolveAll reference nodes numbering).2 (resolveAll reference nodes numbering).1 := by
  induction nodes using references_induction generalizing numbering with
  | nil => exact .nil
  | reference label children rest behind =>
      rw [resolveAll_reference]
      exact shows _ children (behind _)
  | other kind children rest refers below behind =>
      rw [resolveAll_other refers]
      exact .node refers (below numbering) (behind _)

/-- Every reference is shown as it is to be: in place, in a circle, as a number or broken. -/
theorem Notes.reference_shows (notes : Notes) : Shows notes [] notes.reference := by
  suffices shows : ∀ label before children after rest rest',
      Shown notes [] (notes.reference label before).2 rest after rest' →
        Shown notes [] before (⟨.footnoteReference label, children⟩ :: rest) after
          ((notes.reference label before).1 :: rest') from
    fun label children _ _ _ _ => shows label _ children _ _ _
  refine Notes.reference_induction (motive := fun around label before made =>
    ∀ children after rest rest', Shown notes around made.2 rest after rest' →
      Shown notes around before (⟨.footnoteReference label, children⟩ :: rest) after
        (made.1 :: rest')) ?circle ?short ?listed ?missing
  case circle => exact fun _ _ _ inside _ _ _ _ _ later => .circle inside later
  case short =>
    intro around note reference before member outside found resolves children after rest rest' later
    have shows : Shows notes (note.label :: around) reference :=
      fun label children _ _ _ _ => resolves label _ children _ _ _
    exact .short outside found (shows.resolveAll note.content before) later
  case listed => exact fun _ _ _ outside long known _ _ _ _ later => .listed outside long known later
  case missing => exact fun _ _ _ outside long unknown _ _ _ _ later => .missing outside long unknown later

/-- While nodes are shown labels of listed notes enter the order of numbers, and no labels of short
ones. -/
theorem Shown.exists_entered {around : List String} {before after : Numbering}
    {nodes nodes' : List Node} (shown : Shown notes around before nodes after nodes') :
    ∃ labels : List String, after.order = labels.foldl enter before.order ∧
      ∀ label ∈ labels, label ∈ notes.labels ∧ label ∉ notes.short.map (·.label) := by
  induction shown with
  | nil => exact ⟨[], rfl, fun _ member => absurd member List.not_mem_nil⟩
  | node other below later first second =>
      obtain ⟨labels, order, known⟩ := first
      obtain ⟨more, order', known'⟩ := second
      refine ⟨labels ++ more, ?_, List.forall_mem_append.2 ⟨known, known'⟩⟩
      rw [order', order, List.foldl_append]
  | circle inside later ih => exact ih
  | short outside found inner later first second =>
      obtain ⟨labels, order, known⟩ := first
      obtain ⟨more, order', known'⟩ := second
      refine ⟨labels ++ more, ?_, List.forall_mem_append.2 ⟨known, known'⟩⟩
      rw [order', order, List.foldl_append]
  | @listed around before after label children rest rest' outside long known later ih =>
      obtain ⟨labels, order, all⟩ := ih
      refine ⟨label :: labels, ?_, List.forall_mem_cons.2 ⟨⟨known, long⟩, all⟩⟩
      rw [order, (number_spec label before).1]
      rfl
  | missing outside long unknown later ih => exact ih

/-- The list of items comes to an end: there are no more labels than listed notes. -/
theorem Notes.items_itemized (notes : Notes) (fuel : Nat) : ∀ (n : Nat) (numbering : Numbering),
    numbering.order.Nodup → numbering.order ⊆ notes.labels → notes.listed.length ≤ fuel + n →
    Itemized notes n numbering (notes.items fuel n numbering).2 (notes.items fuel n numbering).1 := by
  induction fuel with
  | zero =>
      intro n numbering distinct known enough
      have few : numbering.order.length ≤ notes.listed.length := by
        simpa [labels] using (distinct.subperm known).length_le
      exact .done (List.getElem?_eq_none_iff.2 (by omega))
  | succ fuel ih =>
      intro n numbering distinct known enough
      unfold items
      split
      · next none => exact .done none
      · next label next =>
          have shown := notes.reference_shows.resolveAll ((content? label notes.listed).getD [])
            numbering
          obtain ⟨labels, order, entered⟩ := shown.exists_entered
          refine .item next shown (ih (n + 1) _ ?_ ?_ (by omega))
          · rw [order]
            exact nodup_foldl_enter labels distinct
          · rw [order]
            intro label member
            rcases mem_foldl_enter.1 member with old | new
            · exact known old
            · exact (entered label new).1

end Ends

/-! ### Notes apart -/

/-- Whether no note that is shown in trees is shown again below itself. -/
def AreApart (nodes : List Node) : Prop :=
  ∀ node ∈ walkAll nodes, ∀ label, node.kind = .inlineNote label →
    .inlineNote label ∉ kindsAll node.children

theorem areApart_cons {kind : NodeKind} {children rest : List Node} :
    AreApart (⟨kind, children⟩ :: rest) ↔
      (∀ label, kind = .inlineNote label → .inlineNote label ∉ kindsAll children) ∧
        AreApart children ∧ AreApart rest := by
  simp only [AreApart, walkAll, walk, List.cons_append, List.forall_mem_cons,
    List.forall_mem_append]

theorem areApart_nil : AreApart [] := by
  simp [AreApart, walkAll]

theorem areApart_append {nodes others : List Node} :
    AreApart (nodes ++ others) ↔ AreApart nodes ∧ AreApart others := by
  induction nodes with
  | nil => simp [areApart_nil]
  | cons node rest ih =>
      obtain ⟨kind, children⟩ := node
      rw [List.cons_append, areApart_cons, areApart_cons, ih]
      simp only [and_assoc]

section Outcomes

variable {notes : Notes} {around : List String} {before after : Numbering}
  {nodes nodes' items : List Node} {n : Nat}

/-- In front of other nodes a leaf that is no note shows none again. -/
theorem areApart_leaf {kind : NodeKind} {rest : List Node} (other : ∀ label, kind ≠ .inlineNote label)
    (behind : EveryAll (fun kind => ∀ label ∈ around, kind ≠ .inlineNote label) rest ∧
      AreApart rest) :
    EveryAll (fun kind => ∀ label ∈ around, kind ≠ .inlineNote label) (.leaf kind :: rest) ∧
      AreApart (.leaf kind :: rest) := by
  constructor
  · exact everyAll_cons.2 ⟨every_mk.2 ⟨fun label _ => other label, everyAll_nil⟩, behind.1⟩
  · exact areApart_cons.2 ⟨fun label same => absurd same (other label), areApart_nil, behind.2⟩

/-- Where notes are being shown none of them is shown again. -/
theorem Shown.areApart (shown : Shown notes around before nodes after nodes')
    (short : EveryNote (·.isNoteOutcome = false) notes.short)
    (plain : EveryAll (·.isNoteOutcome = false) nodes) :
    EveryAll (fun kind => ∀ label ∈ around, kind ≠ .inlineNote label) nodes' ∧ AreApart nodes' := by
  induction shown with
  | nil => exact ⟨everyAll_nil, areApart_nil⟩
  | @node around _ _ _ kind children children' rest rest' other below later first second =>
      rw [everyAll_cons, every_mk] at plain
      obtain ⟨absent, apart⟩ := first plain.1.2
      obtain ⟨absent', apart'⟩ := second plain.2
      have own (label : String) : kind ≠ .inlineNote label := by
        rintro rfl
        cases plain.1.1
      constructor
      · exact everyAll_cons.2 ⟨every_mk.2 ⟨fun label _ => own label, absent⟩, absent'⟩
      · exact areApart_cons.2 ⟨fun label same => absurd same (own label), apart, apart'⟩
  | circle inside later ih => exact areApart_leaf (by simp) (ih (everyAll_cons.1 plain).2)
  | @short around _ _ _ label _ content content' rest rest' outside found inner later first second =>
      obtain ⟨note, member, -, rfl⟩ := exists_note_of_content? found
      obtain ⟨absent, apart⟩ := first (short note member)
      obtain ⟨absent', apart'⟩ := second (everyAll_cons.1 plain).2
      constructor
      · rw [everyAll_cons, every_mk]
        refine ⟨⟨?_, ?_⟩, absent'⟩
        · rintro other member ⟨⟩
          exact outside member
        · exact absent.mono fun kind all other member => all other (List.mem_cons_of_mem _ member)
      · rw [areApart_cons]
        refine ⟨?_, apart, apart'⟩
        -- The label is one of those that are being shown in the content.
        rintro other ⟨⟩ inside
        exact absent _ inside label List.mem_cons_self rfl
  | listed outside long known later ih => exact areApart_leaf (by simp) (ih (everyAll_cons.1 plain).2)
  | missing outside long unknown later ih => exact areApart_leaf (by simp) (ih (everyAll_cons.1 plain).2)

/-- Whether a kind has no number of a note that is shown in place. -/
def IsFree (notes : Notes) (kind : NodeKind) : Prop :=
  ∀ label ∈ notes.short.map (·.label), ∀ number : UInt64,
    kind ≠ .footnoteCrossReference label number ∧ kind ≠ .footnoteItem label number

/-- A kind that footnotes do not make is free. -/
theorem isFree_of_not_outcome {kind : NodeKind} (plain : kind.isNoteOutcome = false) :
    IsFree notes kind := by
  intro label _ number
  constructor
  · rintro rfl
    cases plain
  · rintro rfl
    cases plain

/-- Where a note is shown it has no number. -/
theorem Shown.everyFree (shown : Shown notes around before nodes after nodes')
    (short : EveryNote (·.isNoteOutcome = false) notes.short)
    (plain : EveryAll (·.isNoteOutcome = false) nodes) : EveryAll (IsFree notes) nodes' := by
  induction shown with
  | nil => exact everyAll_nil
  | node other below later first second =>
      rw [everyAll_cons, every_mk] at plain ⊢
      exact ⟨⟨isFree_of_not_outcome plain.1.1, first plain.1.2⟩, second plain.2⟩
  | circle inside later ih =>
      have behind := ih (everyAll_cons.1 plain).2
      exact everyAll_cons.2 ⟨every_mk.2 ⟨isFree_of_not_outcome rfl, everyAll_nil⟩, behind⟩
  | short outside found inner later first second =>
      obtain ⟨note, member, -, rfl⟩ := exists_note_of_content? found
      rw [everyAll_cons, every_mk]
      refine ⟨⟨?_, first (short note member)⟩, second (everyAll_cons.1 plain).2⟩
      exact fun _ _ _ => ⟨nofun, nofun⟩
  | listed outside long known later ih =>
      have behind := ih (everyAll_cons.1 plain).2
      refine everyAll_cons.2 ⟨every_mk.2 ⟨?_, everyAll_nil⟩, behind⟩
      intro other member number
      refine ⟨?_, nofun⟩
      rintro ⟨⟩
      exact long member
  | missing outside long unknown later ih =>
      have behind := ih (everyAll_cons.1 plain).2
      exact everyAll_cons.2 ⟨every_mk.2 ⟨isFree_of_not_outcome rfl, everyAll_nil⟩, behind⟩

/-- Items show no note inside itself either, and none has a number of a note that is shown in place. -/
theorem Itemized.outcome (itemized : Itemized notes n before after items)
    (listed : EveryNote (·.isNoteOutcome = false) notes.listed)
    (short : EveryNote (·.isNoteOutcome = false) notes.short)
    (free : ∀ label ∈ before.order, label ∉ notes.short.map (·.label)) :
    AreApart items ∧ EveryAll (IsFree notes) items := by
  induction itemized with
  | done none => exact ⟨areApart_nil, everyAll_nil⟩
  | @item n before middle after label content items next shown later ih =>
      have plain := listed.content? label
      have freeStill : ∀ label ∈ middle.order, label ∉ notes.short.map (·.label) := by
        obtain ⟨labels, order, entered⟩ := shown.exists_entered
        rw [order]
        intro label member
        rcases mem_foldl_enter.1 member with old | new
        · exact free label old
        · exact (entered label new).2
      obtain ⟨apart, numbers⟩ := ih freeStill
      constructor
      · exact areApart_cons.2 ⟨nofun, (shown.areApart short plain).2, apart⟩
      · refine everyAll_cons.2 ⟨every_mk.2 ⟨?_, shown.everyFree short plain⟩, numbers⟩
        intro other member number
        refine ⟨nofun, ?_⟩
        rintro ⟨⟩
        exact free label (List.mem_of_getElem? next) member

/-! ### Circles -/

mutual

/-- The number of broken references with a label that stand in a tree inside a note shown in place that
has the label; `inside` tells whether the tree itself stands in one. -/
def brokenInside (label : String) (inside : Bool) : Node → Nat
  | ⟨kind, children⟩ =>
    (if inside ∧ kind = .brokenReference label then 1 else 0) +
      brokenInsideAll label (inside || kind = .inlineNote label) children

/-- The number of broken references with a label that stand in trees inside a note that has the label. -/
def brokenInsideAll (label : String) (inside : Bool) : List Node → Nat
  | [] => 0
  | node :: rest => brokenInside label inside node + brokenInsideAll label inside rest

end

theorem brokenInsideAll_append (label : String) (inside : Bool) (nodes others : List Node) :
    brokenInsideAll label inside (nodes ++ others) =
      brokenInsideAll label inside nodes + brokenInsideAll label inside others := by
  induction nodes with
  | nil => exact (Nat.zero_add _).symm
  | cons node rest ih => rw [List.cons_append, brokenInsideAll, brokenInsideAll, ih, Nat.add_assoc]

/-- A node that is neither a broken reference with the label nor a note with it. -/
theorem brokenInsideAll_other {label : String} {kind : NodeKind} (broken : kind ≠ .brokenReference label)
    (note : kind ≠ .inlineNote label) (inside : Bool) (children rest : List Node) :
    brokenInsideAll label inside (⟨kind, children⟩ :: rest) =
      brokenInsideAll label inside children + brokenInsideAll label inside rest := by
  rw [brokenInsideAll, brokenInside]
  simp [broken, note]

/-- Whether a kind is there before notes are shown, and is no broken reference with the label. -/
def IsUnbroken (label : String) (kind : NodeKind) : Prop :=
  kind.isNoteOutcome = false ∧ kind ≠ .brokenReference label

/-- Whether there is a warning for each broken reference that stands inside a note with its label, and
references to short notes are broken nowhere else. -/
structure Circled (notes : Notes) (label : String) (inside : Bool) (before after : Numbering)
    (nodes : List Node) : Prop where
  warned : after.warnings.count (.footnoteCycle label) =
    before.warnings.count (.footnoteCycle label) + brokenInsideAll label inside nodes
  broken : label ∈ notes.short.map (·.label) →
    (kindsAll nodes).count (.brokenReference label) = brokenInsideAll label inside nodes

/-- A warning of something else does not count as one of a circle. -/
theorem count_warn_of_ne {warning : Warning} {label : String} (other : warning ≠ .footnoteCycle label)
    (numbering : Numbering) : (numbering.warn warning).warnings.count (.footnoteCycle label) =
      numbering.warnings.count (.footnoteCycle label) := by
  rw [Numbering.warn, List.count_append, List.count_singleton, beq_false_of_ne other]
  rfl

namespace Circled

variable {label : String} {inside : Bool} {middle : Numbering} {kind : NodeKind}
  {children rest : List Node}

theorem nil (numbering : Numbering) : Circled notes label inside numbering numbering [] :=
  ⟨rfl, fun _ => rfl⟩

/-- A node in front of others that has nothing to do with the label. -/
theorem cons (broken : kind ≠ .brokenReference label) (note : kind ≠ .inlineNote label)
    (below : Circled notes label inside before middle children)
    (behind : Circled notes label inside middle after rest) :
    Circled notes label inside before after (⟨kind, children⟩ :: rest) where
  warned := by
    rw [brokenInsideAll_other broken note, behind.warned, below.warned, Nat.add_assoc]
  broken short := by
    rw [brokenInsideAll_other broken note, kindsAll_cons, kinds_mk, List.cons_append,
      List.count_cons_of_ne broken, List.count_append, below.broken short, behind.broken short]

/-- Other warnings do not count. -/
theorem warn {warning : Warning} (other : warning ≠ .footnoteCycle label) :
    Circled notes label inside before (before.warn warning) [] where
  warned := count_warn_of_ne other before
  broken _ := rfl

/-- A broken reference inside a note with its label, with a warning. -/
theorem broken_inside
    (behind : Circled notes label true (before.warn (.footnoteCycle label)) after rest) :
    Circled notes label true before after (.leaf (.brokenReference label) :: rest) where
  warned := by
    rw [behind.warned, Numbering.warn, List.count_append, List.count_singleton_self, brokenInsideAll,
      leaf, brokenInside, brokenInsideAll, if_pos ⟨rfl, rfl⟩, Nat.add_zero, Nat.add_assoc]
  broken short := by
    rw [kindsAll_cons, leaf, kinds_mk, kindsAll_nil, List.singleton_append, List.count_cons_self,
      behind.broken short, brokenInsideAll, brokenInside, brokenInsideAll, if_pos ⟨rfl, rfl⟩,
      Nat.add_zero, Nat.add_comm]

/-- A broken reference outside the notes with its label, where no short note has it. -/
theorem broken_outside (long : label ∉ notes.short.map (·.label))
    (behind : Circled notes label false (before.warn (.undefinedFootnote label)) after rest) :
    Circled notes label false before after (.leaf (.brokenReference label) :: rest) where
  warned := by
    rw [behind.warned, count_warn_of_ne (by simp), brokenInsideAll, leaf, brokenInside,
      brokenInsideAll, if_neg (fun both => Bool.false_ne_true both.1), Nat.add_zero, Nat.zero_add]
  broken short := absurd short long

/-- A note with the label, in which all broken references with it count. -/
theorem note (below : Circled notes label true before middle children)
    (behind : Circled notes label inside middle after rest) :
    Circled notes label inside before after (⟨.inlineNote label, children⟩ :: rest) where
  warned := by
    rw [behind.warned, below.warned, brokenInsideAll, brokenInside]
    simp [Nat.add_assoc]
  broken short := by
    rw [kindsAll_cons, kinds_mk, List.cons_append, List.count_cons_of_ne (by simp), List.count_append,
      below.broken short, behind.broken short, brokenInsideAll, brokenInside]
    simp

theorem append {others : List Node} (front : Circled notes label inside before middle nodes)
    (behind : Circled notes label inside middle after others) :
    Circled notes label inside before after (nodes ++ others) where
  warned := by rw [brokenInsideAll_append, behind.warned, front.warned, Nat.add_assoc]
  broken short := by
    rw [brokenInsideAll_append, kindsAll_append, List.count_append, front.broken short,
      behind.broken short]

end Circled

/-- A reference is broken exactly where its note would be shown inside itself. -/
theorem Shown.circled {label : String} (shown : Shown notes around before nodes after nodes')
    (short : EveryNote (IsUnbroken label) notes.short) (plain : EveryAll (IsUnbroken label) nodes) :
    Circled notes label (decide (label ∈ around)) before after nodes' := by
  induction shown with
  | @nil around numbering => exact .nil numbering
  | node other below later first second =>
      rw [everyAll_cons, every_mk] at plain
      refine .cons plain.1.1.2 ?_ (first plain.1.2) (second plain.2)
      rintro rfl
      cases plain.1.1.1
  | @circle around before after own children rest rest' inside later ih =>
      have behind := ih (everyAll_cons.1 plain).2
      by_cases same : own = label
      · subst same
        rw [decide_eq_true inside] at behind ⊢
        exact .broken_inside behind
      · have other : Warning.footnoteCycle own ≠ .footnoteCycle label := by simpa using same
        exact .cons (by simpa using same) nofun (.warn other) behind
  | @short around _ _ _ own _ content content' rest rest' outside found inner later first second =>
      obtain ⟨note, member, -, rfl⟩ := exists_note_of_content? found
      have below := first (short note member)
      have behind := second (everyAll_cons.1 plain).2
      by_cases same : own = label
      · subst same
        rw [decide_eq_true List.mem_cons_self] at below
        exact .note below behind
      · have around : label ∈ own :: around ↔ label ∈ around := by simp [Ne.symm same]
        rw [decide_eq_decide.2 around] at below
        exact .cons nofun (by simpa using same) below behind
  | listed outside long known later ih =>
      have behind := ih (everyAll_cons.1 plain).2
      refine .cons nofun nofun (.nil _) ⟨?_, behind.broken⟩
      rw [behind.warned, number_warnings]
  | @missing around before after own children rest rest' outside long unknown later ih =>
      have behind := ih (everyAll_cons.1 plain).2
      by_cases same : own = label
      · subst same
        rw [decide_eq_false outside] at behind ⊢
        exact .broken_outside long behind
      · exact .cons (by simpa using same) nofun (.warn (by simp)) behind

/-- In the items there is a warning of a circle for each reference that is broken inside its note. -/
theorem Itemized.circled {label : String} (itemized : Itemized notes n before after items)
    (listed : EveryNote (IsUnbroken label) notes.listed)
    (short : EveryNote (IsUnbroken label) notes.short) :
    Circled notes label false before after items := by
  induction itemized with
  | done none => exact .nil _
  | @item n before middle after own content items next shown later ih =>
      have inner := shown.circled short (listed.content? own)
      rw [decide_eq_false List.not_mem_nil] at inner
      exact .cons nofun nofun inner ih

end Outcomes

/-! ### Documents -/

/-- A document in which the notes of another one are shown in place or listed: its text is what the
text becomes, and its items are those of the labels that got numbers. -/
structure IsShown (options : FootnoteOptions) (document : Node) (tree : Node)
    (warnings : List Warning) : Prop where
  outcome : ∃ (middle last : Numbering) (body items : List Node),
    Shown (Notes.ofList options (collect options document).2) []
      ⟨[], (firsts [] (notesAll document.children)).2.map .duplicateFootnote⟩
      (collect options document).1.children middle body ∧
    Itemized (Notes.ofList options (collect options document).2) 0 middle last items ∧
    tree.children = body ++ (if items.isEmpty then [] else [⟨.footnoteList, items⟩]) ∧
    warnings = last.warnings
  /-- No note is shown inside itself. -/
  apart : AreApart [tree]
  /-- Where a document has no broken references to a short note, those that it gets stand inside the note
  itself, and there is a warning for each. -/
  circled : ∀ label ∈ shortLabels options document, .brokenReference label ∉ document.kinds →
    tree.kinds.count (.brokenReference label) = brokenInside label false tree ∧
      warnings.count (.footnoteCycle label) = brokenInside label false tree
  /-- No short note has a number. -/
  free : ∀ label ∈ shortLabels options document, ∀ number : UInt64,
    .footnoteCrossReference label number ∉ tree.kinds ∧ .footnoteItem label number ∉ tree.kinds

/-- Numbering comes to an end, and gives no number to a short note. -/
theorem Notes.exists_outcome (notes : Notes) (nodes : List Node) (warnings : List Warning) :
    let resolved := resolveAll notes.reference nodes ⟨[], warnings⟩
    let listed := notes.items notes.listed.length 0 resolved.2
    Shown notes [] ⟨[], warnings⟩ nodes resolved.2 resolved.1 ∧
      Itemized notes 0 resolved.2 listed.2 listed.1 ∧
      ∀ label ∈ resolved.2.order, label ∉ notes.short.map (·.label) := by
  intro resolved listed
  have shown : Shown notes [] ⟨[], warnings⟩ nodes resolved.2 resolved.1 :=
    notes.reference_shows.resolveAll nodes ⟨[], warnings⟩
  obtain ⟨labels, order, entered⟩ := shown.exists_entered
  have known : ∀ label ∈ resolved.2.order, label ∈ notes.labels ∧
      label ∉ notes.short.map (·.label) := by
    rw [order]
    intro label member
    exact entered label ((mem_foldl_enter.1 member).resolve_left List.not_mem_nil)
  have distinct : resolved.2.order.Nodup := order ▸ nodup_foldl_enter labels List.nodup_nil
  have itemized := notes.items_itemized notes.listed.length 0 resolved.2 distinct
    (fun label member => (known label member).1) (Nat.le_refl _)
  exact ⟨shown, itemized, fun label member => (known label member).2⟩

/-- What the stage makes is the text with its references shown and the items behind it. The warnings of
doubled definitions come first. -/
theorem exists_outcome (options : FootnoteOptions) (document : Node) :
    ∃ (middle last : Numbering) (body items : List Node),
      Shown (Notes.ofList options (collect options document).2) []
        ⟨[], (firsts [] (notesAll document.children)).2.map .duplicateFootnote⟩
        (collect options document).1.children middle body ∧
      Itemized (Notes.ofList options (collect options document).2) 0 middle last items ∧
      apply options document = (⟨document.kind,
        body ++ if items.isEmpty then [] else [⟨.footnoteList, items⟩]⟩, last.warnings) ∧
      ∀ label ∈ middle.order,
        label ∉ (Notes.ofList options (collect options document).2).short.map (·.label) := by
  obtain ⟨shown, itemized, free⟩ := Notes.exists_outcome
    (Notes.ofList options (collect options document).2) (collect options document).1.children
    ((firsts [] (notesAll document.children)).2.map .duplicateFootnote)
  refine ⟨_, _, _, _, shown, itemized, ?_, free⟩
  rw [apply_eq, resolve_eq, collect_kind]

/-- What holds of all kinds in a document holds of those in its text and in its notes. -/
theorem parts_every {p : NodeKind → Prop} (options : FootnoteOptions) {document : Node}
    (allows : AllowsLifting p) (every : document.Every p) :
    EveryAll p (collect options document).1.children ∧
      EveryNote p (Notes.ofList options (collect options document).2).listed ∧
      EveryNote p (Notes.ofList options (collect options document).2).short := by
  have allowsBoth : AllowsLifting fun kind => p kind ∧ kind.isDefinition = false :=
    ⟨fun value => ⟨allows.text value, rfl⟩, ⟨allows.paragraph, rfl⟩,
      fun label => ⟨allows.reference label, rfl⟩⟩
  obtain ⟨text, contents⟩ := collect_every options allowsBoth every
  refine ⟨text.mono fun _ both => both.1, everyNote_ofList options ?_⟩
  intro note member
  exact (contents note member).mono fun _ both => both.1

section Apply

variable (options : FootnoteOptions) {document : Node}

/-- Where no footnotes were made yet, none are in the text or the notes. -/
theorem parts_plain (fresh : document.Every (·.isNoteOutcome = false)) :
    EveryAll (·.isNoteOutcome = false) (collect options document).1.children ∧
      EveryNote (·.isNoteOutcome = false) (Notes.ofList options (collect options document).2).listed ∧
      EveryNote (·.isNoteOutcome = false) (Notes.ofList options (collect options document).2).short :=
  parts_every options ⟨fun _ => rfl, rfl, fun _ => rfl⟩ fresh

/-- No note is shown inside itself. -/
theorem areApart_apply (root : document.kind = .document)
    (fresh : document.Every (·.isNoteOutcome = false)) : AreApart [(apply options document).1] := by
  obtain ⟨text, listed, short⟩ := parts_plain options fresh
  obtain ⟨middle, last, body, items, shown, itemized, applied, free⟩ := exists_outcome options document
  rw [applied, root, areApart_cons, areApart_append]
  refine ⟨nofun, ⟨(shown.areApart short text).2, ?_⟩, areApart_nil⟩
  split
  · exact areApart_nil
  · exact areApart_cons.2 ⟨nofun, (itemized.outcome listed short free).1, areApart_nil⟩

/-- What the stage makes holds no number and no item for a short note. -/
theorem every_apply_isFree (root : document.kind = .document)
    (fresh : document.Every (·.isNoteOutcome = false)) :
    (apply options document).1.Every
      (IsFree (Notes.ofList options (collect options document).2)) := by
  obtain ⟨text, listed, short⟩ := parts_plain options fresh
  obtain ⟨middle, last, body, items, shown, itemized, applied, free⟩ := exists_outcome options document
  rw [applied, root, every_mk, everyAll_append]
  refine ⟨isFree_of_not_outcome rfl, shown.everyFree short text, ?_⟩
  split
  · exact everyAll_nil
  · have numbers := (itemized.outcome listed short free).2
    exact everyAll_cons.2 ⟨every_mk.2 ⟨isFree_of_not_outcome rfl, numbers⟩, everyAll_nil⟩

/-- A short note is broken only inside itself, with one warning for each such place. -/
theorem count_apply_broken (root : document.kind = .document)
    (fresh : document.Every (·.isNoteOutcome = false)) {label : String}
    (member : label ∈ shortLabels options document)
    (unbroken : .brokenReference label ∉ document.kinds) :
    (apply options document).1.kinds.count (.brokenReference label) =
        brokenInside label false (apply options document).1 ∧
      (apply options document).2.count (.footnoteCycle label) =
        brokenInside label false (apply options document).1 := by
  have every : document.Every (IsUnbroken label) := by
    intro kind inside
    refine ⟨fresh kind inside, ?_⟩
    rintro rfl
    exact unbroken inside
  obtain ⟨text, listed, short⟩ := parts_every options
    ⟨fun _ => ⟨rfl, nofun⟩, ⟨rfl, nofun⟩, fun _ => ⟨rfl, nofun⟩⟩ every
  obtain ⟨middle, last, body, items, shown, itemized, applied, -⟩ := exists_outcome options document
  have inText := shown.circled short text
  rw [decide_eq_false List.not_mem_nil] at inText
  have inItems := itemized.circled listed short
  have inList : Circled (Notes.ofList options (collect options document).2) label false middle last
      (if items.isEmpty then [] else [⟨.footnoteList, items⟩]) := by
    split
    · next none =>
        rw [List.isEmpty_iff.1 none] at inItems
        exact inItems
    · exact .cons nofun nofun inItems (.nil last)
  have whole := inText.append inList
  rw [applied]
  generalize (body ++ if items.isEmpty then [] else [⟨.footnoteList, items⟩]) = children at whole
  have none : ((firsts [] (notesAll document.children)).2.map Warning.duplicateFootnote).count
      (.footnoteCycle label) = 0 := by
    rw [List.count_eq_zero, List.mem_map]
    rintro ⟨_, -, ⟨⟩⟩
  have inside : brokenInside label false ⟨document.kind, children⟩ =
      brokenInsideAll label false children := by
    rw [root, brokenInside]
    simp
  rw [inside, whole.warned, none, Nat.zero_add, kinds_mk, root, List.count_cons_of_ne (by simp)]
  exact ⟨whole.broken member, rfl⟩

end Apply

/-- Whatever notes refer to, the stage for footnotes succeeds: notes are shown in place or listed, none
is shown inside itself, and those that are shown have no numbers. -/
theorem stage_shows_in_place (highlighter : Syntax.Highlighter) (options : FootnoteOptions)
    {document : Node} (root : document.kind = .document)
    (fresh : document.Every (·.isNoteOutcome = false)) :
    ∃ tree warnings, (Stage.footnotes options).apply highlighter document = .ok (tree, warnings) ∧
      IsShown options document tree warnings := by
  refine ⟨(apply options document).1, (apply options document).2, by simp [Stage.apply, root], ?_⟩
  constructor
  case outcome =>
    obtain ⟨middle, last, body, items, shown, itemized, applied, -⟩ :=
      exists_outcome options document
    exact ⟨middle, last, body, items, shown, itemized, by rw [applied], by rw [applied]⟩
  case apart => exact areApart_apply options root fresh
  case circled => exact fun label member unbroken => count_apply_broken options root fresh member unbroken
  case free =>
    intro label member number
    have free := every_apply_isFree options root fresh
    constructor
    · intro inside
      exact (free _ inside label member number).1 rfl
    · intro inside
      exact (free _ inside label member number).2 rfl

/-- A document whose short notes refer to each other in a circle, and one of them to itself. -/
theorem stage_shows_circle :
    let circle : Node := .document
      [⟨.paragraph, [.leaf (.footnoteReference "a"), .leaf (.footnoteReference "long")]⟩,
        ⟨.footnoteDefinition "a", [⟨.paragraph, [.leaf (.footnoteReference "b")]⟩]⟩,
        ⟨.footnoteDefinition "b", [⟨.paragraph,
          [.leaf (.footnoteReference "a"), .leaf (.footnoteReference "b")]⟩]⟩,
        ⟨.footnoteDefinition "long", [⟨.paragraph, [.text "More than a few words, and ",
          .leaf (.footnoteReference "b")]⟩]⟩]
    circle.kind = .document ∧ circle.Every (·.isNoteOutcome = false) ∧
      ∃ tree warnings, (Stage.footnotes ⟨true, true, 9⟩).apply Syntax.standard circle =
        .ok (tree, warnings) ∧ IsShown ⟨true, true, 9⟩ circle tree warnings := by
  intro circle
  have fresh : circle.Every (·.isNoteOutcome = false) := by
    simp [circle, Node.document, Node.text, leaf, NodeKind.isNoteOutcome]
  exact ⟨rfl, fresh, stage_shows_in_place Syntax.standard ⟨true, true, 9⟩ rfl fresh⟩

end Footnote

end DocPress
