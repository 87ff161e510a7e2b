import Mathlib.Data.List.Induction
import Mathlib.Data.List.Nodup
import Mathlib.Data.List.Perm.Subperm
import DocPress.Footnote.Number
import DocPress.Proofs.Footnote.Lift

/-!
The order of numbers, and what numbering does to references. Labels that enter an order one after the
other end up in it in the order in which they first occurred. Resolving nodes in document order enters the
labels of their cross references into the order of numbers, and each of them holds the place of its label.
Notes that are listed are resolved in this order, which grows with what they refer to.
-/

namespace DocPress

/-! ### Kinds -/

namespace NodeKind

/-- Whether the kind is a reference to a footnote that has no number yet. -/
def isReference : NodeKind → Bool
  | .footnoteReference _ => true
  | _ => false

theorem exists_of_isReference {kind : NodeKind} (refers : kind.isReference = true) :
    ∃ label, kind = .footnoteReference label := by
  cases kind with
  | footnoteReference label => exact ⟨label, rfl⟩
  | _ => cases refers

/-- Whether the kind is the list of footnotes or one of its items. -/
def isListing : NodeKind → Bool
  | .footnoteList | .footnoteItem .. => true
  | _ => false

/-- The label and the number of a cross reference. -/
def crossReference? : NodeKind → Option (String × UInt64)
  | .footnoteCrossReference label number => some (label, number)
  | _ => none

/-- Whether the kind is free of numbers and of definitions, as in a tree to be numbered. -/
def isUnnumbered (kind : NodeKind) : Prop :=
  kind.isListing = false ∧ kind.crossReference? = none ∧ kind.isDefinition = false

/-- Whether the kind is one that numbering leaves in a tree or in the content of a note. -/
def isSettled (kind : NodeKind) : Prop :=
  kind.isListing = false ∧ kind.isReference = false ∧ kind.isDefinition = false

end NodeKind

/-- The cross references of a list of trees in document order. -/
def Node.crossReferencesAll (nodes : List Node) : List (String × UInt64) :=
  (kindsAll nodes).filterMap (·.crossReference?)

namespace Footnote

open Node

/-! ### The order of first occurrence -/

/-- An order with a label at its end, unless the label is in it already. -/
def enter (order : List String) (label : String) : List String :=
  if label ∈ order then order else order ++ [label]

/-- The number of a label as trees hold it. -/
def ordinal (order : List String) (label : String) : UInt64 :=
  UInt64.ofNat (order.idxOf label + 1)

theorem mem_enter {order : List String} {label other : String} :
    other ∈ enter order label ↔ other ∈ order ∨ other = label := by
  unfold enter
  split
  · next member =>
      constructor
      · exact .inl
      · rintro (old | rfl)
        · exact old
        · exact member
  · simp

theorem mem_foldl_enter {labels order : List String} {label : String} :
    label ∈ labels.foldl enter order ↔ label ∈ order ∨ label ∈ labels := by
  induction labels generalizing order with
  | nil => simp
  | cons first rest ih => simp [ih, mem_enter, or_assoc]

/-- A label is entered once. -/
theorem nodup_enter {order : List String} (label : String) (distinct : order.Nodup) :
    (enter order label).Nodup := by
  unfold enter
  split
  · exact distinct
  · next fresh => simpa using List.Nodup.concat fresh distinct

/-- Labels are entered once each. -/
theorem nodup_foldl_enter (labels : List String) {order : List String} (distinct : order.Nodup) :
    (labels.foldl enter order).Nodup := by
  induction labels generalizing order with
  | nil => exact distinct
  | cons first rest ih => exact ih (nodup_enter first distinct)

/-- An order only grows at its end. -/
theorem prefix_foldl_enter (labels order : List String) : order <+: labels.foldl enter order := by
  induction labels generalizing order with
  | nil => exact List.prefix_rfl
  | cons first rest ih =>
      refine List.IsPrefix.trans ?_ (ih (enter order first))
      unfold enter
      split
      · exact List.prefix_rfl
      · exact List.prefix_append _ _

/-- A label keeps its number when the order grows. -/
theorem ordinal_of_isPrefix {order more : List String} {label : String} (grows : order <+: more)
    (member : label ∈ order) : ordinal more label = ordinal order label := by
  obtain ⟨rest, rfl⟩ := grows
  rw [ordinal, ordinal, List.idxOf_append, if_pos member]

/-- Labels that enter one after the other stand in the order of their first occurrence. -/
theorem foldl_enter_eq_eraseDups (labels : List String) :
    labels.foldl enter [] = labels.eraseDups := by
  induction labels using List.reverseRecOn with
  | nil => rfl
  | append_singleton before label ih =>
      rw [List.foldl_concat, ih, List.eraseDups_append, enter]
      by_cases member : label ∈ before
      · simp [member, List.mem_eraseDups, List.removeAll]
      · simp [member, List.mem_eraseDups, List.removeAll, List.eraseDups_cons]

/-- First occurrences are kept by a function that tells the values of the list apart. -/
theorem eraseDups_map {α β : Type} [BEq α] [LawfulBEq α] [BEq β] [LawfulBEq β] {f : α → β}
    {values : List α} (apart : ∀ a ∈ values, ∀ b ∈ values, f a = f b → a = b) :
    (values.map f).eraseDups = values.eraseDups.map f := by
  induction values using List.reverseRecOn with
  | nil => rfl
  | append_singleton before value ih =>
      have earlier := ih fun a first b second =>
        apart a (List.mem_append_left _ first) b (List.mem_append_left _ second)
      have same : f value ∈ before.map f ↔ value ∈ before := by
        rw [List.mem_map]
        constructor
        · rintro ⟨other, member, equal⟩
          exact apart other (by simp [member]) value (by simp) equal ▸ member
        · exact fun member => ⟨value, member, rfl⟩
      rw [List.map_append, List.eraseDups_append, List.eraseDups_append, earlier]
      by_cases member : value ∈ before
      · simp [List.removeAll, member, same.2 member]
      · have absent : f value ∉ before.map f := fun found => member (same.1 found)
        simp [List.removeAll, member, absent, List.eraseDups_cons]

/-- In an order without repetitions the number of a label is its place, counted from one. -/
theorem map_ordinal {α : Type} (f : String → UInt64 → α) {order : List String}
    (distinct : order.Nodup) :
    order.map (fun label => f label (ordinal order label)) =
      order.mapIdx fun i label => f label (UInt64.ofNat (i + 1)) := by
  apply List.ext_getElem
  · simp
  · intro i first second
    have bound : i < order.length := by simpa using first
    simp [ordinal, distinct.idxOf_getElem i bound]

/-! ### Cross references -/

@[simp] theorem crossReferencesAll_cons (node : Node) (rest : List Node) :
    crossReferencesAll (node :: rest) = crossReferencesAll [node] ++ crossReferencesAll rest := by
  simp [crossReferencesAll]

theorem crossReferencesAll_append (first second : List Node) :
    crossReferencesAll (first ++ second) =
      crossReferencesAll first ++ crossReferencesAll second := by
  simp [crossReferencesAll]

/-- A node that is no cross reference has those of its children. -/
theorem crossReferencesAll_singleton {kind : NodeKind} (children : List Node)
    (other : kind.crossReference? = none) :
    crossReferencesAll [⟨kind, children⟩] = crossReferencesAll children := by
  simp [crossReferencesAll, other]

/-! ### Cross references and the order of numbers -/

/-- Cross references that were made while the order of numbers grew: their labels, which are known
ones, have entered it one after the other, and they hold the numbers of their labels. -/
structure Links (known before after : List String) (references : List (String × UInt64)) :
    Prop where
  order : after = (references.map (·.1)).foldl enter before
  numbers : ∀ reference ∈ references, reference.2 = ordinal after reference.1
  known : ∀ reference ∈ references, reference.1 ∈ known

namespace Links

variable {known before middle after : List String} {first second : List (String × UInt64)}

theorem none (known order : List String) : Links known order order [] :=
  ⟨rfl, by simp, by simp⟩

theorem isPrefix (links : Links known before after first) : before <+: after :=
  links.order ▸ prefix_foldl_enter _ _

theorem mem_after (links : Links known before after first) {label : String} :
    label ∈ after ↔ label ∈ before ∨ label ∈ first.map (·.1) := by
  rw [links.order, mem_foldl_enter]

/-- One cross reference, to a label with its number. -/
theorem single {label : String} (member : label ∈ known) (order : List String) :
    Links known order (enter order label) [(label, ordinal (enter order label) label)] :=
  ⟨rfl, by simp, by simpa using member⟩

/-- Cross references made one after the other; the earlier ones keep their numbers. -/
theorem append (one : Links known before middle first) (two : Links known middle after second) :
    Links known before after (first ++ second) where
  order := by rw [List.map_append, List.foldl_append, ← one.order, ← two.order]
  numbers := by
    intro reference member
    rcases List.mem_append.1 member with member | member
    · have entered : reference.1 ∈ middle := one.mem_after.2 (.inr (List.mem_map_of_mem member))
      rw [ordinal_of_isPrefix two.isPrefix entered]
      exact one.numbers reference member
    · exact two.numbers reference member
  known := by
    intro reference member
    rcases List.mem_append.1 member with member | member
    · exact one.known reference member
    · exact two.known reference member

theorem nodup (links : Links known before after first) (distinct : before.Nodup) : after.Nodup :=
  links.order ▸ nodup_foldl_enter _ distinct

/-- Only known labels enter an order of known labels. -/
theorem subset_known (links : Links known before after first) (old : before ⊆ known) :
    after ⊆ known := by
  intro label member
  rcases links.mem_after.1 member with member | member
  · exact old member
  · obtain ⟨reference, made, rfl⟩ := List.mem_map.1 member
    exact links.known reference made

end Links

/-- A label that has a number keeps it. -/
theorem number_of_mem {label : String} {numbering : Numbering} (member : label ∈ numbering.order) :
    numbering.number label = (numbering.order.idxOf label + 1, numbering) := by
  unfold Numbering.number
  cases found : numbering.order.findIdx? (· == label) with
  | none => simpa using List.findIdx?_eq_none_iff.1 found label member
  | some n =>
      have place : numbering.order.idxOf label = n :=
        (List.findIdx?_eq_some_iff_findIdx_eq.1 found).2
      rw [place]

/-- A label without a number gets the next one. -/
theorem number_of_not_mem {label : String} {numbering : Numbering}
    (absent : label ∉ numbering.order) :
    numbering.number label =
      (numbering.order.length + 1, { numbering with order := numbering.order ++ [label] }) := by
  have unseen : numbering.order.findIdx? (· == label) = none := by
    refine List.findIdx?_eq_none_iff.2 fun other member => ?_
    have different : other ≠ label := fun same => absent (same ▸ member)
    simpa using different
  simp [Numbering.number, unseen]

/-- Giving a number to a label enters it, and the number is its place. -/
theorem number_spec (label : String) (numbering : Numbering) :
    (numbering.number label).2.order = enter numbering.order label ∧
      UInt64.ofNat (numbering.number label).1 = ordinal (enter numbering.order label) label := by
  by_cases member : label ∈ numbering.order
  · simp [number_of_mem member, enter, ordinal, member]
  · simp [number_of_not_mem member, enter, ordinal, member, List.idxOf_append]

/-- Giving a number gives no warning. -/
theorem number_warnings (label : String) (numbering : Numbering) :
    (numbering.number label).2.warnings = numbering.warnings := by
  by_cases member : label ∈ numbering.order
  · rw [number_of_mem member]
  · rw [number_of_not_mem member]

/-! ### Resolving references -/

/-- Whether a node that stands for a reference is settled, and its cross references are linked. -/
structure Resolved (known : List String) (before : Numbering) (result : List Node × Numbering) :
    Prop where
  links : Links known before.order result.2.order (crossReferencesAll result.1)
  settled : EveryAll NodeKind.isSettled result.1

/-- A way to resolve references that links what it makes. -/
def Resolves (known : List String) (reference : String → Numbering → Node × Numbering) : Prop :=
  ∀ label numbering,
    Resolved known numbering ([(reference label numbering).1], (reference label numbering).2)

variable {known : List String} {reference : String → Numbering → Node × Numbering}

/-- A broken reference has no number, whatever is warned of. -/
theorem resolved_broken (known : List String) (label : String) (warning : Warning)
    (numbering : Numbering) :
    Resolved known numbering ([.leaf (.brokenReference label)], numbering.warn warning) where
  links := Links.none known numbering.order
  settled := by
    simp [leaf, NodeKind.isSettled, NodeKind.isListing, NodeKind.isReference,
      NodeKind.isDefinition]

/-- Results for one node and for those after it come together. -/
theorem Resolved.cons {before middle : Numbering} {node : Node} {nodes : List Node}
    {after : Numbering} (head : Resolved known before ([node], middle))
    (tail : Resolved known middle (nodes, after)) :
    Resolved known before (node :: nodes, after) where
  links := by
    rw [crossReferencesAll_cons]
    exact head.links.append tail.links
  settled := everyAll_cons.2 ⟨(everyAll_cons.1 head.settled).1, tail.settled⟩

/-- A node around resolved children is resolved when its own kind is settled and no number. -/
theorem Resolved.wrap {before after : Numbering} {kind : NodeKind} {children : List Node}
    (below : Resolved known before (children, after)) (settled : kind.isSettled)
    (other : kind.crossReference? = none) :
    Resolved known before ([⟨kind, children⟩], after) where
  links := by
    rw [crossReferencesAll_singleton children other]
    exact below.links
  settled := by simpa using ⟨settled, below.settled⟩

/-- A reference is resolved before the nodes after it. -/
theorem resolveAll_reference (label : String) (children rest : List Node) (numbering : Numbering) :
    resolveAll reference (⟨.footnoteReference label, children⟩ :: rest) numbering =
      ((reference label numbering).1 ::
          (resolveAll reference rest (reference label numbering).2).1,
        (resolveAll reference rest (reference label numbering).2).2) := rfl

/-- What is below any other node is resolved before the nodes after it. -/
theorem resolveAll_other {kind : NodeKind} (other : kind.isReference = false)
    (children rest : List Node) (numbering : Numbering) :
    resolveAll reference (⟨kind, children⟩ :: rest) numbering =
      (⟨kind, (resolveAll reference children numbering).1⟩ ::
          (resolveAll reference rest (resolveAll reference children numbering).2).1,
        (resolveAll reference rest (resolveAll reference children numbering).2).2) := by
  cases kind <;> first | rfl | simp [NodeKind.isReference] at other

/-- What holds of no nodes, of a reference in front of nodes that it holds of, and of any other node around
such nodes and in front of such nodes, holds of all nodes. -/
theorem references_induction {holds : List Node → Prop} (nil : holds [])
    (reference : ∀ label children rest, holds rest →
      holds (⟨.footnoteReference label, children⟩ :: rest))
    (other : ∀ kind children rest, kind.isReference = false → holds children → holds rest →
      holds (⟨kind, children⟩ :: rest)) (nodes : List Node) : holds nodes := by
  refine @Node.rec_1 (fun node => holds node.children) holds (fun _ _ below => below) nil ?_ nodes
  rintro ⟨kind, children⟩ rest below behind
  cases refers : kind.isReference with
  | true =>
      obtain ⟨label, rfl⟩ := NodeKind.exists_of_isReference refers
      exact reference label children rest behind
  | false => exact other kind children rest refers below behind

/-- Resolving nodes one after the other links and settles them. -/
theorem resolveAll_resolved (resolves : Resolves known reference) (nodes : List Node)
    (numbering : Numbering) (unnumbered : EveryAll NodeKind.isUnnumbered nodes) :
    Resolved known numbering (resolveAll reference nodes numbering) := by
  induction nodes using references_induction generalizing numbering with
  | nil => exact ⟨Links.none known numbering.order, everyAll_nil⟩
  | reference label children rest behind =>
      obtain ⟨-, tail⟩ := everyAll_cons.1 unnumbered
      rw [resolveAll_reference]
      exact (resolves _ numbering).cons (behind _ tail)
  | other kind children rest refers inner behind =>
      obtain ⟨head, tail⟩ := everyAll_cons.1 unnumbered
      obtain ⟨here, below⟩ := every_mk.1 head
      rw [resolveAll_other refers]
      have node := (inner numbering below).wrap ⟨here.1, refers, here.2.2⟩ here.2.1
      exact node.cons (behind _ tail)

/-! ### Notes -/

/-- Notes whose contents have no numbers and no definitions. -/
structure Notes.Unnumbered (notes : Notes) : Prop where
  listed : EveryNote NodeKind.isUnnumbered notes.listed
  short : EveryNote NodeKind.isUnnumbered notes.short

/-- The labels of the notes that are listed. -/
def Notes.labels (notes : Notes) : List String :=
  notes.listed.map (·.label)

theorem labels_listed_ofList (options : FootnoteOptions) (notes : List Note) :
    (Notes.ofList options notes).listed.map (·.label) ⊆ notes.map (·.label) :=
  List.map_subset _ List.filter_sublist.subset

/-- The labels of the short notes are among those of all notes. -/
theorem labels_short_ofList (options : FootnoteOptions) (notes : List Note) :
    (Notes.ofList options notes).short.map (·.label) ⊆ notes.map (·.label) := by
  rw [Notes.ofList, List.map_map]
  exact List.map_subset _ List.filter_sublist.subset

/-- What holds of all that a reference can become holds of what references become. `shown` are the notes
that are being shown around a reference, none of them twice, so the limit is never reached: in the content
of a short note, with that note among those being shown, it holds of what `reference` makes. -/
theorem Notes.reference_induction {notes : Notes}
    {motive : List String → String → Numbering → Node × Numbering → Prop}
    (circle : ∀ shown label numbering, label ∈ shown → label ∈ notes.short.map (·.label) →
      motive shown label numbering
        (.leaf (.brokenReference label), numbering.warn (.footnoteCycle label)))
    (short : ∀ shown note reference numbering, note ∈ notes.short → note.label ∉ shown →
      content? note.label notes.short = some note.content →
      (∀ label numbering, motive (note.label :: shown) label numbering (reference label numbering)) →
      motive shown note.label numbering
        (⟨.inlineNote note.label, (resolveAll reference note.content numbering).1⟩,
          (resolveAll reference note.content numbering).2))
    (listed : ∀ shown label numbering, label ∉ shown → label ∉ notes.short.map (·.label) →
      label ∈ notes.labels → motive shown label numbering
        (.leaf (.footnoteCrossReference label (UInt64.ofNat (numbering.number label).1)),
          (numbering.number label).2))
    (missing : ∀ shown label numbering, label ∉ shown → label ∉ notes.short.map (·.label) →
      label ∉ notes.labels → motive shown label numbering
        (.leaf (.brokenReference label), numbering.warn (.undefinedFootnote label)))
    (label : String) (numbering : Numbering) :
    motive [] label numbering (notes.reference label numbering) := by
  have refers (fuel : Nat) : ∀ shown : List String, shown.Nodup → shown ⊆ notes.short.map (·.label) →
      notes.short.length < fuel + shown.length → ∀ label numbering,
        motive shown label numbering (notes.refer fuel shown label numbering) := by
    induction fuel with
    | zero =>
        intro shown distinct inside enough
        -- More notes would be shown around a reference than there are short ones.
        have few := (distinct.subperm inside).length_le
        rw [List.length_map] at few
        omega
    | succ fuel ih =>
        intro shown distinct inside enough label numbering
        unfold Notes.refer
        split
        · next seen =>
            have member := List.contains_iff_mem.1 seen
            exact circle shown label numbering member (inside member)
        · next unseen =>
            have outside : label ∉ shown := fun member => unseen (List.contains_iff_mem.2 member)
            split
            · next content found =>
                obtain ⟨note, member, rfl, rfl⟩ := exists_note_of_content? found
                -- In the content one more note is being shown, which makes up for the step of the limit.
                have deeper := ih (note.label :: shown) (List.nodup_cons.2 ⟨outside, distinct⟩)
                  (List.cons_subset.2 ⟨mem_of_content? found, inside⟩) (by rw [List.length_cons]; omega)
                exact short shown note _ numbering member outside found deeper
            · next long =>
                have long := content?_eq_none_iff.1 long
                split
                · next some =>
                    obtain ⟨content, found⟩ := Option.isSome_iff_exists.1 some
                    exact listed shown label numbering outside long (mem_of_content? found)
                · next none =>
                    have unknown := content?_eq_none_iff.1 (Option.not_isSome_iff_eq_none.1 none)
                    exact missing shown label numbering outside long unknown
  exact refers _ [] List.nodup_nil (List.nil_subset _) (Nat.lt_succ_self _) label numbering

/-- What references become, short notes inside each other included, is linked and settled. -/
theorem Notes.reference_resolves {notes : Notes} (unnumbered : notes.Unnumbered) :
    Resolves notes.labels notes.reference := by
  refine Notes.reference_induction (motive := fun _ _ numbering made =>
    Resolved notes.labels numbering ([made.1], made.2)) ?circle ?short ?listed ?missing
  case circle => exact fun _ label numbering _ _ => resolved_broken _ label _ numbering
  case short =>
    intro shown note reference numbering member _ _ resolves
    exact (resolveAll_resolved resolves note.content numbering (unnumbered.short note member)).wrap
      ⟨rfl, rfl, rfl⟩ rfl
  case listed =>
    intro shown label numbering _ _ known
    obtain ⟨order, number⟩ := number_spec label numbering
    constructor
    · dsimp only
      rw [order, number]
      exact Links.single known numbering.order
    · simp [leaf, NodeKind.isSettled, NodeKind.isListing, NodeKind.isReference, NodeKind.isDefinition]
  case missing => exact fun _ label numbering _ _ _ => resolved_broken _ label _ numbering

/-- The kinds of the items for notes in the order of their numbers. -/
def itemKinds (order : List String) : List NodeKind :=
  order.mapIdx fun i label => .footnoteItem label (UInt64.ofNat (i + 1))

/-- The items from the number after `n` on, where the order grows from `before` to `after` while
their contents are resolved: there is one for each label, and a label is in the order before or is
referred to in an earlier item. -/
structure Listed (known : List String) (n : Nat) (before after : List String)
    (items : List Node) : Prop where
  links : Links known before after (crossReferencesAll items)
  length : after.length = n + items.length
  kinds : items.map (·.kind) = (itemKinds after).drop n
  contents : ∀ item ∈ items, EveryAll NodeKind.isSettled item.children
  reached : ∀ i label, after[n + i]? = some label → i < items.length →
    label ∈ before ∨ label ∈ (crossReferencesAll (items.take i)).map (·.1)

/-- A label stays at its place when the order grows. -/
theorem stays {order more : List String} {n : Nat} {label : String} (grows : order <+: more)
    (found : order[n]? = some label) : more[n]? = some label := by
  obtain ⟨inside, same⟩ := List.getElem?_eq_some_iff.1 found
  rw [List.prefix_iff_getElem?.1 grows n inside, same]

namespace Listed

variable {n : Nat} {before middle after : List String} {items : List Node}

/-- There are no items when all labels are done. -/
theorem none (known : List String) {order : List String} (done : order.length = n) :
    Listed known n order order [] where
  links := Links.none known order
  length := done
  kinds := by simp [itemKinds, done]
  contents := by simp
  reached := by simp

/-- The item of the next label, in front of those for the labels after it. -/
theorem cons {label : String} {content : List Node} (next : before[n]? = some label)
    (links : Links known before middle (crossReferencesAll content))
    (settled : EveryAll NodeKind.isSettled content)
    (rest : Listed known (n + 1) middle after items) :
    Listed known n before after
      (⟨.footnoteItem label (UInt64.ofNat (n + 1)), content⟩ :: items) where
  links := by
    rw [crossReferencesAll_cons, crossReferencesAll_singleton content rfl]
    exact links.append rest.links
  length := by
    rw [rest.length, List.length_cons]
    omega
  kinds := by
    have same := stays (links.isPrefix.trans rest.links.isPrefix) next
    obtain ⟨inside, same⟩ := List.getElem?_eq_some_iff.1 same
    rw [List.drop_eq_getElem_cons (by simpa [itemKinds] using inside)]
    simp [itemKinds, same, rest.kinds]
  contents := by
    intro item member
    rcases List.mem_cons.1 member with rfl | member
    · exact settled
    · exact rest.contents item member
  reached := by
    intro i other found bound
    cases i with
    | zero =>
        have same := stays (links.isPrefix.trans rest.links.isPrefix) next
        obtain rfl : label = other := Option.some.inj (same.symm.trans found)
        exact .inl (List.mem_of_getElem? next)
    | succ i =>
        rw [List.take_succ_cons, crossReferencesAll_cons, crossReferencesAll_singleton content rfl,
          List.map_append, List.mem_append]
        have found : after[n + 1 + i]? = some other := by
          rw [← found, Nat.add_right_comm, Nat.add_assoc]
        have bound : i < items.length := by simpa using bound
        rcases rest.reached i other found bound with entered | later
        · rcases links.mem_after.1 entered with old | new
          · exact .inl old
          · exact .inr (.inl new)
        · exact .inr (.inr later)

end Listed

/-- The items of the list, for enough fuel to come to the end of the order. -/
theorem Notes.items_listed {notes : Notes} (unnumbered : notes.Unnumbered) (fuel : Nat) :
    ∀ (n : Nat) (numbering : Numbering), n ≤ numbering.order.length → numbering.order.Nodup →
      numbering.order ⊆ notes.labels → notes.listed.length ≤ fuel + n →
      Listed notes.labels n numbering.order (notes.items fuel n numbering).2.order
        (notes.items fuel n numbering).1 := by
  induction fuel with
  | zero =>
      intro n numbering reached distinct known enough
      -- The order has no more labels than there are notes.
      have few : numbering.order.length ≤ notes.listed.length := by
        simpa [labels] using (distinct.subperm known).length_le
      exact Listed.none _ (by omega)
  | succ fuel ih =>
      intro n numbering reached distinct known enough
      unfold items
      split
      · next done =>
          exact Listed.none _ (Nat.le_antisymm (List.getElem?_eq_none_iff.1 done) reached)
      · next label next =>
          have inside : n < numbering.order.length := (List.getElem?_eq_some_iff.1 next).1
          have inner := resolveAll_resolved (reference_resolves unnumbered)
            ((content? label notes.listed).getD []) numbering
            (EveryNote.content? unnumbered.listed label)
          have further := inner.links.isPrefix.length_le
          have rest := ih (n + 1) _ (by omega) (inner.links.nodup distinct)
            (inner.links.subset_known known) (by omega)
          exact Listed.cons next inner.links inner.settled rest

end Footnote

end DocPress
