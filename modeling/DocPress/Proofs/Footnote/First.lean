import Mathlib.Data.List.Count
import DocPress.Proofs.Footnote.InPlace
import DocPress.Proofs.Footnote.Undefined

/-!
Labels that are defined more than once. There is a warning for each definition of a label but one. The
definition that counts is the first one in document order unless that encloses another one of the label;
then nothing changes but the warnings when the later ones are left out. Of definitions of a label inside
each other the innermost counts, since definitions are taken out from the inside.
-/

namespace DocPress.Footnote

open Node

variable {label : String}

/-! ### Definitions of a label -/

/-- The first definition of a label in document order. -/
def firstDefinition? (label : String) (nodes : List Node) : Option Node :=
  (walkAll nodes).find? fun node => node.kind = .footnoteDefinition label

mutual

/-- The outermost definitions in a tree. -/
def definitions : Node → List Node
  | ⟨.footnoteDefinition label, children⟩ => [⟨.footnoteDefinition label, children⟩]
  | ⟨_, children⟩ => definitionsAll children

/-- The outermost definitions in trees. -/
def definitionsAll : List Node → List Node
  | [] => []
  | node :: rest => definitions node ++ definitionsAll rest

end

mutual

/-- What a tree leaves without the definitions of a label: of such a definition, the definitions of other
labels inside it. -/
def drop (label : String) : Node → List Node
  | ⟨kind, children⟩ =>
    if kind = .footnoteDefinition label then definitionsAll (dropAll label children)
    else [⟨kind, dropAll label children⟩]

/-- Trees without the definitions of a label. -/
def dropAll (label : String) : List Node → List Node
  | [] => []
  | node :: rest => drop label node ++ dropAll label rest

end

mutual

/-- A tree without the definitions of a label but the first. -/
def keepFirst (label : String) : Node → Node
  | ⟨kind, children⟩ =>
    if kind = .footnoteDefinition label then ⟨kind, children⟩
    else ⟨kind, keepFirstAll label children⟩

/-- Trees without the definitions of a label but the first. -/
def keepFirstAll (label : String) : List Node → List Node
  | [] => []
  | node :: rest =>
    if .footnoteDefinition label ∈ node.kinds then keepFirst label node :: dropAll label rest
    else node :: keepFirstAll label rest

end

/-! ### What is left without definitions -/

theorem definitions_of_not_definition {kind : NodeKind} (children : List Node)
    (other : kind.isDefinition = false) : definitions ⟨kind, children⟩ = definitionsAll children := by
  cases kind <;> simp [NodeKind.isDefinition] at other <;> rfl

@[simp] theorem stripAll_append (nodes others : List Node) :
    stripAll (nodes ++ others) = stripAll nodes ++ stripAll others := by
  induction nodes with
  | nil => rfl
  | cons node rest ih => rw [List.cons_append, stripAll, stripAll, ih, List.append_assoc]

@[simp] theorem notesAll_append (nodes others : List Node) :
    notesAll (nodes ++ others) = notesAll nodes ++ notesAll others := by
  induction nodes with
  | nil => rfl
  | cons node rest ih => rw [List.cons_append, notesAll, notesAll, ih, List.append_assoc]

mutual

/-- Definitions alone hold the same notes, and leave nothing. -/
theorem definitions_spec : ∀ node : Node,
    stripAll (definitions node) = [] ∧ notesAll (definitions node) = notes node
  | ⟨kind, children⟩ => by
      cases definition : kind.isDefinition with
      | true =>
          obtain ⟨_, rfl⟩ := NodeKind.exists_of_isDefinition definition
          exact ⟨rfl, by rw [definitions, notesAll, notesAll, List.append_nil]⟩
      | false =>
          rw [definitions_of_not_definition children definition,
            notes_of_not_definition children definition]
          exact definitionsAll_spec children

/-- Of the outermost definitions nothing is left in the text, and their notes are all the notes. -/
theorem definitionsAll_spec : ∀ nodes : List Node,
    stripAll (definitionsAll nodes) = [] ∧ notesAll (definitionsAll nodes) = notesAll nodes
  | [] => ⟨rfl, rfl⟩
  | node :: rest => by
      obtain ⟨nothing, same⟩ := definitions_spec node
      obtain ⟨nothing', same'⟩ := definitionsAll_spec rest
      rw [definitionsAll, stripAll_append, notesAll_append, nothing, nothing', same, same', notesAll]
      exact ⟨rfl, rfl⟩

end

/-- The notes of other labels. -/
def without (label : String) (notes : List Note) : List Note :=
  notes.filter fun note => note.label ≠ label

mutual

/-- Without the definitions of a label the text stays, and so do the notes of other labels. -/
theorem drop_spec : ∀ node : Node, stripAll (drop label node) = strip node ∧
    notesAll (drop label node) = without label (notes node)
  | ⟨kind, children⟩ => by
      obtain ⟨text, others⟩ := dropAll_spec children
      rw [drop]
      split
      · next own =>
          subst own
          obtain ⟨nothing, same⟩ := definitionsAll_spec (dropAll label children)
          rw [nothing, same, others, notes, without, without, List.filter_append]
          exact ⟨rfl, by simp⟩
      · next other =>
          cases definition : kind.isDefinition with
          | true =>
              obtain ⟨name, rfl⟩ := NodeKind.exists_of_isDefinition definition
              have different : name ≠ label := fun same => other (same ▸ rfl)
              rw [notesAll, notesAll, notes, notes, text, others, without, without,
                List.filter_append, List.append_nil]
              exact ⟨rfl, by simp [different]⟩
          | false =>
              rw [stripAll, strip_of_not_definition _ definition, strip_of_not_definition _ definition,
                notesAll, notes_of_not_definition _ definition, notes_of_not_definition _ definition,
                text, others]
              exact ⟨rfl, List.append_nil _⟩

/-- Dropping the definitions of a label drops its notes and nothing else. -/
theorem dropAll_spec : ∀ nodes : List Node, stripAll (dropAll label nodes) = stripAll nodes ∧
    notesAll (dropAll label nodes) = without label (notesAll nodes)
  | [] => ⟨rfl, rfl⟩
  | node :: rest => by
      obtain ⟨text, others⟩ := drop_spec node
      obtain ⟨text', others'⟩ := dropAll_spec rest
      rw [dropAll, stripAll_append, notesAll_append, text, text', others, others', stripAll, notesAll,
        without, without, without, List.filter_append]
      exact ⟨rfl, rfl⟩

end

/-! ### Counting definitions -/

mutual

/-- There is a note for each definition of a label. -/
theorem count_label_notes : ∀ node : Node,
    ((notes node).map (·.label)).count label = node.kinds.count (.footnoteDefinition label)
  | ⟨kind, children⟩ => by
      have below := count_label_notesAll children
      rw [kinds_mk]
      cases definition : kind.isDefinition with
      | true =>
          obtain ⟨_, rfl⟩ := NodeKind.exists_of_isDefinition definition
          rw [notes, List.map_append, List.count_append, below, List.count_cons]
          simp [List.count_singleton]
      | false =>
          have other : kind ≠ .footnoteDefinition label := by
            rintro rfl
            cases definition
          rw [notes_of_not_definition children definition, below, List.count_cons_of_ne other]

theorem count_label_notesAll : ∀ nodes : List Node,
    ((notesAll nodes).map (·.label)).count label =
      (kindsAll nodes).count (.footnoteDefinition label)
  | [] => rfl
  | node :: rest => by
      rw [notesAll, List.map_append, List.count_append, count_label_notes node,
        count_label_notesAll rest, kindsAll_cons, List.count_append]

end

/-- Without definitions of a label there are no notes with it. -/
theorem label_ne_of_mem_notes {node : Node} (undefined : .footnoteDefinition label ∉ node.kinds) :
    ∀ note ∈ notes node, note.label ≠ label := by
  rintro note member rfl
  exact undefined (mem_kinds_of_mem_notes node (List.mem_map_of_mem member))

theorem label_ne_of_mem_notesAll {nodes : List Node}
    (undefined : .footnoteDefinition label ∉ kindsAll nodes) :
    ∀ note ∈ notesAll nodes, note.label ≠ label := by
  rintro note member rfl
  exact undefined (mem_kinds_of_mem_notesAll nodes (List.mem_map_of_mem member))

/-! ### The first definition -/

/-- Whether the first of the notes with a label has the given content, and the other notes are the same
without the later ones with the label. -/
def TakesFirst (label : String) (content : List Node) (old new : List Note) : Prop :=
  ∃ before after, old = before ++ ⟨label, content⟩ :: after ∧
    new = before ++ ⟨label, content⟩ :: without label after ∧ ∀ note ∈ before, note.label ≠ label

namespace TakesFirst

variable {content : List Node} {old new : List Note}

theorem behind (takes : TakesFirst label content old new) (more : List Note) :
    TakesFirst label content (old ++ more) (new ++ without label more) := by
  obtain ⟨before, after, rfl, rfl, apart⟩ := takes
  refine ⟨before, after ++ more, ?_, ?_, apart⟩
  · rw [List.append_assoc, List.cons_append]
  · rw [without, without, without, List.filter_append, List.append_assoc, List.cons_append]

theorem front (takes : TakesFirst label content old new) {more : List Note}
    (others : ∀ note ∈ more, note.label ≠ label) :
    TakesFirst label content (more ++ old) (more ++ new) := by
  obtain ⟨before, after, rfl, rfl, apart⟩ := takes
  refine ⟨more ++ before, after, ?_, ?_, List.forall_mem_append.2 ⟨others, apart⟩⟩
  · rw [List.append_assoc]
  · rw [List.append_assoc]

/-- One note with the label is left. -/
theorem count_label (takes : TakesFirst label content old new) :
    (new.map (·.label)).count label = 1 := by
  obtain ⟨before, after, rfl, rfl, apart⟩ := takes
  have none : (before.map (·.label)).count label = 0 := by
    rw [List.count_eq_zero, List.mem_map]
    rintro ⟨note, member, same⟩
    exact apart note member same
  have gone : ((without label after).map (·.label)).count label = 0 := by
    rw [List.count_eq_zero, List.mem_map]
    rintro ⟨note, member, same⟩
    exact of_decide_eq_true (List.mem_filter.1 member).2 same
  rw [List.map_append, List.map_cons, List.count_append, none, List.count_cons_self, gone]

end TakesFirst

/-- A definition of a label is found exactly when there is one. -/
theorem isSome_find?_iff {nodes : List Node} :
    (nodes.find? fun node => node.kind = .footnoteDefinition label).isSome = true ↔
      .footnoteDefinition label ∈ nodes.map (·.kind) := by
  simp [List.find?_isSome]

mutual

/-- The first definition of a label is taken for it if it encloses no other one. -/
theorem keepFirst_spec : ∀ (node first : Node),
    (node.walk.find? fun node => node.kind = .footnoteDefinition label) = some first →
    .footnoteDefinition label ∉ kindsAll first.children →
    strip (keepFirst label node) = strip node ∧
      TakesFirst label (stripAll first.children) (notes node) (notes (keepFirst label node))
  | ⟨kind, children⟩, first, found, lone => by
      rw [walk, List.find?_cons] at found
      rw [keepFirst]
      split
      · next own =>
          subst own
          obtain rfl : Node.mk (.footnoteDefinition label) children = first := by simpa using found
          -- The notes inside a definition come before its own, and here none of them has its label.
          refine ⟨rfl, notesAll children, [], rfl, ?_, label_ne_of_mem_notesAll lone⟩
          rw [notes]
          rfl
      · next other =>
          rw [decide_eq_false other] at found
          obtain ⟨text, takes⟩ := keepFirstAll_spec children first found lone
          cases definition : kind.isDefinition with
          | true =>
              obtain ⟨name, rfl⟩ := NodeKind.exists_of_isDefinition definition
              have different : name ≠ label := fun same => other (same ▸ rfl)
              rw [strip, strip, notes, notes, text]
              refine ⟨rfl, ?_⟩
              have kept := takes.behind [⟨name, stripAll children⟩]
              rwa [without, List.filter_cons_of_pos (by simpa using different)] at kept
          | false =>
              rw [strip_of_not_definition _ definition, strip_of_not_definition _ definition,
                notes_of_not_definition _ definition, notes_of_not_definition _ definition, text]
              exact ⟨rfl, takes⟩

/-- Keeping the first definition keeps the text, and its note is the one that is taken first. -/
theorem keepFirstAll_spec : ∀ (nodes : List Node) (first : Node),
    firstDefinition? label nodes = some first →
    .footnoteDefinition label ∉ kindsAll first.children →
    stripAll (keepFirstAll label nodes) = stripAll nodes ∧
      TakesFirst label (stripAll first.children) (notesAll nodes)
        (notesAll (keepFirstAll label nodes))
  | [], _, found, _ => by cases found
  | node :: rest, first, found, lone => by
      rw [firstDefinition?, walkAll, List.find?_append] at found
      rw [keepFirstAll]
      split
      · next defined =>
          obtain ⟨own, search⟩ := Option.isSome_iff_exists.1 (isSome_find?_iff.2 defined)
          rw [search, Option.some_or] at found
          obtain rfl := Option.some.inj found
          -- The first definition is in this node, so those behind it are left out.
          obtain ⟨text, takes⟩ := keepFirst_spec node own search lone
          obtain ⟨text', others⟩ := dropAll_spec rest
          rw [stripAll, stripAll, text, text', notesAll, notesAll, others]
          exact ⟨rfl, takes.behind (notesAll rest)⟩
      · next undefined =>
          have search := Option.not_isSome_iff_eq_none.1 (undefined ∘ isSome_find?_iff.1)
          rw [search, Option.none_or] at found
          obtain ⟨text, takes⟩ := keepFirstAll_spec rest first found lone
          rw [stripAll, stripAll, text, notesAll, notesAll]
          exact ⟨rfl, takes.front (label_ne_of_mem_notes undefined)⟩

end

mutual

/-- The definition that is kept is the first one. -/
theorem find?_keepFirst : ∀ node : Node, .footnoteDefinition label ∈ node.kinds →
    ((keepFirst label node).walk.find? fun node => node.kind = .footnoteDefinition label) =
      node.walk.find? fun node => node.kind = .footnoteDefinition label
  | ⟨kind, children⟩, _ => by
      rw [keepFirst]
      split
      · rfl
      · next other =>
          rw [walk, walk, List.find?_cons, List.find?_cons, decide_eq_false other]
          exact firstDefinition?_keepFirstAll children

/-- The first definition stays the first when it alone is kept. -/
theorem firstDefinition?_keepFirstAll : ∀ nodes : List Node,
    firstDefinition? label (keepFirstAll label nodes) = firstDefinition? label nodes
  | [] => rfl
  | node :: rest => by
      rw [keepFirstAll]
      split
      · next defined =>
          obtain ⟨first, found⟩ := Option.isSome_iff_exists.1 (isSome_find?_iff.2 defined)
          rw [firstDefinition?, firstDefinition?, walkAll, walkAll, List.find?_append,
            List.find?_append, find?_keepFirst node defined, found, Option.some_or, Option.some_or]
      · rw [firstDefinition?, firstDefinition?, walkAll, walkAll, List.find?_append,
          List.find?_append]
        exact congrArg _ (firstDefinition?_keepFirstAll rest)

end

/-! ### The notes that count -/

variable {notes : List Note} {seen : List String}

/-- A note whose label was seen before is a double. -/
theorem firsts_of_mem {note : Note} (known : note.label ∈ seen) :
    firsts seen (note :: notes) =
      ((firsts seen notes).1, note.label :: (firsts seen notes).2) := by
  rw [firsts, if_pos (List.contains_iff_mem.2 known)]

theorem firsts_of_not_mem {note : Note} (unknown : note.label ∉ seen) :
    firsts seen (note :: notes) =
      (note :: (firsts (note.label :: seen) notes).1, (firsts (note.label :: seen) notes).2) := by
  rw [firsts, if_neg (unknown ∘ List.contains_iff_mem.1)]

/-- All notes with a label but the first are doubled. -/
theorem count_doubled (label : String) (notes : List Note) (seen : List String) :
    (firsts seen notes).2.count label =
      (notes.map (·.label)).count label - if label ∈ seen then 0 else 1 := by
  induction notes generalizing seen with
  | nil => simp [firsts]
  | cons note rest ih =>
      by_cases known : note.label ∈ seen
      · rw [firsts_of_mem known, List.map_cons, List.count_cons, List.count_cons, ih]
        by_cases same : note.label = label
        · subst same
          simp [known]
        · simp [same]
      · rw [firsts_of_not_mem known, List.map_cons, List.count_cons, ih]
        by_cases same : note.label = label
        · subst same
          simp [known]
        · simp [same, Ne.symm same]

theorem without_cons_self {note : Note} (same : note.label = label) :
    without label (note :: notes) = without label notes :=
  List.filter_cons_of_neg (by simpa using same)

theorem without_cons_other {note : Note} (other : note.label ≠ label) :
    without label (note :: notes) = note :: without label notes :=
  List.filter_cons_of_pos (by simpa using other)

/-- Where a label is taken its later notes are doubled, and nothing else changes without them. -/
theorem firsts_without (known : label ∈ seen) :
    firsts seen (without label notes) =
      ((firsts seen notes).1, (firsts seen notes).2.filter (· ≠ label)) := by
  induction notes generalizing seen with
  | nil => rfl
  | cons note rest ih =>
      by_cases same : note.label = label
      · subst same
        rw [without_cons_self rfl, firsts_of_mem known, ih known]
        simp
      · rw [without_cons_other same]
        by_cases taken : note.label ∈ seen
        · rw [firsts_of_mem taken, firsts_of_mem taken, ih known]
          simp [same]
        · rw [firsts_of_not_mem taken, firsts_of_not_mem taken, ih (List.mem_cons_of_mem _ known)]

/-- The first note with a label counts. -/
theorem TakesFirst.firsts_eq {content : List Node} {old new : List Note}
    (takes : TakesFirst label content old new) (unknown : label ∉ seen) :
    firsts seen new = ((firsts seen old).1, (firsts seen old).2.filter (· ≠ label)) ∧
      content? label (firsts seen old).1 = some content := by
  obtain ⟨before, after, rfl, rfl, apart⟩ := takes
  induction before generalizing seen with
  | nil =>
      have fresh : (Note.mk label content).label ∉ seen := unknown
      rw [List.nil_append, List.nil_append, firsts_of_not_mem fresh, firsts_of_not_mem fresh,
        firsts_without List.mem_cons_self, content?, List.find?_cons_of_pos (by simp)]
      exact ⟨rfl, rfl⟩
  | cons note rest ih =>
      rw [List.forall_mem_cons] at apart
      rw [List.cons_append, List.cons_append]
      by_cases taken : note.label ∈ seen
      · obtain ⟨same, found⟩ := ih unknown apart.2
        rw [firsts_of_mem taken, firsts_of_mem taken, same]
        exact ⟨by simp [apart.1], found⟩
      · have still : label ∉ note.label :: seen := by
          rw [List.mem_cons, not_or]
          exact ⟨Ne.symm apart.1, unknown⟩
        obtain ⟨same, found⟩ := ih still apart.2
        rw [firsts_of_not_mem taken, firsts_of_not_mem taken, same, content?,
          List.find?_cons_of_neg (by simpa using apart.1)]
        exact ⟨rfl, found⟩

/-! ### Earlier warnings -/

/-- A state of numbering with warnings from before. -/
def Numbering.after (early : List Warning) (numbering : Numbering) : Numbering :=
  { numbering with warnings := early ++ numbering.warnings }

section Early

variable {early : List Warning} {reference : String → Numbering → Node × Numbering}

/-- Whether what references become does not depend on the warnings from before. -/
def Ignores (early : List Warning) (reference : String → Numbering → Node × Numbering) : Prop :=
  ∀ label numbering, reference label (numbering.after early) =
    ((reference label numbering).1, (reference label numbering).2.after early)

theorem warn_after (warning : Warning) (numbering : Numbering) :
    (numbering.after early).warn warning = (numbering.warn warning).after early := by
  rw [Numbering.warn, Numbering.warn, Numbering.after, Numbering.after, List.append_assoc]

/-- The number of a label does not depend on the earlier warnings. -/
theorem number_after (label : String) (numbering : Numbering) :
    (numbering.after early).number label =
      ((numbering.number label).1, (numbering.number label).2.after early) := by
  by_cases member : label ∈ numbering.order
  · have still : label ∈ (numbering.after early).order := member
    rw [number_of_mem member, number_of_mem still]
    rfl
  · have still : label ∉ (numbering.after early).order := member
    rw [number_of_not_mem member, number_of_not_mem still]
    rfl

theorem Ignores.resolveAll (ignores : Ignores early reference) (nodes : List Node)
    (numbering : Numbering) :
    resolveAll reference nodes (numbering.after early) =
      ((resolveAll reference nodes numbering).1, (resolveAll reference nodes numbering).2.after early) := by
  induction nodes using references_induction generalizing numbering with
  | nil => rfl
  | reference label children rest behind =>
      rw [resolveAll_reference, resolveAll_reference, ignores, behind]
  | other kind children rest refers below behind =>
      rw [resolveAll_other refers, resolveAll_other refers, below, behind]

/-- What references become does not depend on the earlier warnings. -/
theorem Notes.refer_ignores (notes : Notes) (fuel : Nat) :
    ∀ shown, Ignores early (notes.refer fuel shown) := by
  induction fuel with
  | zero =>
      intro shown label numbering
      rw [refer, refer, warn_after]
  | succ fuel ih =>
      intro shown label numbering
      rw [refer, refer]
      split
      · rw [warn_after]
      · split
        · next content found => rw [(ih (label :: shown)).resolveAll]
        · split
          · rw [number_after]
          · rw [warn_after]

/-- The items do not depend on the earlier warnings. -/
theorem Notes.items_after (notes : Notes) (fuel n : Nat) (numbering : Numbering) :
    notes.items fuel n (numbering.after early) =
      ((notes.items fuel n numbering).1, (notes.items fuel n numbering).2.after early) := by
  induction fuel generalizing n numbering with
  | zero => rfl
  | succ fuel ih =>
      have order : (numbering.after early).order = numbering.order := rfl
      rw [items, items, order]
      split
      · rfl
      · next label next =>
          have ignores : Ignores early notes.reference := refer_ignores notes _ []
          have content := ignores.resolveAll ((content? label notes.listed).getD []) numbering
          simp only [content, ih]

end Early

/-- Whether a warning is none for a doubled definition. -/
def IsLater (warning : Warning) : Prop :=
  ∀ label, warning ≠ .duplicateFootnote label

section Later

variable {notes : Notes} {around : List String} {before after : Numbering}
  {nodes nodes' items : List Node} {n : Nat} {p : Warning → Prop}

/-- Showing notes warns of circles and of references without a note. -/
theorem Shown.forall_warnings (circle : ∀ label, p (.footnoteCycle label))
    (missing : ∀ label, p (.undefinedFootnote label))
    (shown : Shown notes around before nodes after nodes') (all : ∀ warning ∈ before.warnings, p warning) :
    ∀ warning ∈ after.warnings, p warning := by
  have warn {last : Warning} (here : p last) {numbering : Numbering}
      (all : ∀ warning ∈ numbering.warnings, p warning) :
      ∀ warning ∈ (numbering.warn last).warnings, p warning :=
    List.forall_mem_append.2 ⟨all, List.forall_mem_singleton.2 here⟩
  induction shown with
  | nil => exact all
  | node other below later first second => exact second (first all)
  | circle inside later ih => exact ih (warn (circle _) all)
  | short outside found inner later first second => exact second (first all)
  | listed outside long known later ih =>
      apply ih
      rwa [number_warnings]
  | missing outside long unknown later ih => exact ih (warn (missing _) all)

/-- Making the items gives no warnings but those of circles and of undefined notes. -/
theorem Itemized.forall_warnings (circle : ∀ label, p (.footnoteCycle label))
    (missing : ∀ label, p (.undefinedFootnote label))
    (itemized : Itemized notes n before after items) (all : ∀ warning ∈ before.warnings, p warning) :
    ∀ warning ∈ after.warnings, p warning := by
  induction itemized with
  | done none => exact all
  | item next shown later ih => exact ih (shown.forall_warnings circle missing all)

end Later

/-! ### Documents -/

/-- What becomes of a document depends on its text and on the notes that count. Only the warnings for
doubled definitions, which come first, depend on the others. -/
theorem exists_apply (options : FootnoteOptions) (tree : Node) (notes : List Note) :
    ∃ result later, (∀ warning ∈ later, IsLater warning) ∧
      ∀ document, collect options document = (tree, notes) → apply options document =
        (result, (firsts [] (notesAll document.children)).2.map .duplicateFootnote ++ later) := by
  let resolved := resolveAll (Notes.ofList options notes).reference tree.children ⟨[], []⟩
  let listed := (Notes.ofList options notes).items (Notes.ofList options notes).listed.length 0
    resolved.2
  refine ⟨⟨tree.kind, resolved.1 ++ if listed.1.isEmpty then [] else [⟨.footnoteList, listed.1⟩]⟩,
    listed.2.warnings, ?later, ?same⟩
  case later =>
    obtain ⟨shown, itemized, -⟩ := (Notes.ofList options notes).exists_outcome tree.children []
    have circle : ∀ label, IsLater (.footnoteCycle label) := fun _ => nofun
    have missing : ∀ label, IsLater (.undefinedFootnote label) := fun _ => nofun
    have text := shown.forall_warnings circle missing fun _ member => absurd member List.not_mem_nil
    exact itemized.forall_warnings circle missing text
  case same =>
    intro document same
    have start : (⟨[], (firsts [] (notesAll document.children)).2.map .duplicateFootnote⟩ : Numbering) =
        Numbering.after ((firsts [] (notesAll document.children)).2.map .duplicateFootnote)
          ⟨[], []⟩ := by
      rw [Numbering.after, List.append_nil]
    have ignores : Ignores ((firsts [] (notesAll document.children)).2.map .duplicateFootnote)
        (Notes.ofList options notes).reference := Notes.refer_ignores _ _ []
    rw [apply_eq, resolve_eq, same, start, ignores.resolveAll, Notes.items_after]
    rfl

/-- What is collected of a document depends on its text and on the notes that count. -/
theorem collect_congr (options : FootnoteOptions) {document other : Node} (kind : other.kind = document.kind)
    (text : stripAll other.children = stripAll document.children)
    (notes : (firsts [] (notesAll other.children)).1 = (firsts [] (notesAll document.children)).1) :
    collect options other = collect options document := by
  rw [collect, collect, kind, text, notes]

/-- The warning of a double is given once for each double of the label. -/
theorem count_duplicates (doubled : List String) {later : List Warning}
    (other : ∀ warning ∈ later, IsLater warning) :
    (doubled.map Warning.duplicateFootnote ++ later).count (.duplicateFootnote label) =
      doubled.count label := by
  have none : later.count (.duplicateFootnote label) = 0 := by
    rw [List.count_eq_zero]
    exact fun member => other _ member label rfl
  have inject : Function.Injective Warning.duplicateFootnote := fun _ _ => Warning.duplicateFootnote.inj
  rw [List.count_append, none, List.count_map_of_injective doubled _ inject, Nat.add_zero]

/-- Without the warnings of one label those of the others are left. -/
theorem filter_duplicates (doubled : List String) {later : List Warning}
    (other : ∀ warning ∈ later, IsLater warning) :
    (doubled.map Warning.duplicateFootnote ++ later).filter (· ≠ .duplicateFootnote label) =
      (doubled.filter (· ≠ label)).map Warning.duplicateFootnote ++ later := by
  have kept : later.filter (· ≠ .duplicateFootnote label) = later :=
    List.filter_eq_self.2 fun warning member => decide_eq_true (other warning member label)
  rw [List.filter_append, kept, List.filter_map]
  congr 3
  funext name
  simp

/-- There is a warning for each definition of a label but one. If the first definition encloses no other
one, it is the one that counts: without the others everything but these warnings stays. -/
theorem stage_takes_first (highlighter : Syntax.Highlighter) (options : FootnoteOptions)
    {document : Node} (root : document.kind = .document) (label : String) :
    ∃ tree warnings, (Stage.footnotes options).apply highlighter document = .ok (tree, warnings) ∧
      warnings.count (.duplicateFootnote label) =
        document.kinds.count (.footnoteDefinition label) - 1 ∧
      ∀ first, firstDefinition? label document.children = some first →
        .footnoteDefinition label ∉ kindsAll first.children →
        content? label (firsts [] (notesAll document.children)).1 = some (stripAll first.children) ∧
          (keepFirst label document).kinds.count (.footnoteDefinition label) = 1 ∧
          firstDefinition? label (keepFirst label document).children = some first ∧
          (Stage.footnotes options).apply highlighter (keepFirst label document) =
            .ok (tree, warnings.filter (· ≠ .duplicateFootnote label)) := by
  obtain ⟨_, children⟩ := document
  obtain rfl : _ = NodeKind.document := root
  obtain ⟨result, later, other, applied⟩ := exists_apply options
    (collect options ⟨.document, children⟩).1 (collect options ⟨.document, children⟩).2
  have whole := applied ⟨.document, children⟩ rfl
  refine ⟨result, (firsts [] (notesAll children)).2.map .duplicateFootnote ++ later, ?done, ?warned,
    ?first⟩
  case done => rw [Stage.apply, if_pos rfl, whole]
  case warned =>
    rw [count_duplicates _ other, count_doubled, count_label_notesAll, kinds_mk,
      List.count_cons_of_ne (by simp), if_neg List.not_mem_nil]
  case first =>
    intro first found lone
    obtain ⟨text, takes⟩ := keepFirstAll_spec children first found lone
    obtain ⟨same, content⟩ := takes.firsts_eq List.not_mem_nil
    have root : keepFirst label ⟨.document, children⟩ = ⟨.document, keepFirstAll label children⟩ := by
      rw [keepFirst, if_neg (by simp)]
    rw [root]
    refine ⟨content, ?one, ?still, ?done⟩
    case one =>
      rw [kinds_mk, List.count_cons_of_ne (by simp), ← count_label_notesAll]
      exact takes.count_label
    case still => exact (firstDefinition?_keepFirstAll children).trans found
    case done =>
      have collected : collect options ⟨.document, keepFirstAll label children⟩ =
          collect options ⟨.document, children⟩ := collect_congr options rfl text (by rw [same])
      rw [Stage.apply, if_pos rfl, applied _ collected, same, filter_duplicates _ other]

/-- A label that is defined inside another definition first, then around a definition of a third label,
and then inside that definition again. -/
theorem stage_takes_first_nested :
    let first : Node := ⟨.footnoteDefinition "a", [⟨.paragraph, [.text "one"]⟩]⟩
    let page : Node := .document
      [⟨.paragraph, [.leaf (.footnoteReference "a"), .leaf (.footnoteReference "c")]⟩,
        ⟨.footnoteDefinition "b", [⟨.blockQuote, [first]⟩]⟩,
        ⟨.footnoteDefinition "a", [⟨.paragraph, [.text "two"]⟩,
          ⟨.footnoteDefinition "c", [⟨.paragraph, [.leaf (.footnoteReference "a")]⟩,
            ⟨.footnoteDefinition "a", [⟨.paragraph, [.text "three"]⟩]⟩]⟩]⟩]
    page.kind = .document ∧ firstDefinition? "a" page.children = some first ∧
      .footnoteDefinition "a" ∉ kindsAll first.children ∧
      ∃ tree warnings, (Stage.footnotes {}).apply Syntax.standard page = .ok (tree, warnings) ∧
        warnings.count (.duplicateFootnote "a") = 2 ∧
        (Stage.footnotes {}).apply Syntax.standard (keepFirst "a" page) =
          .ok (tree, warnings.filter (· ≠ .duplicateFootnote "a")) := by
  intro first page
  have found : firstDefinition? "a" page.children = some first := by decide +kernel
  have lone : .footnoteDefinition "a" ∉ kindsAll first.children := by decide +kernel
  have three : page.kinds.count (.footnoteDefinition "a") = 3 := by decide +kernel
  have root : page.kind = .document := rfl
  obtain ⟨tree, warnings, done, warned, taken⟩ := stage_takes_first Syntax.standard {} root "a"
  rw [three] at warned
  obtain ⟨-, -, -, same⟩ := taken first found lone
  exact ⟨root, found, lone, tree, warnings, done, warned, same⟩

/-- Of two definitions of a label inside each other the inner one counts, though the outer one comes
first. -/
theorem stage_takes_inner :
    let page : Node := .document
      [⟨.paragraph, [.leaf (.footnoteReference "a")]⟩,
        ⟨.footnoteDefinition "a", [⟨.paragraph, [.text "outer"]⟩,
          ⟨.footnoteDefinition "a", [⟨.paragraph, [.text "inner"]⟩]⟩]⟩]
    (firstDefinition? "a" page.children).map (stripAll ·.children) =
        some [⟨.paragraph, [.text "outer"]⟩] ∧
      (Stage.footnotes {}).apply Syntax.standard page = .ok
        (.document [⟨.paragraph, [.leaf (.footnoteCrossReference "a" 1)]⟩,
          ⟨.footnoteList, [⟨.footnoteItem "a" 1, [⟨.paragraph, [.text "inner"]⟩]⟩]⟩],
        [.duplicateFootnote "a"]) := by
  intro page
  have outer : (firstDefinition? "a" page.children).map (stripAll ·.children) =
      some [⟨.paragraph, [.text "outer"]⟩] := by decide +kernel
  have root : page.kind = .document := rfl
  refine ⟨outer, ?_⟩
  rw [Stage.apply, if_pos root]
  exact congrArg Except.ok (by decide +kernel)

end DocPress.Footnote
