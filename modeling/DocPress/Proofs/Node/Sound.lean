import DocPress.Node
import DocPress.Recognizer

/-!
Sound trees. The expressions of a sound tree have names, and raw HTML in it ends in an opening brace
only where nothing but the end of an element, a list of footnotes or the end of the page comes behind.
As long as the tree has not become a page, its tables hold heads and rows alone.
-/

namespace DocPress

namespace NodeKind

/-- Whether the markup of the kind may be that of its children alone. -/
def isTransparent : NodeKind → Bool
  | .document | .fragment | .custom .. => true
  | _ => false

/-- Whether the kind is a list of footnotes. -/
def isFootnoteList : NodeKind → Bool
  | .footnoteList => true
  | _ => false

/-- Whether the kind is a table. -/
def isTable : NodeKind → Bool
  | .table _ => true
  | _ => false

/-- Whether the kind is a part of a table as it is written. -/
def isTablePart : NodeKind → Bool
  | .tableHead | .tableRow => true
  | _ => false

/-- Whether a kind is sound: an expression has a name, and raw HTML ends in a brace only where it may;
`last` says whether it may. -/
def IsSound (last : Bool) : NodeKind → Prop
  | .expression name => Recognizer.isName name.toList = true
  | .html value => last = true ∨ value.toList.getLast? ≠ some '{'
  | _ => True

/-- Whether the markup of the kind has no raw HTML at its end. -/
def isClosed : NodeKind → Bool
  | .document | .fragment | .custom .. | .html _ => false
  | _ => true

theorem isTransparent_of_isClosed {kind : NodeKind} (closed : kind.isClosed = true) :
    kind.isTransparent = false := by
  cases kind <;> first | rfl | cases closed

theorem isSound_of_isClosed {kind : NodeKind} (closed : kind.isClosed = true) {last more : Bool}
    (sound : kind.IsSound last) : kind.IsSound more := by
  cases kind <;> first | exact sound | cases closed

theorem IsSound.mono {kind : NodeKind} {last more : Bool} (sound : kind.IsSound last)
    (allows : last = true → more = true) : kind.IsSound more := by
  cases kind with
  | html value => exact Or.imp_left allows sound
  | _ => exact sound

end NodeKind

namespace Node

/-- Whether a node is a list of footnotes. -/
def isFootnoteList (node : Node) : Bool :=
  node.kind.isFootnoteList

/-- Whether a table holds its parts alone. -/
def HoldsParts (kind : NodeKind) (children : List Node) : Prop :=
  kind.isTable = true → ∀ child ∈ children, child.kind.isTablePart = true

mutual

/-- Whether a tree is sound; `written` says whether its tables are to be as they are written, and
`last` whether raw HTML may end in a brace at its end. -/
def IsSound (written last : Bool) : Node → Prop
  | ⟨kind, children⟩ =>
    kind.IsSound last ∧ (written = true → HoldsParts kind children) ∧
      AreSound written (last || !kind.isTransparent) children

/-- Whether trees side by side are sound. Only lists of footnotes come behind raw HTML that ends in a
brace. -/
def AreSound (written last : Bool) : List Node → Prop
  | [] => True
  | node :: rest =>
    IsSound written (last && rest.all isFootnoteList) node ∧ AreSound written last rest

end

theorem holdsParts {kind : NodeKind} (other : kind.isTable = false) (children : List Node) {p : Prop} :
    p → HoldsParts kind children :=
  fun _ table => absurd table (by simp [other])

variable {written last : Bool} {kind : NodeKind} {children nodes : List Node} {node : Node}

theorem isSound_mk : IsSound written last ⟨kind, children⟩ ↔
    kind.IsSound last ∧ (written = true → HoldsParts kind children) ∧
      AreSound written (last || !kind.isTransparent) children := by
  rw [IsSound]

@[simp] theorem areSound_nil : AreSound written last [] := by
  rw [AreSound]
  trivial

theorem areSound_cons {rest : List Node} : AreSound written last (node :: rest) ↔
    IsSound written (last && rest.all isFootnoteList) node ∧ AreSound written last rest := by
  rw [AreSound]

theorem areSound_singleton : AreSound written last [node] ↔ IsSound written last node := by
  simp [areSound_cons]

theorem areSound_append {first second : List Node} : AreSound written last (first ++ second) ↔
    AreSound written (last && second.all isFootnoteList) first ∧ AreSound written last second := by
  induction first with
  | nil => simp
  | cons node rest ih =>
      rw [List.cons_append, areSound_cons, areSound_cons, ih, List.all_append, and_assoc]
      have same : (last && (rest.all isFootnoteList && second.all isFootnoteList)) =
          (last && second.all isFootnoteList && rest.all isFootnoteList) := by
        rw [Bool.and_right_comm, Bool.and_assoc]
      rw [same]

theorem isSound_leaf (sound : kind.IsSound last) : IsSound written last (leaf kind) :=
  isSound_mk.2 ⟨sound, fun _ _ _ member => absurd member List.not_mem_nil, areSound_nil⟩

/-! ### Ends -/

mutual

/-- Where raw HTML may end in a brace it need not. -/
theorem IsSound.mono : ∀ {node : Node} {last more : Bool}, IsSound written last node →
    (last = true → more = true) → IsSound written more node
  | ⟨kind, children⟩, last, more, sound, allows => by
      rw [isSound_mk] at sound ⊢
      refine ⟨sound.1.mono allows, sound.2.1, sound.2.2.mono fun free => ?_⟩
      rw [Bool.or_eq_true] at free ⊢
      exact free.imp_left allows

theorem AreSound.mono : ∀ {nodes : List Node} {last more : Bool}, AreSound written last nodes →
    (last = true → more = true) → AreSound written more nodes
  | [], last, more, _, _ => areSound_nil
  | node :: rest, last, more, sound, allows => by
      rw [areSound_cons] at sound ⊢
      refine ⟨sound.1.mono fun free => ?_, sound.2.mono allows⟩
      rw [Bool.and_eq_true] at free ⊢
      exact free.imp_left allows

end

theorem IsSound.end (sound : IsSound written last node) : IsSound written true node :=
  sound.mono fun _ => rfl

theorem AreSound.end (sound : AreSound written last nodes) : AreSound written true nodes :=
  sound.mono fun _ => rfl

theorem IsSound.below (sound : IsSound written last node) : AreSound written true node.children := by
  obtain ⟨kind, children⟩ := node
  exact (isSound_mk.1 sound).2.2.end

/-- Each of sound trees is sound for itself. -/
theorem AreSound.forall (sound : AreSound written last nodes) :
    ∀ node ∈ nodes, IsSound written true node := by
  induction nodes with
  | nil => exact fun _ member => absurd member List.not_mem_nil
  | cons node rest ih =>
      rw [areSound_cons] at sound
      exact List.forall_mem_cons.2 ⟨sound.1.end, ih sound.2⟩

/-- A node that is wrapped in an element, or is no raw HTML, may stand anywhere. -/
theorem isSound_of_isClosed (closed : node.kind.isClosed = true) :
    IsSound written last node ↔ IsSound written true node := by
  obtain ⟨kind, children⟩ := node
  rw [isSound_mk, isSound_mk, NodeKind.isTransparent_of_isClosed closed]
  simp only [Bool.not_false, Bool.or_true]
  exact and_congr_left fun _ =>
    ⟨NodeKind.isSound_of_isClosed closed, NodeKind.isSound_of_isClosed closed⟩

/-- Trees of closed kinds are sound when each one is. -/
theorem areSound_of_isClosed (closed : ∀ node ∈ nodes, node.kind.isClosed = true) :
    AreSound written last nodes ↔ ∀ node ∈ nodes, IsSound written true node := by
  refine ⟨AreSound.forall, fun each => ?_⟩
  induction nodes with
  | nil => exact areSound_nil
  | cons node rest ih =>
      rw [List.forall_mem_cons] at closed each
      exact areSound_cons.2 ⟨(isSound_of_isClosed closed.1).2 each.1, ih closed.2 each.2⟩

end Node

/-! ### Replacing trees -/

/-- Whether a node of the one kind may become a node of the other one. -/
structure NodeKind.Replaces (old new : NodeKind) : Prop where
  sound : ∀ {last}, old.IsSound last → new.IsSound last
  wraps : old.isTransparent = false → new.isTransparent = false
  table : new.isTable = true → old.isTable = true
  list : old.isFootnoteList = true → new.isFootnoteList = true
  part : old.isTablePart = true → new.isTablePart = true

/-- Whether trees may take the place of others: they are sound where those are, lists of footnotes if
those are, and parts of a table if those are. -/
structure Node.Replaces (written : Bool) (old new : List Node) : Prop where
  sound : ∀ {last}, AreSound written last old → AreSound written last new
  lists : old.all isFootnoteList = true → new.all isFootnoteList = true
  parts : (∀ node ∈ old, node.kind.isTablePart = true) → ∀ node ∈ new, node.kind.isTablePart = true

theorem NodeKind.Replaces.refl (kind : NodeKind) : Replaces kind kind :=
  ⟨id, id, id, id, id⟩

/-- A closed kind may replace any other but a list of notes or a part of a table. -/
theorem NodeKind.Replaces.of_isClosed {old new : NodeKind} (closed : new.isClosed = true)
    (sound : new.IsSound true) (table : new.isTable = false) (list : old.isFootnoteList = false)
    (part : old.isTablePart = false) : Replaces old new :=
  ⟨fun _ => isSound_of_isClosed closed sound, fun _ => isTransparent_of_isClosed closed,
    by simp [table], by simp [list], by simp [part]⟩

theorem NodeKind.Replaces.text (value next : String) : Replaces (.text value) (.text next) :=
  .of_isClosed rfl trivial rfl rfl rfl

namespace Node.Replaces

variable {written : Bool} {old new first second : List Node}

theorem refl (nodes : List Node) : Replaces written nodes nodes :=
  ⟨id, id, id⟩

theorem trans {middle : List Node} (one : Replaces written old middle)
    (two : Replaces written middle new) : Replaces written old new :=
  ⟨two.sound ∘ one.sound, two.lists ∘ one.lists, two.parts ∘ one.parts⟩

/-- Trees side by side are replaced one by one. -/
theorem append {old' new' : List Node} (one : Replaces written old new)
    (two : Replaces written old' new') : Replaces written (old ++ old') (new ++ new') where
  sound sound := by
    rw [areSound_append] at sound ⊢
    refine ⟨(one.sound sound.1).mono fun free => ?_, two.sound sound.2⟩
    rw [Bool.and_eq_true] at free ⊢
    exact free.imp_right two.lists
  lists all := by
    rw [List.all_append, Bool.and_eq_true] at all ⊢
    exact all.imp one.lists two.lists
  parts each := by
    rw [List.forall_mem_append] at each ⊢
    exact each.imp one.parts two.parts

theorem cons {node node' : Node} (head : Replaces written [node] [node'])
    (tail : Replaces written old new) : Replaces written (node :: old) (node' :: new) :=
  head.append tail

theorem map {f : Node → Node} {nodes : List Node}
    (each : ∀ node ∈ nodes, Replaces written [node] [f node]) :
    Replaces written nodes (nodes.map f) := by
  induction nodes with
  | nil => exact refl []
  | cons node rest ih =>
      rw [List.forall_mem_cons] at each
      exact each.1.cons (ih each.2)

/-- A fragment may be dissolved. -/
theorem of_fragment {node : Node} (fragment : node.kind = .fragment) :
    Replaces written [node] node.children := by
  obtain ⟨kind, children⟩ := node
  obtain rfl : kind = .fragment := fragment
  refine ⟨fun sound => ?_, ?_, ?_⟩
  · rw [areSound_singleton, isSound_mk] at sound
    exact sound.2.2.mono fun free => by simpa [NodeKind.isTransparent] using free
  · simp [isFootnoteList, NodeKind.isFootnoteList]
  · simp [NodeKind.isTablePart]

/-- Nodes may be left out. -/
theorem of_sublist (sub : new.Sublist old) : Replaces written old new := by
  induction sub with
  | slnil => exact refl []
  | cons node _ ih =>
      refine trans ⟨fun sound => (areSound_cons.1 sound).2, fun all => ?_, fun each => ?_⟩ ih
      · rw [List.all_cons, Bool.and_eq_true] at all
        exact all.2
      · exact (List.forall_mem_cons.1 each).2
  | cons_cons node _ ih => exact (refl [node]).append ih

/-- A node is replaced by changing its kind and replacing its children. -/
theorem node {kind kind' : NodeKind} (kinds : kind.Replaces kind')
    (inside : Replaces written old new) : Replaces written [⟨kind, old⟩] [⟨kind', new⟩] where
  sound sound := by
    rw [areSound_singleton, isSound_mk] at sound ⊢
    obtain ⟨here, holds, below⟩ := sound
    refine ⟨kinds.sound here, fun shape table => inside.parts (holds shape (kinds.table table)),
      (inside.sound below).mono fun free => ?_⟩
    rw [Bool.or_eq_true, Bool.not_eq_true'] at free ⊢
    exact free.imp_right kinds.wraps
  lists all := by
    rw [List.all_cons, Bool.and_eq_true] at all ⊢
    exact all.imp_left kinds.list
  parts each := by
    rw [List.forall_mem_singleton] at each ⊢
    exact kinds.part each

/-- A node that may stand anywhere takes the place of trees among which there is one that is no list of
footnotes and no part of a table. -/
theorem of_isClosed {node node' : Node} (member : node ∈ old)
    (list : node.isFootnoteList = false) (part : node.kind.isTablePart = false)
    (closed : node'.kind.isClosed = true)
    (sound : AreSound written true old → IsSound written true node') :
    Replaces written old [node'] where
  sound first := areSound_singleton.2 ((isSound_of_isClosed closed).2 (sound first.end))
  lists all := absurd (List.all_eq_true.1 all node member) (by simp [list])
  parts each := absurd (each node member) (by simp [part])

end Node.Replaces

end DocPress
