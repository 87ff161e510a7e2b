import DocPress.Node

/-!
The kinds in a tree. A tree satisfies a property of kinds when all of its nodes do, at every depth;
this is what passes over a tree are shown to keep or to bring about. Its nodes are told apart by their
places.
-/

namespace DocPress

/-- A kind that counts as a text is the kind of a text. -/
theorem NodeKind.exists_of_isText {kind : NodeKind} (text : kind.isText = true) :
    ∃ value, kind = .text value := by
  cases kind with
  | text value => exact ⟨value, rfl⟩
  | _ => cases text

namespace Node

/-- The kinds of the nodes of a list of trees in document order. -/
def kindsAll (nodes : List Node) : List NodeKind :=
  (walkAll nodes).map (·.kind)

@[simp] theorem kinds_mk (kind : NodeKind) (children : List Node) :
    (Node.mk kind children).kinds = kind :: kindsAll children := by
  simp [kinds, walk, kindsAll]

@[simp] theorem kindsAll_nil : kindsAll [] = [] := rfl

@[simp] theorem kindsAll_cons (node : Node) (rest : List Node) :
    kindsAll (node :: rest) = node.kinds ++ kindsAll rest := by
  simp [kindsAll, walkAll, kinds]

@[simp] theorem kindsAll_append (first second : List Node) :
    kindsAll (first ++ second) = kindsAll first ++ kindsAll second := by
  induction first with
  | nil => rfl
  | cons node rest ih => simp [ih]

/-- All nodes of a tree have a kind that satisfies `p`. -/
def Every (p : NodeKind → Prop) (node : Node) : Prop :=
  ∀ kind ∈ node.kinds, p kind

/-- All nodes of a list of trees have a kind that satisfies `p`. -/
def EveryAll (p : NodeKind → Prop) (nodes : List Node) : Prop :=
  ∀ kind ∈ kindsAll nodes, p kind

variable {p q : NodeKind → Prop}

@[simp] theorem every_mk {kind : NodeKind} {children : List Node} :
    Every p ⟨kind, children⟩ ↔ p kind ∧ EveryAll p children := by
  simp [Every, EveryAll]

@[simp] theorem everyAll_nil : EveryAll p [] := by
  simp [EveryAll]

@[simp] theorem everyAll_cons {node : Node} {rest : List Node} :
    EveryAll p (node :: rest) ↔ Every p node ∧ EveryAll p rest := by
  simp only [EveryAll, Every, kindsAll_cons, List.mem_append]
  constructor
  · intro every
    exact ⟨fun kind member => every kind (.inl member), fun kind member => every kind (.inr member)⟩
  · rintro ⟨head, tail⟩ kind (member | member)
    · exact head kind member
    · exact tail kind member

@[simp] theorem everyAll_append {first second : List Node} :
    EveryAll p (first ++ second) ↔ EveryAll p first ∧ EveryAll p second := by
  induction first with
  | nil => simp
  | cons node rest ih => simp [ih, and_assoc]

/-- Every node of trees has a property when every node of each tree does. -/
theorem everyAll_iff_forall {nodes : List Node} :
    EveryAll p nodes ↔ ∀ node ∈ nodes, Every p node := by
  induction nodes with
  | nil => simp
  | cons node rest ih => simp [ih]

/-- A kind in one of the trees is one of all kinds. -/
theorem mem_kindsAll {kind : NodeKind} {node : Node} {nodes : List Node} (member : node ∈ nodes)
    (inside : kind ∈ node.kinds) : kind ∈ kindsAll nodes := by
  induction nodes with
  | nil => cases member
  | cons first rest ih =>
      rw [kindsAll_cons, List.mem_append]
      rcases List.mem_cons.1 member with rfl | later
      · exact .inl inside
      · exact .inr (ih later)

/-- Every node of a tree has a property when its root does and every node below. -/
theorem every_iff {node : Node} : Every p node ↔ p node.kind ∧ EveryAll p node.children := by
  obtain ⟨kind, children⟩ := node
  exact every_mk

theorem Every.kind {node : Node} (every : Every p node) : p node.kind :=
  (every_iff.1 every).1

theorem Every.children {node : Node} (every : Every p node) : EveryAll p node.children :=
  (every_iff.1 every).2

theorem Every.mono {node : Node} (every : Every p node) (weaker : ∀ kind, p kind → q kind) :
    Every q node :=
  fun kind member => weaker kind (every kind member)

theorem EveryAll.mono {nodes : List Node} (every : EveryAll p nodes)
    (weaker : ∀ kind, p kind → q kind) : EveryAll q nodes :=
  fun kind member => weaker kind (every kind member)

/-! ### Counting -/

/-- The number of nodes of a list of trees whose kind satisfies `p`. -/
def countAllWhere (p : NodeKind → Bool) (nodes : List Node) : Nat :=
  (kindsAll nodes).countP p

section

variable (p : NodeKind → Bool)

@[simp] theorem countAllWhere_nil : countAllWhere p [] = 0 := rfl

theorem countAllWhere_cons (node : Node) (rest : List Node) :
    countAllWhere p (node :: rest) = node.countWhere p + countAllWhere p rest := by
  rw [countAllWhere, kindsAll_cons, List.countP_append]
  rfl

theorem countAllWhere_append (first second : List Node) :
    countAllWhere p (first ++ second) = countAllWhere p first + countAllWhere p second := by
  rw [countAllWhere, kindsAll_append, List.countP_append]
  rfl

theorem countWhere_mk (kind : NodeKind) (children : List Node) :
    (Node.mk kind children).countWhere p = (if p kind then 1 else 0) + countAllWhere p children := by
  rw [countWhere, kinds_mk, List.countP_cons, Nat.add_comm]
  rfl

end

/-! ### Places -/

/-- The node at a place of a tree, which is the way to it from the root: the child to take at each step. -/
def at? : List Nat → Node → Option Node
  | [], node => some node
  | index :: path, node => node.children[index]?.bind (at? path)

/-- A path leads to a node when its first step leads to a child and the rest from there. -/
theorem at?_cons_eq_some_iff {index : Nat} {path : List Nat} {node inner : Node} :
    node.at? (index :: path) = some inner ↔
      ∃ child, node.children[index]? = some child ∧ child.at? path = some inner := by
  rw [at?, Option.bind_eq_some_iff]

end Node

end DocPress
