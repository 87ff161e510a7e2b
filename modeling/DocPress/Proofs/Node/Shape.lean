import DocPress.Proofs.Landmark

/-!
The shape of trees. Nodes that show nothing of what is below them have nothing there, apart from
images, and the heads of tables come before their rows. The stages before the page keep this.
-/

namespace DocPress

/-- Whether the kind is an image whose text is below it. -/
def NodeKind.isImage : NodeKind → Bool
  | .image .. => true
  | _ => false

/-- Whether nodes of the kind have nothing below them. -/
def NodeKind.isBare (kind : NodeKind) : Bool :=
  kind.hidesChildren && !kind.isImage

namespace Node

/-- Whether kinds are those of the heads and the rows of a table, heads first. -/
def HeadsFirst (kinds : List NodeKind) : Prop :=
  ∃ heads rows, kinds = List.replicate heads .tableHead ++ List.replicate rows .tableRow

/-- Whether nodes of some kinds may be what is directly below a node. -/
structure Fits (kind : NodeKind) (below : List NodeKind) : Prop where
  bare : kind.isBare = true → below = []
  table : kind.isTable = true → HeadsFirst below

mutual

/-- Whether a tree has the shape of a tree that has been written. -/
def HasShape : Node → Prop
  | ⟨kind, children⟩ => Fits kind (children.map (·.kind)) ∧ HaveShape children

/-- Whether trees have the shape of trees that have been written. -/
def HaveShape : List Node → Prop
  | [] => True
  | node :: rest => HasShape node ∧ HaveShape rest

end

variable {kind : NodeKind} {node : Node} {children others nodes : List Node}

theorem hasShape_mk :
    HasShape ⟨kind, children⟩ ↔ Fits kind (children.map (·.kind)) ∧ HaveShape children := by
  rw [HasShape]

@[simp] theorem haveShape_nil : HaveShape [] := by
  rw [HaveShape]
  trivial

@[simp] theorem haveShape_cons {rest : List Node} :
    HaveShape (node :: rest) ↔ HasShape node ∧ HaveShape rest := by
  rw [HaveShape]

/-- Trees have their shape when each one has. -/
theorem haveShape_iff_forall : HaveShape nodes ↔ ∀ node ∈ nodes, HasShape node := by
  induction nodes with
  | nil => simp
  | cons node rest ih => rw [haveShape_cons, ih, List.forall_mem_cons]

@[simp] theorem haveShape_append {first second : List Node} :
    HaveShape (first ++ second) ↔ HaveShape first ∧ HaveShape second := by
  simp only [haveShape_iff_forall, List.forall_mem_append]

theorem HasShape.below (shape : HasShape node) : HaveShape node.children := by
  obtain ⟨kind, children⟩ := node
  exact (hasShape_mk.1 shape).2

/-- A table holds heads and rows only. -/
theorem isTablePart_of_headsFirst (heads : HeadsFirst (children.map (·.kind))) :
    ∀ child ∈ children, child.kind.isTablePart = true := by
  intro child member
  obtain ⟨m, n, same⟩ := heads
  have known : child.kind ∈ children.map (·.kind) := List.mem_map_of_mem member
  rw [same, List.mem_append, List.mem_replicate, List.mem_replicate] at known
  rcases known with ⟨-, head⟩ | ⟨-, row⟩
  · rw [head]
    rfl
  · rw [row]
    rfl

/-- What holds of heads and rows holds of the parts of tables. -/
theorem of_isTablePart (p : NodeKind → Prop) (head : p .tableHead) (row : p .tableRow)
    (part : kind.isTablePart = true) : p kind := by
  cases kind <;> first | exact head | exact row | cases part

theorem fits_nil (kind : NodeKind) : Fits kind [] :=
  ⟨fun _ => rfl, fun _ => ⟨0, 0, rfl⟩⟩

/-- Anything may be below a kind that shows it and is no table. -/
theorem fits_of_shows (shows : kind.hidesChildren = false) (other : kind.isTable = false)
    (below : List NodeKind) : Fits kind below := by
  constructor
  · intro bare
    rw [NodeKind.isBare, shows] at bare
    cases bare
  · intro table
    rw [other] at table
    cases table

theorem hasShape_leaf (kind : NodeKind) : HasShape (leaf kind) :=
  hasShape_mk.2 ⟨fits_nil kind, haveShape_nil⟩

/-- What is below a node may be changed as long as nothing comes of nothing, and the heads and rows of
tables keep their kinds. -/
theorem Fits.of_parts (fits : Fits kind (children.map (·.kind))) (empty : children = [] → others = [])
    (parts : (∀ child ∈ children, child.kind.isTablePart = true) →
      others.map (·.kind) = children.map (·.kind)) : Fits kind (others.map (·.kind)) where
  bare bare := by
    rw [empty (List.map_eq_nil_iff.1 (fits.bare bare))]
    rfl
  table table := by
    have heads := fits.table table
    rw [parts (isTablePart_of_headsFirst heads)]
    exact heads

end Node

open Node

/-! ### Captions and images -/

namespace Caption

mutual

/-- Giving titles keeps the shape of a tree. -/
theorem hasShape_apply : ∀ {node : Node}, HasShape node → HasShape (apply node)
  | ⟨kind, children⟩, shape => by
      obtain ⟨fits, below⟩ := hasShape_mk.1 shape
      have still : Fits kind ((children.map apply).map (·.kind)) := by
        refine fits.of_parts (fun empty => by rw [empty]; rfl) fun parts => ?_
        rw [List.map_map]
        refine List.map_congr_left fun child member => ?_
        rw [Function.comp_apply, kind_apply]
        exact of_isTablePart (fun kind => titled kind = kind) rfl rfl (parts child member)
      rw [apply_mk, hasShape_mk]
      refine ⟨⟨fun bare => still.bare ?_, fun table => still.table ?_⟩, haveShape_applyAll below⟩
      · rwa [NodeKind.isBare, congr_titled NodeKind.hidesChildren (fun _ _ _ => rfl) fun _ _ _ => rfl,
          congr_titled NodeKind.isImage (fun _ _ _ => rfl) fun _ _ _ => rfl] at bare
      · rwa [congr_titled NodeKind.isTable (fun _ _ _ => rfl) fun _ _ _ => rfl] at table

theorem haveShape_applyAll : ∀ {nodes : List Node}, HaveShape nodes →
    HaveShape (nodes.map apply)
  | [], _ => haveShape_nil
  | node :: rest, shape => by
      rw [haveShape_cons] at shape
      exact haveShape_cons.2 ⟨hasShape_apply shape.1, haveShape_applyAll shape.2⟩

end

end Caption

namespace Picture

variable (sizes : Catalog ImageSize)

theorem apply_other {kind : NodeKind} (other : kind.isImage = false) (children : List Node) :
    apply sizes ⟨kind, children⟩ = ⟨kind, applyAll sizes children⟩ := by
  cases kind <;> first | rfl | cases other

theorem map_kind_applyAll {nodes : List Node} (none : ∀ node ∈ nodes, node.kind.isImage = false) :
    (applyAll sizes nodes).map (·.kind) = nodes.map (·.kind) := by
  induction nodes with
  | nil => rfl
  | cons node rest ih =>
      rw [List.forall_mem_cons] at none
      obtain ⟨kind, children⟩ := node
      rw [applyAll, apply_other sizes none.1, List.map_cons, List.map_cons, ih none.2]

mutual

/-- Giving images their sizes keeps the shape of a tree. -/
theorem hasShape_apply : ∀ {node : Node}, HasShape node → HasShape (apply sizes node)
  | ⟨kind, children⟩, shape => by
      obtain ⟨fits, below⟩ := hasShape_mk.1 shape
      cases image : kind.isImage with
      | true =>
          cases kind <;> cases image
          exact hasShape_leaf _
      | false =>
          rw [apply_other sizes image, hasShape_mk]
          refine ⟨fits.of_parts ?_ fun parts => ?_, haveShape_applyAll below⟩
          · rintro rfl
            rfl
          · exact map_kind_applyAll sizes fun child member =>
              of_isTablePart (·.isImage = false) rfl rfl (parts child member)

theorem haveShape_applyAll : ∀ {nodes : List Node}, HaveShape nodes →
    HaveShape (applyAll sizes nodes)
  | [], _ => haveShape_nil
  | node :: rest, shape => by
      rw [haveShape_cons] at shape
      exact haveShape_cons.2 ⟨hasShape_apply shape.1, haveShape_applyAll shape.2⟩

end

end Picture

end DocPress
