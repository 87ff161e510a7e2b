import DocPress.Page
import DocPress.Proofs.Node.Sound
import DocPress.Proofs.Result

/-!
Pages of sound trees. Tables that hold heads and rows alone are expanded, and the tree of the page is
as sound as the one that it is made of.
-/

namespace DocPress.Page

open Node

/-! ### Rows -/

variable {written : Bool}

/-- Whether a node is a row that is sound. -/
def IsSoundRow (written : Bool) (row : Node) : Prop :=
  row.kind = .tableRow ∧ IsSound written true row

theorem areSound_of_isSoundRow {rows : List Node} {last : Bool} (sound : ∀ row ∈ rows, IsSoundRow written row) :
    AreSound written last rows := by
  refine (areSound_of_isClosed fun row member => ?_).2 fun row member => (sound row member).2
  rw [(sound row member).1]
  rfl

theorem isSoundRow_headRows {children : List Node} (sound : AreSound written true children) :
    ∀ row ∈ headRows children, IsSoundRow written row := by
  rw [headRows]
  split
  · next rows =>
      rw [List.all_eq_true] at rows
      exact fun row member => ⟨of_decide_eq_true (rows row member), sound.forall row member⟩
  · exact List.forall_mem_singleton.2
      ⟨rfl, isSound_mk.2 ⟨trivial, holdsParts rfl _, sound⟩⟩

/-- The rows in the parts of a sound table are sound. -/
theorem exists_collectRows {children : List Node}
    (parts : ∀ child ∈ children, child.kind.isTablePart = true)
    (sound : ∀ child ∈ children, IsSound written true child) :
    ∃ rows, collectRows children = .ok rows ∧ (∀ row ∈ rows.head, IsSoundRow written row) ∧
      ∀ row ∈ rows.body, IsSoundRow written row := by
  induction children with
  | nil => exact ⟨⟨[], []⟩, rfl, by simp, by simp⟩
  | cons child rest ih =>
      rw [List.forall_mem_cons] at parts sound
      obtain ⟨rows, collected, head, body⟩ := ih parts.2 sound.2
      cases kind : child.kind with
      | tableHead =>
          refine ⟨⟨headRows child.children ++ rows.head, rows.body⟩, ?_, ?_, body⟩
          · simp only [collectRows, kind, collected, Except.map]
          · exact List.forall_mem_append.2 ⟨isSoundRow_headRows sound.1.below, head⟩
      | tableRow =>
          refine ⟨⟨rows.head, child :: rows.body⟩, ?_, head, ?_⟩
          · simp only [collectRows, kind, collected, Except.map]
          · exact List.forall_mem_cons.2 ⟨⟨kind, sound.1⟩, body⟩
      | _ =>
          rw [kind] at parts
          cases parts.1

/-- Marking cells leaves them sound. -/
theorem replaces_markCells (header : Bool) (alignments : List (Option Align)) (cells : List Node) :
    Replaces false cells (markCells header alignments cells) := by
  induction cells generalizing alignments with
  | nil => exact .refl []
  | cons cell rest ih =>
      obtain ⟨kind, children⟩ := cell
      rw [markCells]
      refine .cons ?_ (ih _)
      split
      · next header' align same =>
          obtain rfl : kind = .tableCell header' align := same
          exact .node (.of_isClosed rfl trivial rfl rfl rfl)
            (.refl _)
      · exact .refl _

theorem isSoundRow_markRows (header : Bool) (alignments : List (Option Align)) {rows : List Node}
    (sound : ∀ row ∈ rows, IsSoundRow false row) :
    ∀ row ∈ markRows header alignments rows, IsSoundRow false row := by
  intro row member
  obtain ⟨⟨kind, children⟩, known, rfl⟩ := List.mem_map.1 member
  obtain ⟨same, row⟩ := sound _ known
  obtain rfl : kind = .tableRow := same
  refine ⟨rfl, isSound_mk.2 ⟨trivial, nofun, ?_⟩⟩
  exact (replaces_markCells header alignments children).sound row.below

theorem areSound_rowGroup {kind : NodeKind} {rows : List Node} {last : Bool}
    (closed : kind.isClosed = true) (rowsSound : ∀ row ∈ rows, IsSoundRow false row)
    (kindSound : kind.IsSound true) :
    AreSound false last (rowGroup kind rows) := by
  rw [rowGroup]
  split
  · exact areSound_nil
  · refine areSound_singleton.2 ((isSound_of_isClosed closed).2 ?_)
    exact isSound_mk.2 ⟨kindSound, nofun, areSound_of_isSoundRow rowsSound⟩

/-- The parts of a sound table are expanded into sound groups of rows. -/
theorem exists_expandTable (alignments : List (Option Align)) {children : List Node}
    (parts : ∀ child ∈ children, child.kind.isTablePart = true)
    (sound : ∀ child ∈ children, IsSound false true child) :
    ∃ groups, expandTable alignments children = .ok groups ∧ AreSound false true groups := by
  obtain ⟨rows, collected, head, body⟩ := exists_collectRows parts sound
  refine ⟨_, by rw [expandTable, collected]; rfl, areSound_append.2 ⟨?_, ?_⟩⟩
  · exact areSound_rowGroup rfl (isSoundRow_markRows true alignments head) trivial
  · exact areSound_rowGroup rfl (isSoundRow_markRows false alignments body) trivial

/-! ### Tables -/

/-- What becomes of trees when all of them are expanded. -/
def results (nodes : List Node) : List (NodeKind × Except RenderError Node) :=
  nodes.map fun node => (node.kind, .ok node)

theorem mapM_results (nodes : List Node) : ((results nodes).map (·.2)).mapM id = .ok nodes := by
  induction nodes with
  | nil => rfl
  | cons node rest ih =>
      simp only [results, List.map_cons, List.mapM_cons] at ih ⊢
      rw [ih]
      rfl

/-- The trees for the heads of a table come first. -/
theorem exists_headsFirst_results (nodes : List Node) :
    ∃ sorted : List Node, sorted.Perm nodes ∧ headsFirst (results nodes) = (results sorted).map (·.2) := by
  let isHead (node : Node) : Bool := node.kind = .tableHead
  refine ⟨nodes.filter isHead ++ nodes.filter (!isHead ·), List.filter_append_perm _ nodes, ?_⟩
  simp only [headsFirst, results, List.filter_map, List.map_append]
  rfl

theorem expand_table (alignments : List (Option Align)) (children : List Node) :
    expand ⟨.table alignments, children⟩ = do
      let _ ← collectRows children
      let children ← (headsFirst (expandEach children)).mapM id
      return ⟨.table alignments, ← expandTable alignments children⟩ := rfl

theorem expand_other {kind : NodeKind} (other : kind.isTable = false) (children : List Node) :
    expand ⟨kind, children⟩ = do
      return ⟨kind, ← ((expandEach children).map (·.2)).mapM id⟩ := by
  cases kind <;> first | rfl | cases other

mutual

/-- The tables of a sound tree can be expanded, and then it is sound as that of a page. -/
theorem exists_expand : ∀ {node : Node} {last : Bool}, IsSound true last node →
    ∃ tree, expand node = .ok tree ∧ tree.kind = node.kind ∧ IsSound false last tree
  | ⟨kind, children⟩, last, sound => by
      obtain ⟨here, holds, below⟩ := isSound_mk.1 sound
      obtain ⟨trees, each, kinds, inside⟩ := exists_expandEach below
      cases table : kind.isTable with
      | false =>
          refine ⟨⟨kind, trees⟩, ?_, rfl, isSound_mk.2 ⟨here, nofun, inside⟩⟩
          rw [expand_other table, each, mapM_results]
          rfl
      | true =>
          have parts := holds rfl table
          cases kind <;> cases table
          next alignments =>
            obtain ⟨rows, collected, -⟩ := exists_collectRows parts below.forall
            obtain ⟨sorted, same, first⟩ := exists_headsFirst_results trees
            -- The parts of the table are still parts of a table, as they keep their kinds.
            have tableParts : ∀ child ∈ sorted, child.kind.isTablePart = true := by
              intro child member
              have known : child.kind ∈ children.map (·.kind) :=
                kinds ▸ List.mem_map_of_mem (same.subset member)
              obtain ⟨original, part, kind⟩ := List.mem_map.1 known
              exact kind ▸ parts original part
            obtain ⟨groups, expanded, groupsSound⟩ := exists_expandTable alignments tableParts
              fun child member => inside.forall child (same.subset member)
            refine ⟨⟨.table alignments, groups⟩, ?_, rfl,
              (isSound_of_isClosed rfl).2 (isSound_mk.2 ⟨trivial, nofun, groupsSound⟩)⟩
            rw [expand_table, collected, each, first, mapM_results]
            simp only [bind, Except.bind, expanded]
            rfl

/-- What becomes of sound trees when their tables are expanded. -/
theorem exists_expandEach : ∀ {nodes : List Node} {last : Bool}, AreSound true last nodes →
    ∃ trees : List Node, expandEach nodes = results trees ∧
      trees.map (·.kind) = nodes.map (·.kind) ∧ AreSound false last trees
  | [], last, _ => ⟨[], rfl, rfl, areSound_nil⟩
  | node :: rest, last, sound => by
      rw [areSound_cons] at sound
      obtain ⟨tree, done, kind, head⟩ := exists_expand sound.1
      obtain ⟨trees, others, kinds, tail⟩ := exists_expandEach sound.2
      refine ⟨tree :: trees, ?_, by simp [kind, kinds], areSound_cons.2 ⟨?_, tail⟩⟩
      · rw [expandEach, done, others, ← kind]
        rfl
      · have same : trees.all isFootnoteList = rest.all isFootnoteList := by
          have lists := congrArg (List.all · NodeKind.isFootnoteList) kinds
          rwa [List.all_map, List.all_map] at lists
        rwa [same]

end

/-! ### Sections -/

/-- Headings may be put into sections with what is under them. -/
theorem replaces_sections (nodes : List Node) : Replaces false nodes (sections nodes) := by
  fun_induction sections nodes with
  | case1 => exact .refl []
  | case2 node rest level id kind under behind =>
      have around : Replaces false (node :: rest.takeWhile (isUnder level))
          [⟨.section level, node :: sections (rest.takeWhile (isUnder level))⟩] := by
        refine .of_isClosed List.mem_cons_self ?_ ?_ rfl fun sound => isSound_mk.2
          ⟨trivial, nofun, (Replaces.cons (.refl [node]) under).sound sound⟩
        · rw [isFootnoteList, kind]
          rfl
        · rw [kind]
          rfl
      have whole := around.append behind
      rwa [List.cons_append, List.takeWhile_append_dropWhile] at whole
  | case3 node rest other ih => exact .cons (.refl [node]) ih

/-- A sound document can be made into a page, which is sound. -/
theorem exists_render (flat : Bool) {tree : Node} (root : tree.kind = .document)
    (sound : IsSound true true tree) :
    ∃ page, render flat tree = .ok page ∧ IsSound false true page := by
  obtain ⟨expanded, done, kind, sound⟩ := exists_expand sound
  refine ⟨if flat then expanded else { expanded with children := sections expanded.children }, ?_, ?_⟩
  · rw [render, if_pos root, done]
    cases flat <;> rfl
  · split
    · exact sound
    · obtain ⟨kind, children⟩ := expanded
      exact areSound_singleton.1 ((Replaces.node (.refl _) (replaces_sections children)).sound
        (areSound_singleton.2 sound))

end DocPress.Page
