import Mathlib.Data.List.Perm.Basic
import DocPress.Proofs.Landmark
import DocPress.Proofs.Page
import DocPress.Proofs.Node.Shape

/-!
Landmarks of pages. A page has the landmarks of the tree that it is made of. Where the rows of a head
come behind others, the landmarks in them come to the front of their table; elsewhere they stay in order. A
tree that has the shape of a written one can be made into a page, and there they all stay in order, as the
heads of its tables come first as it is.
-/

namespace DocPress

namespace Node

theorem landmarksAll_perm {nodes others : List Node} (same : nodes.Perm others) :
    (landmarksAll nodes).Perm (landmarksAll others) := by
  induction same with
  | nil => exact .nil
  | cons node _ ih =>
      rw [landmarksAll_cons, landmarksAll_cons]
      exact ih.append_left _
  | swap first second rest =>
      rw [landmarksAll_cons, landmarksAll_cons, landmarksAll_cons, landmarksAll_cons]
      exact List.perm_append_comm_assoc _ _ _
  | trans _ _ one two => exact one.trans two

/-- A node with its children's landmarks in another order has its own in another order. -/
theorem landmarks_perm {children others : List Node} (kind : NodeKind)
    (same : (landmarksAll children).Perm (landmarksAll others)) :
    (landmarks ⟨kind, children⟩).Perm (landmarks ⟨kind, others⟩) := by
  rw [landmarks_mk, landmarks_mk]
  refine .append_left _ ?_
  split
  · exact .nil
  · exact same

end Node

namespace Page

open Node

/-! ### Rows -/

theorem landmarksAll_headRows (children : List Node) :
    landmarksAll (headRows children) = landmarksAll children := by
  rw [headRows]
  split
  · rfl
  · rw [landmarksAll_cons, landmarks_eq_landmarksAll rfl rfl, landmarksAll_nil, List.append_nil]

theorem landmarksAll_markCells (header : Bool) (alignments : List (Option Align))
    (cells : List Node) : landmarksAll (markCells header alignments cells) = landmarksAll cells := by
  induction cells generalizing alignments with
  | nil => rfl
  | cons cell rest ih =>
      obtain ⟨kind, children⟩ := cell
      rw [markCells, landmarksAll_cons, landmarksAll_cons, ih]
      split
      · next header' align same =>
          obtain rfl : kind = .tableCell header' align := same
          rw [landmarks_eq_landmarksAll rfl rfl, landmarks_eq_landmarksAll rfl rfl]
      · rfl

theorem landmarksAll_markRows (header : Bool) (alignments : List (Option Align)) (rows : List Node) :
    landmarksAll (markRows header alignments rows) = landmarksAll rows := by
  refine landmarksAll_map fun row _ => ?_
  obtain ⟨kind, children⟩ := row
  exact landmarks_congr kind (landmarksAll_markCells header alignments children)

theorem landmarksAll_rowGroup {kind : NodeKind} (none : kind.landmark? = .none)
    (shows : kind.hidesChildren = false) (rows : List Node) :
    landmarksAll (rowGroup kind rows) = landmarksAll rows := by
  rw [rowGroup]
  split
  · next empty => rw [List.isEmpty_iff.1 empty]
  · rw [landmarksAll_cons, landmarks_eq_landmarksAll none shows, landmarksAll_nil, List.append_nil]

/-- The landmarks of a table that is expanded are those of its rows. -/
theorem landmarksAll_expandTable {alignments : List (Option Align)} {children : List Node}
    {rows : Rows} (collected : collectRows children = .ok rows) :
    ∃ groups, expandTable alignments children = .ok groups ∧
      landmarksAll groups = landmarksAll rows.head ++ landmarksAll rows.body := by
  refine ⟨_, by rw [expandTable, collected]; rfl, ?_⟩
  rw [landmarksAll_append, landmarksAll_rowGroup rfl rfl, landmarksAll_rowGroup rfl rfl,
    landmarksAll_markRows, landmarksAll_markRows]

/-- The rows of a table have its landmarks. -/
theorem perm_collectRows {children : List Node} {rows : Rows}
    (collected : collectRows children = .ok rows) :
    (landmarksAll rows.head ++ landmarksAll rows.body).Perm (landmarksAll children) := by
  induction children generalizing rows with
  | nil =>
      cases collected
      exact .nil
  | cons child rest ih =>
      obtain ⟨kind, children⟩ := child
      rw [collectRows] at collected
      rw [landmarksAll_cons]
      split at collected
      · next head =>
          obtain rfl : kind = .tableHead := head
          obtain ⟨others, behind, rfl⟩ := map_eq_ok_iff.1 collected
          rw [landmarksAll_append, landmarksAll_headRows, landmarks_eq_landmarksAll rfl rfl,
            List.append_assoc]
          exact (ih behind).append_left _
      · next body =>
          obtain rfl : kind = .tableBody := body
          obtain ⟨others, behind, rfl⟩ := map_eq_ok_iff.1 collected
          rw [landmarksAll_append, landmarks_eq_landmarksAll rfl rfl]
          exact (List.perm_append_comm_assoc _ _ _).trans ((ih behind).append_left _)
      · next row =>
          obtain ⟨others, behind, rfl⟩ := map_eq_ok_iff.1 collected
          rw [landmarksAll_cons]
          exact (List.perm_append_comm_assoc _ _ _).trans ((ih behind).append_left _)
      · cases collected

/-! ### Tables -/

theorem perm_headsFirst (results : List (NodeKind × Except RenderError Node)) :
    (headsFirst results).Perm (results.map (·.2)) :=
  (List.filter_append_perm _ results).map _

/-- Results among which there are as many trees are all trees. -/
theorem exists_map_ok_of_perm {results : List (Except RenderError Node)} {trees : List Node}
    (same : (trees.map .ok).Perm results) :
    ∃ others : List Node, results = others.map .ok ∧ trees.Perm others := by
  have each : ∀ result ∈ results, ∃ tree, result = .ok tree := fun result member =>
    (List.mem_map.1 (same.symm.subset member)).imp fun _ found => found.2.symm
  obtain ⟨others, rfl⟩ := exists_map_ok each
  exact ⟨others, rfl, (List.map_perm_map_iff fun _ _ equal => Except.ok.inj equal).1 same⟩

mutual

/-- Expanding tables neither makes nor loses a landmark. -/
theorem perm_expand : ∀ {node tree : Node}, expand node = .ok tree →
    tree.landmarks.Perm node.landmarks
  | ⟨kind, children⟩, tree, done => by
      cases table : kind.isTable with
      | false =>
          rw [expand_other table, bind_eq_ok_iff] at done
          obtain ⟨trees, all, made⟩ := done
          obtain rfl := pure_eq_ok_iff.1 made
          exact landmarks_perm kind (perm_expandEach (mapM_id_eq_ok_iff.1 all))
      | true =>
          cases kind <;> cases table
          rw [expand_table, bind_eq_ok_iff] at done
          obtain ⟨-, -, done⟩ := done
          rw [bind_eq_ok_iff] at done
          obtain ⟨trees, all, done⟩ := done
          rw [bind_eq_ok_iff] at done
          obtain ⟨groups, expanded, made⟩ := done
          obtain rfl := pure_eq_ok_iff.1 made
          obtain ⟨others, each, same⟩ := exists_map_ok_of_perm
            (mapM_id_eq_ok_iff.1 all ▸ perm_headsFirst (expandEach children))
          obtain ⟨rows, collected, -⟩ := map_eq_ok_iff.1 expanded
          obtain ⟨_, again, marks⟩ := landmarksAll_expandTable collected
          obtain rfl := Except.ok.inj (expanded.symm.trans again)
          refine landmarks_perm _ ?_
          rw [marks]
          exact ((perm_collectRows collected).trans (landmarksAll_perm same)).trans
            (perm_expandEach each)

/-- Expanded trees have the landmarks of the trees, up to their order. -/
theorem perm_expandEach : ∀ {nodes trees : List Node},
    (expandEach nodes).map (·.2) = trees.map .ok → (landmarksAll trees).Perm (landmarksAll nodes)
  | [], trees, all => by
      obtain rfl : trees = [] := List.map_eq_nil_iff.1 all.symm
      exact .nil
  | node :: rest, trees, all => by
      cases trees with
      | nil => cases all
      | cons tree others =>
          obtain ⟨here, behind⟩ := List.cons.inj all
          rw [landmarksAll_cons, landmarksAll_cons]
          exact (perm_expand here).append (perm_expandEach behind)

end

/-! ### Pages -/

theorem landmarksAll_sections (nodes : List Node) :
    landmarksAll (sections nodes) = landmarksAll nodes := by
  fun_induction sections nodes with
  | case1 => rfl
  | case2 node rest level id kind under behind =>
      have whole : landmarksAll rest = landmarksAll (rest.takeWhile (isUnder level)) ++
          landmarksAll (rest.dropWhile (isUnder level)) := by
        rw [← landmarksAll_append, List.takeWhile_append_dropWhile]
      rw [landmarksAll_cons, landmarks_eq_landmarksAll rfl rfl, landmarksAll_cons, under, behind,
        landmarksAll_cons, whole, List.append_assoc]
  | case3 node rest other ih => rw [landmarksAll_cons, landmarksAll_cons, ih]

/-- With sections or without, a page has the landmarks of its expanded tree. -/
theorem landmarks_sectioned (flat : Bool) (tree : Node) :
    (if flat then tree else { tree with children := sections tree.children }).landmarks =
      tree.landmarks := by
  obtain ⟨kind, children⟩ := tree
  cases flat with
  | true => rfl
  | false => exact landmarks_congr kind (landmarksAll_sections children)

/-- The page of a document has its landmarks. -/
theorem perm_render {flat : Bool} {tree page : Node} (done : render flat tree = .ok page) :
    page.landmarks.Perm tree.landmarks := by
  rw [render] at done
  split at done
  · rw [bind_eq_ok_iff] at done
    obtain ⟨expanded, done, made⟩ := done
    obtain rfl := pure_eq_ok_iff.1 made
    rw [landmarks_sectioned]
    exact perm_expand done
  · cases done

/-! ### Heads in front of rows -/

/-- Trees in which heads come first are heads with rows behind them. -/
theorem exists_parts {nodes : List Node} (first : HeadsFirst (nodes.map (·.kind))) :
    ∃ heads rows, nodes = heads ++ rows ∧ (∀ head ∈ heads, head.kind = .tableHead) ∧
      ∀ row ∈ rows, row.kind = .tableRow := by
  obtain ⟨m, n, same⟩ := first
  obtain ⟨heads, rows, rfl, front, back⟩ := List.map_eq_append_iff.1 same
  refine ⟨heads, rows, rfl, fun head member => ?_, fun row member => ?_⟩
  · exact (List.eq_replicate_iff.1 front).2 _ (List.mem_map_of_mem member)
  · exact (List.eq_replicate_iff.1 back).2 _ (List.mem_map_of_mem member)

/-- Rows that are all of the body are collected as such. -/
theorem collectRows_rows {rows : List Node} (each : ∀ row ∈ rows, row.kind = .tableRow) :
    collectRows rows = .ok ⟨[], rows⟩ := by
  induction rows with
  | nil => rfl
  | cons row rest ih =>
      rw [List.forall_mem_cons] at each
      simp only [collectRows, each.1, ih each.2, Except.map]

/-- Where heads come first, the rows of a table are in order. -/
theorem exists_collectRows_parts {nodes : List Node} (first : HeadsFirst (nodes.map (·.kind))) :
    ∃ rows, collectRows nodes = .ok rows ∧
      landmarksAll rows.head ++ landmarksAll rows.body = landmarksAll nodes := by
  obtain ⟨heads, rows, rfl, front, back⟩ := exists_parts first
  clear first
  induction heads with
  | nil => exact ⟨_, collectRows_rows back, rfl⟩
  | cons head rest ih =>
      rw [List.forall_mem_cons] at front
      obtain ⟨others, collected, same⟩ := ih front.2
      obtain ⟨kind, children⟩ := head
      obtain rfl : kind = .tableHead := front.1
      refine ⟨{ others with head := headRows children ++ others.head }, ?_, ?_⟩
      · rw [List.cons_append]
        simp only [collectRows, collected, Except.map]
      · rw [landmarksAll_append, landmarksAll_headRows, List.append_assoc, same, List.cons_append,
          landmarksAll_cons, landmarks_eq_landmarksAll rfl rfl]

/-- Where heads come first, the trees for them do not move. -/
theorem headsFirst_results {nodes : List Node} (first : HeadsFirst (nodes.map (·.kind))) :
    headsFirst (results nodes) = (results nodes).map (·.2) := by
  obtain ⟨heads, rows, rfl, front, back⟩ := exists_parts first
  let isHead (result : NodeKind × Except RenderError Node) : Bool := result.1 = .tableHead
  have parts : results (heads ++ rows) = results heads ++ results rows := List.map_append
  have isFront : ∀ result ∈ results heads, isHead result = true := by
    simpa [results, isHead] using front
  have isBack : ∀ result ∈ results rows, isHead result = false := by
    intro result member
    obtain ⟨row, known, rfl⟩ := List.mem_map.1 member
    simp [isHead, back row known]
  have kept : (results heads ++ results rows).filter isHead = results heads := by
    rw [List.filter_append, List.filter_eq_self.2 isFront,
      List.filter_eq_nil_iff.2 (by simpa using isBack), List.append_nil]
  have moved : (results heads ++ results rows).filter (!isHead ·) = results rows := by
    rw [List.filter_append, List.filter_eq_nil_iff.2 (by simpa using isFront),
      List.filter_eq_self.2 (by simpa using isBack), List.nil_append]
  rw [parts]
  exact congrArg (List.map (·.2)) (congrArg₂ (· ++ ·) kept moved)

/-! ### Tables with their heads in front -/

mutual

/-- The tables of a tree with the shape of a written one can be expanded, and its landmarks stay in
order. -/
theorem exists_expand_landmarks : ∀ {node : Node}, HasShape node →
    ∃ tree, expand node = .ok tree ∧ tree.kind = node.kind ∧ tree.landmarks = node.landmarks
  | ⟨kind, children⟩, shape => by
      obtain ⟨fits, below⟩ := hasShape_mk.1 shape
      obtain ⟨trees, each, kinds, inside⟩ := exists_expandEach_landmarks below
      cases table : kind.isTable with
      | false =>
          refine ⟨⟨kind, trees⟩, ?_, rfl, landmarks_congr kind inside⟩
          rw [expand_other table, each, mapM_results]
          rfl
      | true =>
          have first := fits.table table
          cases kind <;> cases table
          next alignments =>
            obtain ⟨rows, checked, -⟩ := exists_collectRows_parts first
            rw [← kinds] at first
            obtain ⟨rows, collected, same⟩ := exists_collectRows_parts first
            obtain ⟨groups, expanded, marks⟩ := @landmarksAll_expandTable alignments _ _ collected
            refine ⟨⟨.table alignments, groups⟩, ?_, rfl, landmarks_congr _ ?_⟩
            · rw [expand_table, checked, each, headsFirst_results first, mapM_results]
              simp only [bind, Except.bind, expanded]
              rfl
            · rw [marks, same, inside]

/-- Trees in shape are expanded with their landmarks in order. -/
theorem exists_expandEach_landmarks : ∀ {nodes : List Node}, HaveShape nodes →
    ∃ trees : List Node, expandEach nodes = results trees ∧
      trees.map (·.kind) = nodes.map (·.kind) ∧ landmarksAll trees = landmarksAll nodes
  | [], _ => ⟨[], rfl, rfl, rfl⟩
  | node :: rest, shape => by
      rw [haveShape_cons] at shape
      obtain ⟨tree, done, kind, here⟩ := exists_expand_landmarks shape.1
      obtain ⟨trees, others, kinds, behind⟩ := exists_expandEach_landmarks shape.2
      refine ⟨tree :: trees, ?_, by simp [kind, kinds], ?_⟩
      · rw [expandEach, done, others, ← kind]
        rfl
      · rw [landmarksAll_cons, landmarksAll_cons, here, behind]

end

/-- A document with the shape of a written one can be made into a page with its landmarks in order. -/
theorem exists_render_landmarks (flat : Bool) {tree : Node} (root : tree.kind = .document)
    (shape : HasShape tree) :
    ∃ page, render flat tree = .ok page ∧ page.landmarks = tree.landmarks := by
  obtain ⟨expanded, done, kind, same⟩ := exists_expand_landmarks shape
  refine ⟨if flat then expanded else { expanded with children := sections expanded.children }, ?_, ?_⟩
  · rw [render, if_pos root, done]
    cases flat <;> rfl
  · rw [landmarks_sectioned, same]

end Page

end DocPress
