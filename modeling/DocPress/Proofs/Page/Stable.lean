import DocPress.Proofs.Page.Section
import DocPress.Proofs.Page.Table

/-!
Rendering again. The tree of a page is that of the document with its tables laid out, in which the rows
of each table are still there in their order, and with its nodes in sections. It has no headings outside
of sections and no tables to lay out, so that making it into a page again leaves it as it is.
-/

namespace DocPress

/-- The kind without the marks of a cell. -/
def NodeKind.unmarked : NodeKind → NodeKind
  | .tableCell _ _ => .tableCell false none
  | kind => kind

/-- The kinds of the parts of tables have no marks. -/
theorem NodeKind.unmarked_eq_iff {kind part : NodeKind} (isPart : part.IsRowPart) :
    kind.unmarked = part ↔ kind = part := by
  simp only [IsRowPart, List.mem_cons, List.not_mem_nil, or_false] at isPart
  rcases isPart with rfl | rfl | rfl <;> cases kind <;> simp [unmarked]

namespace Page

open Node

/-- Whether a tree is another one with its tables laid out: the rows of their heads and the others are
the same in the same order, and apart from the marks of cells nothing else is changed. -/
inductive IsExpansion : Node → Node → Prop
  | node {kind kind' : NodeKind} {old new : List Node} (other : kind.isTable = false)
      (same : kind'.unmarked = kind.unmarked) (below : List.Forall₂ IsExpansion old new) :
      IsExpansion ⟨kind, old⟩ ⟨kind', new⟩
  | table {alignments : List (Option Align)} {old new : List Node}
      (laidOut : IsLaidOut alignments new)
      (heads : List.Forall₂ IsExpansion (headRowsOf old) (headRowsOf new))
      (bodies : List.Forall₂ IsExpansion (bodyRowsOf old) (bodyRowsOf new)) :
      IsExpansion ⟨.table alignments, old⟩ ⟨.table alignments, new⟩

/-! ### Rows of expanded tables -/

section

variable {node tree : Node} {nodes trees : List Node}

/-- An expansion is a part of a table exactly when the node is. -/
theorem IsExpansion.kind_eq_iff {part : NodeKind} (expansion : IsExpansion node tree)
    (isPart : part.IsRowPart) : tree.kind = part ↔ node.kind = part := by
  cases expansion with
  | node other same below =>
      rw [← NodeKind.unmarked_eq_iff isPart, same, NodeKind.unmarked_eq_iff isPart]
  | table => exact Iff.rfl

/-- The children of a node that is no table are expanded one by one. -/
theorem IsExpansion.children (expansion : IsExpansion node tree) (other : node.kind.isTable = false) :
    List.Forall₂ IsExpansion node.children tree.children := by
  cases expansion with
  | node _ _ below => exact below
  | table => cases other

/-- The rows in heads are expanded one by one. -/
theorem forall₂_headRows (below : List.Forall₂ IsExpansion nodes trees) :
    List.Forall₂ IsExpansion (headRows nodes) (headRows trees) := by
  have same : nodes.all (·.kind = .tableRow) = trees.all (·.kind = .tableRow) := by
    induction below with
    | nil => rfl
    | cons here _ ih =>
        rw [List.all_cons, List.all_cons, ih, decide_eq_decide.2 (here.kind_eq_iff (by decide))]
  rw [headRows, headRows, same]
  split
  · exact below
  · exact .cons (.node rfl rfl below) .nil

/-- The rows of the head are expanded one by one. -/
theorem forall₂_headRowsOf (related : List.Forall₂ IsExpansion nodes trees) :
    List.Forall₂ IsExpansion (headRowsOf nodes) (headRowsOf trees) := by
  refine List.rel_flatMap related fun node tree expansion => ?_
  have head : tree.kind = .tableHead ↔ node.kind = .tableHead := expansion.kind_eq_iff (by decide)
  by_cases isHead : node.kind = .tableHead
  · rw [if_pos isHead, if_pos (head.2 isHead)]
    exact forall₂_headRows (expansion.children (by rw [isHead]; rfl))
  · rw [if_neg isHead, if_neg (mt head.1 isHead)]
    exact .nil

/-- The rows of the body are expanded one by one. -/
theorem forall₂_bodyRowsOf (related : List.Forall₂ IsExpansion nodes trees) :
    List.Forall₂ IsExpansion (bodyRowsOf nodes) (bodyRowsOf trees) := by
  refine List.rel_flatMap related fun node tree expansion => ?_
  have body : tree.kind = .tableBody ↔ node.kind = .tableBody := expansion.kind_eq_iff (by decide)
  have row : tree.kind = .tableRow ↔ node.kind = .tableRow := expansion.kind_eq_iff (by decide)
  by_cases isBody : node.kind = .tableBody
  · rw [if_pos isBody, if_pos (body.2 isBody)]
    exact expansion.children (by rw [isBody]; rfl)
  · rw [if_neg isBody, if_neg (mt body.1 isBody)]
    by_cases isRow : node.kind = .tableRow
    · rw [if_pos isRow, if_pos (row.2 isRow)]
      exact .cons expansion .nil
    · rw [if_neg isRow, if_neg (mt row.1 isRow)]
      exact .nil

variable {header : Bool} {alignments : List (Option Align)}

/-- Marked cells are expansions of the cells. -/
theorem forall₂_markCells (below : List.Forall₂ IsExpansion nodes trees) :
    List.Forall₂ IsExpansion nodes (markCells header alignments trees) := by
  induction below generalizing alignments with
  | nil => exact .nil
  | cons here _ ih =>
      rw [markCells]
      refine .cons ?_ ih
      cases here with
      | node other same below =>
          dsimp only
          split
          · exact .node other same below
          · exact .node other same below
      | table laidOut heads bodies => exact .table laidOut heads bodies

/-- Marking the cells of a row keeps what it is an expansion of. -/
theorem forall₂_markRows (related : List.Forall₂ IsExpansion nodes trees) :
    List.Forall₂ IsExpansion nodes (markRows header alignments trees) := by
  refine List.forall₂_map_right_iff.2 (related.imp fun node tree expansion => ?_)
  cases expansion with
  | node other same below => exact .node other same (forall₂_markCells below)
  | table laidOut heads bodies =>
      rw [laidOut.markCells_eq_self]
      exact .table laidOut heads bodies

/-- What follows from a relation for each of the nodes in front follows for all pairs. -/
theorem forall₂_of_mem {R S : Node → Node → Prop}
    (each : ∀ node ∈ nodes, ∀ tree, R node tree → S node tree) (related : List.Forall₂ R nodes trees) :
    List.Forall₂ S nodes trees :=
  ((List.forall₂_and_left _ _).2 ⟨each, related⟩).imp fun _ tree both => both.1 tree both.2

mutual

/-- Expanding the tables of a tree lays them out and changes nothing else. -/
theorem isExpansion_expand : ∀ {node tree : Node}, expand node = .ok tree → IsExpansion node tree
  | ⟨kind, children⟩, tree, done => by
      have each := isExpansion_expand_all children
      cases table : kind.isTable with
      | false =>
          obtain ⟨trees, related, rfl⟩ := (expand_other_eq_ok_iff table).1 done
          exact .node table rfl (forall₂_of_mem each related)
      | true =>
          cases kind <;> cases table
          obtain ⟨-, trees, related, groups, expanded, rfl⟩ := expand_table_eq_ok_iff.1 done
          have inside : List.Forall₂ IsExpansion (headsBefore children) trees :=
            forall₂_of_mem (fun node member => each node (mem_of_mem_headsBefore member)) related
          have laidOut := isLaidOut_expandTable expanded
          obtain ⟨-, rfl⟩ := expandTable_eq_ok_iff.1 expanded
          -- The heads come in front when the children are expanded, which keeps the order in each group.
          refine .table laidOut ?_ ?_
          · rw [headRowsOf_groups (kind_of_mem_markRows fun _ => kind_of_mem_headRowsOf),
              ← headRowsOf_headsBefore]
            exact forall₂_markRows (forall₂_headRowsOf inside)
          · rw [bodyRowsOf_groups, ← bodyRowsOf_headsBefore]
            exact forall₂_markRows (forall₂_bodyRowsOf inside)

theorem isExpansion_expand_all : ∀ nodes : List Node, ∀ node ∈ nodes, ∀ tree,
    expand node = .ok tree → IsExpansion node tree
  | [] => nofun
  | _ :: rest => List.forall_mem_cons.2 ⟨fun _ => isExpansion_expand, isExpansion_expand_all rest⟩

end

end

/-! ### Sections around tables -/

/-- A mark does not change how deep a section is. -/
theorem depth?_of_unmarked {kind kind' : NodeKind} (same : kind'.unmarked = kind.unmarked) :
    kind'.depth? = kind.depth? := by
  have keeps (kind : NodeKind) : kind.unmarked.depth? = kind.depth? := by cases kind <;> rfl
  rw [← keeps kind', same, keeps kind]

mutual

/-- What is in sections is expanded there. -/
theorem forall₂_opened : ∀ {node tree : Node}, IsExpansion node tree →
    List.Forall₂ IsExpansion (opened node) (opened tree)
  | ⟨kind, children⟩, tree, expansion => by
      cases expansion with
      | @node _ kind' _ new other same below =>
          have depth := depth?_of_unmarked same
          cases isSection : kind.depth? with
          | none =>
              rw [opened_of_depth? isSection, opened_of_depth? (depth.trans isSection)]
              exact .cons (.node other same below) .nil
          | some _ =>
              rw [isSection] at depth
              obtain rfl := eq_section_of_depth? isSection
              obtain rfl := eq_section_of_depth? depth
              rw [opened_section, opened_section]
              exact forall₂_openedAll below
      | table laidOut heads bodies => exact .cons (.table laidOut heads bodies) .nil

theorem forall₂_openedAll : ∀ {nodes trees : List Node}, List.Forall₂ IsExpansion nodes trees →
    List.Forall₂ IsExpansion (openedAll nodes) (openedAll trees)
  | [], _, .nil => .nil
  | node :: rest, tree :: others, .cons here behind => by
      rw [openedAll, openedAll]
      exact List.rel_append (forall₂_opened here) (forall₂_openedAll behind)

end

/-- Sections of laid out tables have them laid out. -/
theorem tablesAreLaidOut_sections {nodes : List Node} (laidOut : TablesAreLaidOut nodes) :
    TablesAreLaidOut (sections nodes) := by
  fun_induction sections nodes with
  | case1 => exact laidOut
  | case2 node rest level id kind under behind =>
      obtain ⟨here, later⟩ := (@tablesAreLaidOut_append [node] _).1 laidOut
      rw [← List.takeWhile_append_dropWhile (p := isUnder level) (l := rest),
        tablesAreLaidOut_append] at later
      have inside := (@tablesAreLaidOut_append [node] _).2 ⟨here, under later.1⟩
      exact (@tablesAreLaidOut_append [_] _).2
        ⟨(tablesAreLaidOut_other rfl).2 inside, behind later.2⟩
  | case3 node rest other ih =>
      obtain ⟨here, later⟩ := (@tablesAreLaidOut_append [node] _).1 laidOut
      exact (@tablesAreLaidOut_append [node] _).2 ⟨here, ih later⟩

/-- There are no headings outside of sections. -/
theorem level?_of_mem_sections (nodes : List Node) :
    ∀ node ∈ sections nodes, node.kind.level? = none := by
  fun_induction sections nodes with
  | case1 => exact List.forall_mem_nil _
  | case2 node rest level id kind under behind => exact List.forall_mem_cons.2 ⟨rfl, behind⟩
  | case3 node rest other ih => exact List.forall_mem_cons.2 ⟨level?_eq_none_iff.2 other, ih⟩

theorem sections_eq_self {nodes : List Node} (plain : ∀ node ∈ nodes, node.kind.level? = none) :
    sections nodes = nodes := by
  simpa [sections] using sections_append plain []

/-! ### Pages -/

variable {flat : Bool} {tree page : Node}

/-- What a page is made of. -/
theorem render_eq_ok_iff : render flat tree = .ok page ↔
    tree.kind = .document ∧ ∃ expanded, expand tree = .ok expanded ∧
      page = if flat then expanded else { expanded with children := sections expanded.children } := by
  by_cases root : tree.kind = .document
  · rw [render, if_pos root]
    simp only [bind_eq_ok_iff, pure_eq_ok_iff, root, true_and, eq_comm (b := page)]
  · simp [render, root]

/-- A page in which all tables are laid out, with its sections or without any, is rendered to itself. -/
theorem render_eq_self (root : page.kind = .document) (laidOut : TablesAreLaidOut [page])
    (sectioned : flat = true ∨ ∀ node ∈ page.children, node.kind.level? = none) :
    render flat page = .ok page := by
  refine render_eq_ok_iff.2 ⟨root, page, expand_eq_self laidOut, ?_⟩
  obtain ⟨kind, children⟩ := page
  rcases sectioned with rfl | plain
  · rfl
  · rw [sections_eq_self plain, ite_self]

/-- The tables on a page are laid out. -/
theorem tablesAreLaidOut_render (done : render flat tree = .ok page) : TablesAreLaidOut [page] := by
  obtain ⟨root, ⟨kind, children⟩, expands, rfl⟩ := render_eq_ok_iff.1 done
  have laidOut := tablesAreLaidOut_expand expands
  cases flat with
  | true => exact laidOut
  | false =>
      obtain rfl : kind = .document := (kind_expand expands).trans root
      have below := (tablesAreLaidOut_other rfl).1 laidOut
      exact (tablesAreLaidOut_other rfl).2 (tablesAreLaidOut_sections below)

theorem kind_render (done : render flat tree = .ok page) : page.kind = .document := by
  obtain ⟨root, expanded, expands, rfl⟩ := render_eq_ok_iff.1 done
  cases flat <;> exact (kind_expand expands).trans root

/-- With sections, the children of a page are no headings. -/
theorem level?_of_mem_render (done : render false tree = .ok page) :
    ∀ node ∈ page.children, node.kind.level? = none := by
  obtain ⟨-, expanded, -, rfl⟩ := render_eq_ok_iff.1 done
  exact level?_of_mem_sections expanded.children

/-- Without its sections, a page is the document with its tables laid out. -/
theorem forall₂_render (done : render flat tree = .ok page) :
    List.Forall₂ IsExpansion (openedAll tree.children) (openedAll page.children) := by
  obtain ⟨root, expanded, expands, rfl⟩ := render_eq_ok_iff.1 done
  have below := (isExpansion_expand expands).children (by rw [root]; rfl)
  cases flat with
  | true => exact forall₂_openedAll below
  | false =>
      rw [if_neg Bool.false_ne_true, openedAll_sections]
      exact forall₂_openedAll below

/-- The page of a document that can be rendered is rendered to itself, with sections if it has been and
flat in any case. All of its tables are laid out, and their rows are those of the document in order. -/
theorem render_page (done : render flat tree = .ok page) :
    render flat page = .ok page ∧ render true page = .ok page ∧
      (∀ node ∈ page.walk, ∀ alignments, node.kind = .table alignments →
        IsLaidOut alignments node.children) ∧
      List.Forall₂ IsExpansion (openedAll tree.children) (openedAll page.children) := by
  have root := kind_render done
  have laidOut := tablesAreLaidOut_render done
  have stable : render true page = .ok page := render_eq_self root laidOut (.inl rfl)
  refine ⟨?_, stable, fun node member => laidOut node (by simpa [walkAll] using member),
    forall₂_render done⟩
  cases flat with
  | true => exact stable
  | false => exact render_eq_self root laidOut (.inr (level?_of_mem_render done))

/-- The cells of a head may stand in no row and rows in no body, and a row may have more cells than there
are columns. The table in one of them is laid out, too. -/
theorem render_page_nested :
    let cell inside := Node.mk (.tableCell false none) inside
    let marked header align inside := Node.mk (.tableCell header align) inside
    let inner := Node.mk (.table [none]) [⟨.tableRow, [cell [text "i"]]⟩]
    let tree := document [leaf (.heading 2 none),
      ⟨.table [some .left], [⟨.tableRow, [cell [inner], cell []]⟩,
        ⟨.tableHead, [cell [text "a"], cell []]⟩, ⟨.tableBody, [⟨.tableRow, [cell [text "b"]]⟩]⟩,
        ⟨.tableHead, [⟨.tableRow, [cell [text "c"]]⟩]⟩]⟩]
    let page := document [⟨.section 2, [leaf (.heading 2 none),
      ⟨.table [some .left], [
        ⟨.tableHead, [⟨.tableRow, [marked true (some .left) [text "a"], marked true none []]⟩,
          ⟨.tableRow, [marked true (some .left) [text "c"]]⟩]⟩,
        ⟨.tableBody, [⟨.tableRow, [marked false (some .left)
            [⟨.table [none], [⟨.tableBody, [⟨.tableRow, [marked false none [text "i"]]⟩]⟩]⟩],
            marked false none []]⟩,
          ⟨.tableRow, [marked false (some .left) [text "b"]]⟩]⟩]⟩]⟩]
    render false tree = .ok page ∧ render false page = .ok page ∧ render true page = .ok page ∧
      (∀ node ∈ page.walk, ∀ alignments, node.kind = .table alignments →
        IsLaidOut alignments node.children) ∧
      List.Forall₂ IsExpansion (openedAll tree.children) (openedAll page.children) := by
  intro cell marked inner tree page
  have done : render false tree = .ok page := by decide +kernel
  exact ⟨done, render_page done⟩

end Page

end DocPress
