import Mathlib.Data.List.Forall2
import DocPress.Proofs.Page

/-!
The tables of a page. A table that is laid out has a head of rows and a body of rows, as far as there are
any, and its cells are marked by row and column. Expanding the tables of a tree lays all of them out,
with the rows of each in order, and finds nothing to do in a tree where all of them are.
-/

namespace DocPress

/-- Whether the kind is that of a child of a table: a head, a body or a row. -/
def NodeKind.IsRowPart (kind : NodeKind) : Prop :=
  kind ∈ [.tableHead, .tableBody, .tableRow]

instance : DecidablePred NodeKind.IsRowPart := fun _ => inferInstanceAs (Decidable (_ ∈ _))

namespace Page

open Node

/-! ### Rows and cells -/

/-- The rows of the heads of a table. -/
def headRowsOf (children : List Node) : List Node :=
  children.flatMap fun child => if child.kind = .tableHead then headRows child.children else []

/-- The rows of the bodies of a table and those in neither a head nor a body. -/
def bodyRowsOf (children : List Node) : List Node :=
  children.flatMap fun child =>
    if child.kind = .tableBody then child.children else if child.kind = .tableRow then [child] else []

/-- Nodes with the heads of tables in front. -/
def headsBefore (nodes : List Node) : List Node :=
  let isHead (node : Node) : Bool := node.kind = .tableHead
  nodes.filter isHead ++ nodes.filter (!isHead ·)

/-- Whether the cells of a row are marked: as those of the head or not, and with the alignments of their
columns, of which those that are not declared have none. -/
def AreMarked (header : Bool) (alignments : List (Option Align)) (cells : List Node) : Prop :=
  ∀ (column : Nat) (cell : Node) (isHeader : Bool) (align : Option Align),
    cells[column]? = some cell → cell.kind = .tableCell isHeader align →
      isHeader = header ∧ align = alignments[column]?.join

/-- Whether the children of a table are a head and a body, or one of them, or nothing, each with rows of
marked cells. -/
structure IsLaidOut (alignments : List (Option Align)) (children : List Node) : Prop where
  parts : (children.map (·.kind)).Sublist [.tableHead, .tableBody]
  filled : ∀ part ∈ children, part.children ≠ []
  rows : ∀ part ∈ children, part.kind = .tableHead → ∀ row ∈ part.children, row.kind = .tableRow
  cells : ∀ part ∈ children, ∀ row ∈ part.children,
    AreMarked (part.kind = .tableHead) alignments row.children

/-- Whether the tables of trees are laid out at every depth. -/
def TablesAreLaidOut (nodes : List Node) : Prop :=
  ∀ node ∈ walkAll nodes, ∀ alignments, node.kind = .table alignments →
    IsLaidOut alignments node.children

theorem getD_none (align : Option (Option Align)) : align.getD none = align.join := by
  cases align <;> rfl

section

variable {header : Bool} {alignments : List (Option Align)} {cells : List Node}

/-- Cells are marked when the first one has the first alignment and the others have theirs. -/
theorem areMarked_cons {cell : Node} {rest : List Node} :
    AreMarked header alignments (cell :: rest) ↔
      (∀ isHeader align, cell.kind = .tableCell isHeader align →
        isHeader = header ∧ align = alignments.head?.join) ∧
      AreMarked header alignments.tail rest := by
  constructor
  · intro marked
    refine ⟨fun isHeader align kind => ?_, fun column cell isHeader align found kind => ?_⟩
    · rw [List.head?_eq_getElem?]
      exact marked 0 cell isHeader align rfl kind
    · rw [List.getElem?_tail]
      exact marked (column + 1) cell isHeader align found kind
  · rintro ⟨here, later⟩ (_ | column) other isHeader align found kind
    · obtain rfl := Option.some.inj found
      rw [← List.head?_eq_getElem?]
      exact here isHeader align kind
    · rw [← List.getElem?_tail]
      exact later column other isHeader align found kind

/-- Where there are no cells nothing needs to be marked. -/
theorem areMarked_of_no_cell (none : ∀ cell ∈ cells, ∀ isHeader align,
    cell.kind ≠ .tableCell isHeader align) : AreMarked header alignments cells :=
  fun _ cell isHeader align found kind =>
    absurd kind (none cell (List.mem_of_getElem? found) isHeader align)

/-- Marking gives every cell its mark and the alignment of its column. -/
theorem areMarked_markCells (header : Bool) (alignments : List (Option Align)) (cells : List Node) :
    AreMarked header alignments (markCells header alignments cells) := by
  induction cells generalizing alignments with
  | nil => exact fun _ _ _ _ found => nomatch found
  | cons cell rest ih =>
      rw [markCells]
      refine areMarked_cons.2 ⟨fun isHeader align same => ?_, ih alignments.tail⟩
      split at same
      · obtain ⟨rfl, rfl⟩ := NodeKind.tableCell.inj same
        exact ⟨rfl, getD_none _⟩
      · next other => exact absurd same (other isHeader align)

/-- Cells that are marked stay as they are. -/
theorem markCells_eq_self (marked : AreMarked header alignments cells) :
    markCells header alignments cells = cells := by
  induction cells generalizing alignments with
  | nil => rfl
  | cons cell rest ih =>
      obtain ⟨here, later⟩ := areMarked_cons.1 marked
      obtain ⟨kind, children⟩ := cell
      rw [markCells, ih later]
      dsimp only
      split
      · next isHeader align =>
          obtain ⟨rfl, rfl⟩ := here isHeader align rfl
          rw [getD_none]
      · rfl

theorem markRows_eq_self {rows : List Node}
    (marked : ∀ row ∈ rows, AreMarked header alignments row.children) :
    markRows header alignments rows = rows := by
  refine (List.map_congr_left fun row member => ?_).trans (List.map_id' rows)
  obtain ⟨kind, cells⟩ := row
  rw [markCells_eq_self (marked _ member)]

end

/-! ### Groups of rows -/

section

variable {kind : NodeKind} {rows head body children : List Node} {part : Node}

theorem mem_rowGroup : part ∈ rowGroup kind rows ↔ rows ≠ [] ∧ part = ⟨kind, rows⟩ := by
  cases rows <;> simp [rowGroup]

theorem rowGroup_of_ne_nil (filled : rows ≠ []) : rowGroup kind rows = [⟨kind, rows⟩] := by
  rw [rowGroup, if_neg (by simpa using filled)]

/-- A group of rows is of its kind, if there is one. -/
theorem kinds_rowGroup (kind : NodeKind) (rows : List Node) :
    ((rowGroup kind rows).map (·.kind)).Sublist [kind] := by
  cases rows with
  | nil => exact List.nil_sublist _
  | cons row rest => exact List.Sublist.refl _

/-- Rows by themselves are the rows of a head. -/
theorem headRows_of_rows (each : ∀ row ∈ rows, row.kind = .tableRow) : headRows rows = rows := by
  rw [headRows, if_pos]
  rw [List.all_eq_true]
  exact fun row member => decide_eq_true (each row member)

theorem headRowsOf_groups (each : ∀ row ∈ head, row.kind = .tableRow) :
    headRowsOf (rowGroup .tableHead head ++ rowGroup .tableBody body) = head := by
  cases head <;> cases body <;> simp [headRowsOf, rowGroup, headRows_of_rows each]

theorem bodyRowsOf_groups :
    bodyRowsOf (rowGroup .tableHead head ++ rowGroup .tableBody body) = body := by
  cases head <;> cases body <;> simp [bodyRowsOf, rowGroup]

theorem headsBefore_groups : headsBefore (rowGroup .tableHead head ++ rowGroup .tableBody body) =
    rowGroup .tableHead head ++ rowGroup .tableBody body := by
  cases head <;> cases body <;> rfl

theorem isRowPart_of_mem_groups :
    ∀ part ∈ rowGroup .tableHead head ++ rowGroup .tableBody body, part.kind.IsRowPart := by
  intro part member
  rw [List.mem_append, mem_rowGroup, mem_rowGroup] at member
  rcases member with ⟨-, rfl⟩ | ⟨-, rfl⟩
  · exact .head _
  · exact .tail _ (.head _)

/-- A head and a body of marked rows are laid out. -/
theorem isLaidOut_groups {alignments : List (Option Align)}
    (each : ∀ row ∈ head, row.kind = .tableRow)
    (marked : ∀ row ∈ head, AreMarked true alignments row.children)
    (plain : ∀ row ∈ body, AreMarked false alignments row.children) :
    IsLaidOut alignments (rowGroup .tableHead head ++ rowGroup .tableBody body) where
  parts := by
    rw [List.map_append]
    exact (kinds_rowGroup .tableHead head).append (kinds_rowGroup .tableBody body)
  filled part member := by
    rw [List.mem_append, mem_rowGroup, mem_rowGroup] at member
    rcases member with ⟨filled, rfl⟩ | ⟨filled, rfl⟩ <;> exact filled
  rows part member isHead := by
    rw [List.mem_append, mem_rowGroup, mem_rowGroup] at member
    rcases member with ⟨-, rfl⟩ | ⟨-, rfl⟩
    · exact each
    · cases isHead
  cells part member := by
    rw [List.mem_append, mem_rowGroup, mem_rowGroup] at member
    rcases member with ⟨-, rfl⟩ | ⟨-, rfl⟩
    · exact marked
    · exact plain

/-- A table that is laid out is made of its rows. -/
theorem IsLaidOut.exists_groups {alignments : List (Option Align)}
    (laidOut : IsLaidOut alignments children) :
    ∃ head body, children = rowGroup .tableHead head ++ rowGroup .tableBody body ∧
      (∀ row ∈ head, row.kind = .tableRow) ∧ (∀ row ∈ head, AreMarked true alignments row.children) ∧
      ∀ row ∈ body, AreMarked false alignments row.children := by
  obtain ⟨parts, filled, rows, cells⟩ := laidOut
  match children with
  | [] => exact ⟨[], [], rfl, nofun, nofun, nofun⟩
  | [⟨kind, group⟩] =>
      have nonempty : group ≠ [] := filled _ List.mem_cons_self
      rw [List.map_singleton, List.singleton_sublist, List.mem_pair] at parts
      rcases parts with isHead | isBody
      · obtain rfl : kind = .tableHead := isHead
        refine ⟨group, [], ?_, rows _ List.mem_cons_self rfl, cells _ List.mem_cons_self, nofun⟩
        rw [rowGroup_of_ne_nil nonempty]
        rfl
      · obtain rfl : kind = .tableBody := isBody
        exact ⟨[], group, (rowGroup_of_ne_nil nonempty).symm, nofun, nofun,
          cells _ List.mem_cons_self⟩
  | ⟨kind, head⟩ :: ⟨kind', body⟩ :: rest =>
      have same := parts.eq_of_length_le (by simp)
      simp only [List.map_cons, List.cons.injEq, List.map_eq_nil_iff] at same
      obtain ⟨rfl, rfl, rfl⟩ := same
      have here := List.mem_cons_self (a := Node.mk .tableHead head) (l := [⟨.tableBody, body⟩])
      have behind := List.mem_cons_of_mem (Node.mk .tableHead head)
        (List.mem_singleton_self (Node.mk .tableBody body))
      refine ⟨head, body, ?_, rows _ here rfl, cells _ here, cells _ behind⟩
      rw [rowGroup_of_ne_nil (filled _ here), rowGroup_of_ne_nil (filled _ behind)]
      rfl

end

/-! ### Expanding tables -/

section

variable {nodes trees : List Node}

/-- Nodes are expanded one by one. -/
theorem expandEach_eq (nodes : List Node) :
    expandEach nodes = nodes.map fun node => (node.kind, expand node) := by
  induction nodes with
  | nil => rfl
  | cons node rest ih => rw [expandEach, ih, List.map_cons]

/-- Putting heads in front does not depend on when nodes are expanded. -/
theorem headsFirst_expandEach (nodes : List Node) :
    headsFirst (expandEach nodes) = (headsBefore nodes).map expand := by
  rw [headsFirst, expandEach_eq, List.filter_map, List.filter_map, ← List.map_append, List.map_map]
  rfl

/-- Nodes that give nothing may be left out. -/
theorem flatMap_filter {p : Node → Bool} {f : Node → List Node} (nodes : List Node)
    (nothing : ∀ node, p node = false → f node = []) :
    (nodes.filter p).flatMap f = nodes.flatMap f := by
  induction nodes with
  | nil => rfl
  | cons node rest ih =>
      cases here : p node with
      | true => rw [List.filter_cons_of_pos here, List.flatMap_cons, List.flatMap_cons, ih]
      | false =>
          rw [List.filter_cons_of_neg (by simp [here]), List.flatMap_cons, nothing node here, ih,
            List.nil_append]

theorem flatMap_filter_eq_nil {p : Node → Bool} {f : Node → List Node} (nodes : List Node)
    (nothing : ∀ node, p node = true → f node = []) : (nodes.filter p).flatMap f = [] :=
  List.flatMap_eq_nil_iff.2 fun node member => nothing node (List.mem_filter.1 member).2

/-- Nodes are expanded one by one. -/
theorem map_snd_expandEach (nodes : List Node) :
    (expandEach nodes).map (·.2) = nodes.map expand := by
  rw [expandEach_eq, List.map_map]
  rfl

/-- The rows of heads are the same when heads are put in front. -/
theorem headRowsOf_headsBefore (nodes : List Node) :
    headRowsOf (headsBefore nodes) = headRowsOf nodes := by
  rw [headsBefore, headRowsOf, headRowsOf, List.flatMap_append, flatMap_filter nodes,
    flatMap_filter_eq_nil nodes, List.append_nil]
  · intro node other
    rw [if_neg (by simpa using other)]
  · intro node other
    rw [if_neg (of_decide_eq_false other)]

/-- The rows of bodies are the same when heads are put in front. -/
theorem bodyRowsOf_headsBefore (nodes : List Node) :
    bodyRowsOf (headsBefore nodes) = bodyRowsOf nodes := by
  rw [headsBefore, bodyRowsOf, bodyRowsOf, List.flatMap_append, flatMap_filter_eq_nil nodes,
    flatMap_filter nodes, List.nil_append]
  · intro node isHead
    have head : node.kind = .tableHead := by simpa using isHead
    rw [head, if_neg nofun, if_neg nofun]
  · intro node isHead
    rw [of_decide_eq_true isHead, if_neg nofun, if_neg nofun]

theorem mem_of_mem_headsBefore {node : Node} (member : node ∈ headsBefore nodes) : node ∈ nodes := by
  rw [headsBefore, List.mem_append, List.mem_filter, List.mem_filter] at member
  exact member.elim And.left And.left

/-- The rows of a table can be collected when its children are rows or groups of rows. -/
theorem collectRows_eq_ok_iff {children : List Node} {rows : Rows} :
    collectRows children = .ok rows ↔
      (∀ child ∈ children, child.kind.IsRowPart) ∧
        rows = ⟨headRowsOf children, bodyRowsOf children⟩ := by
  induction children generalizing rows with
  | nil => simp [collectRows, headRowsOf, bodyRowsOf, eq_comm]
  | cons child rest ih =>
      obtain ⟨kind, inside⟩ := child
      rw [List.forall_mem_cons]
      cases kind with
      | tableHead | tableBody | tableRow =>
          simp only [collectRows, map_eq_ok_iff, ih]
          constructor
          · rintro ⟨rows, ⟨parts, rfl⟩, rfl⟩
            exact ⟨⟨by decide, parts⟩, by simp [headRowsOf, bodyRowsOf]⟩
          · rintro ⟨⟨-, parts⟩, rfl⟩
            exact ⟨_, ⟨parts, rfl⟩, by simp [headRowsOf, bodyRowsOf]⟩
      | _ => simp [collectRows, NodeKind.IsRowPart]

theorem map_eq_map_ok_iff : nodes.map expand = trees.map .ok ↔
    List.Forall₂ (fun node tree => expand node = .ok tree) nodes trees := by
  rw [← List.forall₂_eq_eq_eq, List.forall₂_map_left_iff, List.forall₂_map_right_iff]

/-- What a node other than a table is expanded to. -/
theorem expand_other_eq_ok_iff {kind : NodeKind} {children : List Node} {tree : Node}
    (other : kind.isTable = false) : expand ⟨kind, children⟩ = .ok tree ↔
      ∃ trees, List.Forall₂ (fun node tree => expand node = .ok tree) children trees ∧
        tree = ⟨kind, trees⟩ := by
  simp only [expand_other other, bind_eq_ok_iff, pure_eq_ok_iff, map_snd_expandEach,
    mapM_id_eq_ok_iff, map_eq_map_ok_iff, eq_comm (b := tree)]

/-- What a table is expanded to. -/
theorem expand_table_eq_ok_iff {alignments : List (Option Align)} {children : List Node} {tree : Node} :
    expand ⟨.table alignments, children⟩ = .ok tree ↔
      (∃ rows, collectRows children = .ok rows) ∧
        ∃ trees, List.Forall₂ (fun node tree => expand node = .ok tree) (headsBefore children) trees ∧
          ∃ groups, expandTable alignments trees = .ok groups ∧ tree = ⟨.table alignments, groups⟩ := by
  simp only [expand_table, bind_eq_ok_iff, pure_eq_ok_iff, headsFirst_expandEach, mapM_id_eq_ok_iff,
    map_eq_map_ok_iff, eq_comm (b := tree), exists_and_right]

/-- An expanded node keeps its kind. -/
theorem kind_expand {node tree : Node} (done : expand node = .ok tree) : tree.kind = node.kind := by
  obtain ⟨kind, children⟩ := node
  cases table : kind.isTable with
  | false =>
      obtain ⟨trees, -, rfl⟩ := (expand_other_eq_ok_iff table).1 done
      rfl
  | true =>
      cases kind <;> cases table
      obtain ⟨-, trees, -, groups, -, rfl⟩ := expand_table_eq_ok_iff.1 done
      rfl

/-- A table is expanded when its children are rows or groups of rows, to a head and a body of marked rows.
-/
theorem expandTable_eq_ok_iff {alignments : List (Option Align)} {children groups : List Node} :
    expandTable alignments children = .ok groups ↔
      (∀ child ∈ children, child.kind.IsRowPart) ∧
        groups = rowGroup .tableHead (markRows true alignments (headRowsOf children)) ++
          rowGroup .tableBody (markRows false alignments (bodyRowsOf children)) := by
  simp only [expandTable, map_eq_ok_iff, collectRows_eq_ok_iff]
  constructor
  · rintro ⟨rows, ⟨parts, rfl⟩, rfl⟩
    exact ⟨parts, rfl⟩
  · rintro ⟨parts, rfl⟩
    exact ⟨_, ⟨parts, rfl⟩, rfl⟩

end

/-! ### Tables that are laid out -/

section

variable {kind : NodeKind} {node : Node} {children nodes rest : List Node}

theorem tablesAreLaidOut_nil : TablesAreLaidOut [] :=
  nofun

theorem tablesAreLaidOut_cons : TablesAreLaidOut (⟨kind, children⟩ :: rest) ↔
    (∀ alignments, kind = .table alignments → IsLaidOut alignments children) ∧
      TablesAreLaidOut children ∧ TablesAreLaidOut rest := by
  simp only [TablesAreLaidOut, walkAll, walk, List.cons_append, List.forall_mem_cons,
    List.forall_mem_append]

/-- Tables are laid out in trees when they are in each of them. -/
theorem tablesAreLaidOut_iff_forall :
    TablesAreLaidOut nodes ↔ ∀ node ∈ nodes, TablesAreLaidOut [node] := by
  induction nodes with
  | nil => simp [tablesAreLaidOut_nil]
  | cons node rest ih =>
      obtain ⟨kind, children⟩ := node
      rw [List.forall_mem_cons, ← ih, tablesAreLaidOut_cons, tablesAreLaidOut_cons]
      simp [tablesAreLaidOut_nil, and_assoc]

theorem tablesAreLaidOut_append {first second : List Node} : TablesAreLaidOut (first ++ second) ↔
    TablesAreLaidOut first ∧ TablesAreLaidOut second := by
  rw [tablesAreLaidOut_iff_forall, List.forall_mem_append, ← tablesAreLaidOut_iff_forall,
    ← tablesAreLaidOut_iff_forall]

theorem tablesAreLaidOut_singleton : TablesAreLaidOut [⟨kind, children⟩] ↔
    (∀ alignments, kind = .table alignments → IsLaidOut alignments children) ∧
      TablesAreLaidOut children := by
  simp [tablesAreLaidOut_cons, tablesAreLaidOut_nil]

/-- The tables in a node that is none are those below. -/
theorem tablesAreLaidOut_other (other : kind.isTable = false) :
    TablesAreLaidOut [⟨kind, children⟩] ↔ TablesAreLaidOut children := by
  refine tablesAreLaidOut_singleton.trans (and_iff_right fun alignments same => ?_)
  rw [same] at other
  cases other

mutual

/-- Expanding the tables of a tree where all are laid out changes nothing. -/
theorem expand_eq_self : ∀ {node : Node}, TablesAreLaidOut [node] → expand node = .ok node
  | ⟨kind, children⟩, laidOut => by
      obtain ⟨here, below⟩ := tablesAreLaidOut_singleton.1 laidOut
      have same : List.Forall₂ (fun node tree => expand node = .ok tree) children children :=
        List.forall₂_same.2 (expand_eq_self_all below)
      cases table : kind.isTable with
      | false => exact (expand_other_eq_ok_iff table).2 ⟨children, same, rfl⟩
      | true =>
          cases kind <;> cases table
          next alignments =>
            obtain ⟨head, body, rfl, rows, marked, plain⟩ := (here alignments rfl).exists_groups
            have parts := @isRowPart_of_mem_groups head body
            refine expand_table_eq_ok_iff.2 ⟨⟨_, collectRows_eq_ok_iff.2 ⟨parts, rfl⟩⟩, _, ?_, _,
              expandTable_eq_ok_iff.2 ⟨parts, ?_⟩, rfl⟩
            · rwa [headsBefore_groups]
            · rw [headRowsOf_groups rows, bodyRowsOf_groups, markRows_eq_self marked,
                markRows_eq_self plain]

theorem expand_eq_self_all : ∀ {nodes : List Node}, TablesAreLaidOut nodes →
    ∀ node ∈ nodes, expand node = .ok node
  | [], _ => nofun
  | ⟨kind, children⟩ :: rest, laidOut => by
      obtain ⟨here, below, behind⟩ := tablesAreLaidOut_cons.1 laidOut
      exact List.forall_mem_cons.2
        ⟨expand_eq_self (tablesAreLaidOut_singleton.2 ⟨here, below⟩), expand_eq_self_all behind⟩

end

end

/-! ### Laying out tables -/

section

variable {header : Bool} {alignments : List (Option Align)} {nodes cells rows : List Node}

/-- There are no cells among the parts of a table. -/
theorem IsLaidOut.markCells_eq_self {own : List (Option Align)} (laidOut : IsLaidOut own cells) :
    markCells header alignments cells = cells := by
  refine Page.markCells_eq_self (areMarked_of_no_cell fun cell member isHeader align kind => ?_)
  have part := laidOut.parts.subset (List.mem_map_of_mem member)
  simp [kind] at part

/-- Marking cells does not touch tables inside of them. -/
theorem tablesAreLaidOut_markCells (laidOut : TablesAreLaidOut cells) :
    TablesAreLaidOut (markCells header alignments cells) := by
  induction cells generalizing alignments with
  | nil => exact laidOut
  | cons cell rest ih =>
      obtain ⟨kind, children⟩ := cell
      obtain ⟨here, below, behind⟩ := tablesAreLaidOut_cons.1 laidOut
      rw [markCells]
      dsimp only
      split
      · exact (@tablesAreLaidOut_append [_] _).2 ⟨(tablesAreLaidOut_other rfl).2 below, ih behind⟩
      · exact tablesAreLaidOut_cons.2 ⟨here, below, ih behind⟩

/-- Marking rows lays out no table anew. -/
theorem tablesAreLaidOut_markRows (laidOut : TablesAreLaidOut rows) :
    TablesAreLaidOut (markRows header alignments rows) := by
  rw [tablesAreLaidOut_iff_forall] at laidOut ⊢
  intro row member
  obtain ⟨⟨kind, cells⟩, before, rfl⟩ := List.mem_map.1 member
  obtain ⟨here, below⟩ := tablesAreLaidOut_singleton.1 (laidOut _ before)
  refine tablesAreLaidOut_singleton.2 ⟨fun own same => ?_, tablesAreLaidOut_markCells below⟩
  rw [(here own same).markCells_eq_self]
  exact here own same

/-- Tables inside of the rows of a head are laid out when all tables are. -/
theorem tablesAreLaidOut_headRowsOf (laidOut : TablesAreLaidOut nodes) :
    TablesAreLaidOut (headRowsOf nodes) := by
  rw [tablesAreLaidOut_iff_forall] at laidOut
  rw [tablesAreLaidOut_iff_forall]
  intro row member
  obtain ⟨⟨kind, children⟩, before, inside⟩ := List.mem_flatMap.1 member
  have below := (tablesAreLaidOut_singleton.1 (laidOut _ before)).2
  dsimp only at inside
  split at inside
  · rw [headRows] at inside
    split at inside
    · exact tablesAreLaidOut_iff_forall.1 below row inside
    · obtain rfl := List.mem_singleton.1 inside
      exact (tablesAreLaidOut_other rfl).2 below
  · cases inside

/-- The rows of the body hold the tables that were there. -/
theorem tablesAreLaidOut_bodyRowsOf (laidOut : TablesAreLaidOut nodes) :
    TablesAreLaidOut (bodyRowsOf nodes) := by
  rw [tablesAreLaidOut_iff_forall] at laidOut
  rw [tablesAreLaidOut_iff_forall]
  intro row member
  obtain ⟨⟨kind, children⟩, before, inside⟩ := List.mem_flatMap.1 member
  dsimp only at inside
  split at inside
  · exact tablesAreLaidOut_iff_forall.1 (tablesAreLaidOut_singleton.1 (laidOut _ before)).2 row inside
  · split at inside
    · obtain rfl := List.mem_singleton.1 inside
      exact laidOut _ before
    · cases inside

/-- A group of rows adds no table. -/
theorem tablesAreLaidOut_rowGroup {kind : NodeKind} (other : kind.isTable = false)
    (laidOut : TablesAreLaidOut rows) : TablesAreLaidOut (rowGroup kind rows) := by
  rw [rowGroup]
  split
  · exact tablesAreLaidOut_nil
  · exact (tablesAreLaidOut_other other).2 laidOut

theorem kind_of_mem_headRowsOf {row : Node} (member : row ∈ headRowsOf nodes) :
    row.kind = .tableRow := by
  obtain ⟨child, -, inside⟩ := List.mem_flatMap.1 member
  split at inside
  · rw [headRows] at inside
    split at inside
    · next rows => exact of_decide_eq_true (List.all_eq_true.1 rows row inside)
    · obtain rfl := List.mem_singleton.1 inside
      rfl
  · cases inside

theorem kind_of_mem_markRows {kind : NodeKind} (each : ∀ row ∈ rows, row.kind = kind) :
    ∀ row ∈ markRows header alignments rows, row.kind = kind := by
  intro row member
  obtain ⟨row, before, rfl⟩ := List.mem_map.1 member
  exact each row before

theorem areMarked_of_mem_markRows :
    ∀ row ∈ markRows header alignments rows, AreMarked header alignments row.children := by
  intro row member
  obtain ⟨row, -, rfl⟩ := List.mem_map.1 member
  exact areMarked_markCells header alignments row.children

/-- The rows of a table are laid out. -/
theorem isLaidOut_expandTable {groups : List Node} (done : expandTable alignments nodes = .ok groups) :
    IsLaidOut alignments groups := by
  obtain ⟨-, rfl⟩ := expandTable_eq_ok_iff.1 done
  exact isLaidOut_groups (kind_of_mem_markRows fun _ => kind_of_mem_headRowsOf)
    areMarked_of_mem_markRows areMarked_of_mem_markRows

/-- What follows from a relation holds of all that is related. -/
theorem forall_of_forall₂ {R : Node → Node → Prop} {p : Node → Prop} {first second : List Node}
    (each : ∀ node ∈ first, ∀ tree, R node tree → p tree) (related : List.Forall₂ R first second) :
    ∀ tree ∈ second, p tree := by
  induction related with
  | nil => exact nofun
  | cons here _ ih =>
      rw [List.forall_mem_cons] at each ⊢
      exact ⟨each.1 _ here, ih each.2⟩

mutual

/-- The tables of an expanded tree are laid out. -/
theorem tablesAreLaidOut_expand : ∀ {node tree : Node}, expand node = .ok tree →
    TablesAreLaidOut [tree]
  | ⟨kind, children⟩, tree, done => by
      have each := tablesAreLaidOut_expand_all children
      cases table : kind.isTable with
      | false =>
          obtain ⟨trees, related, rfl⟩ := (expand_other_eq_ok_iff table).1 done
          exact (tablesAreLaidOut_other table).2
            (tablesAreLaidOut_iff_forall.2 (forall_of_forall₂ each related))
      | true =>
          cases kind <;> cases table
          obtain ⟨-, trees, related, groups, expanded, rfl⟩ := expand_table_eq_ok_iff.1 done
          have inside : TablesAreLaidOut trees := tablesAreLaidOut_iff_forall.2
            (forall_of_forall₂ (fun node member => each node (mem_of_mem_headsBefore member)) related)
          refine tablesAreLaidOut_singleton.2 ⟨fun alignments same => ?_, ?_⟩
          · obtain rfl := NodeKind.table.inj same
            exact isLaidOut_expandTable expanded
          · obtain ⟨-, rfl⟩ := expandTable_eq_ok_iff.1 expanded
            exact tablesAreLaidOut_append.2
              ⟨tablesAreLaidOut_rowGroup rfl
                (tablesAreLaidOut_markRows (tablesAreLaidOut_headRowsOf inside)),
              tablesAreLaidOut_rowGroup rfl
                (tablesAreLaidOut_markRows (tablesAreLaidOut_bodyRowsOf inside))⟩

theorem tablesAreLaidOut_expand_all : ∀ nodes : List Node, ∀ node ∈ nodes, ∀ tree,
    expand node = .ok tree → TablesAreLaidOut [tree]
  | [] => nofun
  | _ :: rest => List.forall_mem_cons.2
      ⟨fun _ => tablesAreLaidOut_expand, tablesAreLaidOut_expand_all rest⟩

end

end

end Page

end DocPress
