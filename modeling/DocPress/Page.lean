import DocPress.Node

/-!
The tree of a page. Tables get a head and a body of rows, with the alignments of their columns in the
cells, and headings get sections with the content under them.
-/

namespace DocPress

/-- Why a tree cannot be made into a page. -/
inductive RenderError where
  | unexpectedRoot (kind : String)
  | malformedTable (kind : String)
  deriving DecidableEq, Repr

/-- The wording of an error. -/
def RenderError.message : RenderError → String
  | .unexpectedRoot kind => "expected a document root, found " ++ kind
  | .malformedTable kind => "malformed table: unexpected " ++ kind

namespace Page

/-! ### Tables -/

/-- The rows of a table, those of its heads and those of its bodies. -/
structure Rows where
  head : List Node
  body : List Node

/-- The rows of a head. What are not all rows are the cells of a single one. -/
def headRows (children : List Node) : List Node :=
  if children.all (·.kind = .tableRow) then children else [⟨.tableRow, children⟩]

/-- The rows in the children of a table. -/
def collectRows : List Node → Except RenderError Rows
  | [] => .ok ⟨[], []⟩
  | child :: rest =>
    match child.kind with
    | .tableHead => (collectRows rest).map fun rows =>
      { rows with head := headRows child.children ++ rows.head }
    | .tableBody => (collectRows rest).map fun rows =>
      { rows with body := child.children ++ rows.body }
    | .tableRow => (collectRows rest).map fun rows =>
      { rows with body := child :: rows.body }
    | kind => .error (.malformedTable kind.name)

/-- Marks the cells of a row, from a column on whose alignment is the first one given. -/
def markCells (header : Bool) : List (Option Align) → List Node → List Node
  | _, [] => []
  | alignments, cell :: rest =>
    let cell := match cell.kind with
      | .tableCell _ _ => { cell with kind := .tableCell header (alignments.head?.getD none) }
      | _ => cell
    cell :: markCells header alignments.tail rest

/-- Marks the cells of rows. -/
def markRows (header : Bool) (alignments : List (Option Align)) (rows : List Node) : List Node :=
  rows.map fun row => { row with children := markCells header alignments row.children }

/-- A group of rows, if there are any. -/
def rowGroup (kind : NodeKind) (rows : List Node) : List Node :=
  if rows.isEmpty then [] else [⟨kind, rows⟩]

/-- The children of a table in a page. -/
def expandTable (alignments : List (Option Align)) (children : List Node) :
    Except RenderError (List Node) :=
  (collectRows children).map fun rows =>
    rowGroup .tableHead (markRows true alignments rows.head) ++
      rowGroup .tableBody (markRows false alignments rows.body)

/-- Results with those for the heads of tables in front. -/
def headsFirst (results : List (NodeKind × Except RenderError Node)) :
    List (Except RenderError Node) :=
  let isHead (result : NodeKind × Except RenderError Node) : Bool := result.1 = .tableHead
  ((results.filter isHead) ++ (results.filter (!isHead ·))).map (·.2)

mutual

/-- Expands the tables of a tree. A table is checked before the tables in it, and those in its head
before those in its body. -/
def expand : Node → Except RenderError Node
  | ⟨.table alignments, children⟩ => do
    let _ ← collectRows children
    let children ← (headsFirst (expandEach children)).mapM id
    return ⟨.table alignments, ← expandTable alignments children⟩
  | ⟨kind, children⟩ => do
    return ⟨kind, ← ((expandEach children).map (·.2)).mapM id⟩

/-- What becomes of each tree of a list, with its kind. -/
def expandEach : List Node → List (NodeKind × Except RenderError Node)
  | [] => []
  | node :: rest => (node.kind, expand node) :: expandEach rest

end

/-! ### Sections -/

/-- Whether a node is under a heading of a level that stands before it. Headings of the same or a
lower level are not, and neither is the list of footnotes. -/
def isUnder (level : UInt8) (node : Node) : Bool :=
  match node.kind with
  | .heading other _ => level < other
  | .footnoteList => false
  | _ => true

/-- Puts every heading into a section with what is under it. -/
def sections : List Node → List Node
  | [] => []
  | node :: rest =>
    match node.kind with
    | .heading level _ =>
      ⟨.section level, node :: sections (rest.takeWhile (isUnder level))⟩ ::
        sections (rest.dropWhile (isUnder level))
    | _ => node :: sections rest
termination_by nodes => nodes.length
decreasing_by
  · have := (List.takeWhile_sublist (l := rest) (isUnder level)).length_le
    simp only [List.length_cons]
    omega
  · have := (List.dropWhile_sublist (l := rest) (isUnder level)).length_le
    simp only [List.length_cons]
    omega
  · simp

/-- The tree of a page, with or without sections. -/
def render (flat : Bool) (tree : Node) : Except RenderError Node :=
  if tree.kind = .document then do
    let tree ← expand tree
    return if flat then tree else { tree with children := sections tree.children }
  else .error (.unexpectedRoot tree.kind.name)

end Page

end DocPress
