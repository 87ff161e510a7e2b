import DocPress.Node

/-!
Tidying up a tree: fragments are dissolved, texts that stand side by side are joined, runs of white
space outside code become single spaces, and blank texts beside blocks are left out.
-/

namespace DocPress

namespace Minify

/-- Whether the character is white space that may be joined with more of it: tab, line feed, form
feed, carriage return or space. -/
def isSpace (c : Char) : Bool :=
  c = ' ' || c = '\t' || c = '\n' || c = '\r' || c.toNat = 12

/-- A text with a single space for every run of white space; `inRun` says whether the text before
ended in a run. -/
def collapseFrom (inRun : Bool) : List Char → List Char
  | [] => []
  | c :: rest =>
    if isSpace c then
      if inRun then collapseFrom true rest else ' ' :: collapseFrom true rest
    else c :: collapseFrom false rest

/-- A text with a single space for every run of white space. -/
def collapse (text : String) : String :=
  String.ofList (collapseFrom false text.toList)

/-- Joins texts that stand side by side. -/
def mergeTexts : List Node → List Node
  | [] => []
  | node :: rest =>
    match node, mergeTexts rest with
    | ⟨.text value, children⟩, ⟨.text next, _⟩ :: more => ⟨.text (value ++ next), children⟩ :: more
    | node, merged => node :: merged

/-- Collapses the white space of a text. -/
def collapseText : Node → Node
  | ⟨.text value, children⟩ => ⟨.text (collapse value), children⟩
  | node => node

/-- Whether the children of a block are running text, where blanks at the edges count. -/
def holdsRunningText : NodeKind → Bool
  | .paragraph | .heading .. | .tableCell .. => true
  | _ => false

/-- Whether a text is blank. -/
def isBlankText (value : String) : Bool :=
  value.toList.all isSpace

/-- Whether a child stays: a text goes if it is empty, or if it is blank outside code and a block is
beside it or it is at the edge of a block of blocks. -/
def stays (parent : NodeKind) (inCode : Bool) (before after : Option Node) (child : Node) : Bool :=
  match child.kind with
  | .text value =>
    if value.isEmpty then false
    else if !inCode && isBlankText value then
      let isBlock (node : Option Node) : Bool := node.any (·.kind.isBlock)
      let atEdge := parent.isBlock && (before.isNone || after.isNone)
      !(isBlock before || isBlock after || (atEdge && !holdsRunningText parent))
    else true
  | _ => true

/-- The children that stay, where `before` is the child in front of them. -/
def keep (parent : NodeKind) (inCode : Bool) (before : Option Node) : List Node → List Node
  | [] => []
  | child :: rest =>
    if stays parent inCode before rest.head? child then
      child :: keep parent inCode (some child) rest
    else keep parent inCode (some child) rest

/-- Tidies up a list of children. -/
def tidy (parent : NodeKind) (inCode : Bool) (children : List Node) : List Node :=
  let merged := mergeTexts children
  keep parent inCode none (if inCode then merged else merged.map collapseText)

mutual

/-- Tidies up a tree; `inCode` says whether it is inside code. -/
def minify (inCode : Bool) : Node → Node
  | ⟨kind, children⟩ =>
    let inCode := inCode || kind.isCode
    ⟨kind, tidy kind inCode (spliced inCode children)⟩

/-- The tidied children, with the children of fragments in place of the fragments. -/
def spliced (inCode : Bool) : List Node → List Node
  | [] => []
  | node :: rest =>
    let node := minify inCode node
    let nodes := if node.kind = .fragment then node.children else [node]
    nodes ++ spliced inCode rest

end

/-- Tidies up a tree. -/
def apply (node : Node) : Node :=
  minify false node

end Minify

end DocPress
