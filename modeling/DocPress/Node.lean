import DocPress.Catalog

/-!
The tree of a document. A node has a kind, which carries the attributes of that kind, and children
in document order. Stages change trees; the text of a tree and the walk over it in document order
are here.
-/

namespace DocPress

/-- Where the text of a table column stands. -/
inductive Align where
  | left
  | center
  | right
  deriving DecidableEq, Repr, Inhabited

/-- The keyword for an alignment. -/
def Align.keyword : Align → String
  | .left => "left"
  | .center => "center"
  | .right => "right"

/-- The attributes of an element, by name. -/
abbrev Attributes := Catalog String

/-- The kind of a node, with the attributes of that kind. -/
inductive NodeKind where
  | document
  | heading (level : UInt8) (id : Option String)
  | paragraph
  | text (value : String)
  | emphasis
  | strong
  | strikethrough
  | inlineCode (value : String)
  | codeBlock (language : Option String) (info : Option String) (code : String)
  | codeBlockWithTitle (title : String) (language : Option String) (code : String)
  /-- A run of highlighted code; its text is in text nodes below it. -/
  | token (className : String)
  | image (url : String) (title : String)
  | imageComponent (url : String) (alt : String) (width : Option UInt32) (height : Option UInt32)
  | link (url : String) (title : String)
  | blockQuote
  | list (ordered : Bool) (start : Option UInt64)
  | listItem (checked : Option Bool)
  | table (alignments : List (Option Align))
  | tableHead
  | tableBody
  | tableRow
  | tableCell (header : Bool) (align : Option Align)
  | thematicBreak
  | softBreak
  | hardBreak
  | html (value : String)
  | footnoteReference (label : String)
  | footnoteDefinition (label : String)
  | footnoteCrossReference (label : String) (ordinal : UInt64)
  | brokenReference (label : String)
  /-- A short footnote that is shown where it is referred to. -/
  | inlineNote (label : String)
  | footnoteList
  | footnoteItem (label : String) (ordinal : UInt64)
  /-- A heading together with the content under it. -/
  | section (depth : UInt8)
  /-- A group that shows nothing but its children. -/
  | fragment
  /-- A value that is looked up when the finished document is shown. -/
  | expression (name : String)
  | custom (name : String) (attributes : Attributes)
  deriving DecidableEq, Inhabited

namespace NodeKind

/-- The name of a kind. -/
def name : NodeKind → String
  | .document => "document"
  | .heading .. => "heading"
  | .paragraph => "paragraph"
  | .text _ => "text"
  | .emphasis => "emphasis"
  | .strong => "strong"
  | .strikethrough => "strikethrough"
  | .inlineCode _ => "inline-code"
  | .codeBlock .. => "code-block"
  | .codeBlockWithTitle .. => "code-block-with-title"
  | .token _ => "token"
  | .image .. => "image"
  | .imageComponent .. => "image-component"
  | .link .. => "link"
  | .blockQuote => "block-quote"
  | .list .. => "list"
  | .listItem _ => "list-item"
  | .table _ => "table"
  | .tableHead => "table-head"
  | .tableBody => "table-body"
  | .tableRow => "table-row"
  | .tableCell .. => "table-cell"
  | .thematicBreak => "thematic-break"
  | .softBreak => "soft-break"
  | .hardBreak => "hard-break"
  | .html _ => "html"
  | .footnoteReference _ => "footnote-reference"
  | .footnoteDefinition _ => "footnote-definition"
  | .footnoteCrossReference .. => "footnote-cross-reference"
  | .brokenReference _ => "broken-reference"
  | .inlineNote _ => "inline-note"
  | .footnoteList => "footnote-list"
  | .footnoteItem .. => "footnote-item"
  | .section _ => "section"
  | .fragment => "fragment"
  | .expression _ => "expression"
  | .custom .. => "custom"

/-- Whether the kind is block content. -/
def isBlock : NodeKind → Bool
  | .document | .heading .. | .paragraph | .codeBlock .. | .codeBlockWithTitle .. | .blockQuote
  | .list .. | .listItem _ | .table _ | .tableHead | .tableBody | .tableRow | .thematicBreak
  | .footnoteDefinition _ | .footnoteList | .footnoteItem .. | .section _ => true
  | _ => false

/-- Whether text inside the kind is code. -/
def isCode : NodeKind → Bool
  | .codeBlock .. | .codeBlockWithTitle .. | .inlineCode _ | .token _ => true
  | _ => false

/-- Whether the kind is a text. -/
def isText : NodeKind → Bool
  | .text _ => true
  | _ => false

end NodeKind

/-- A node of a document tree. -/
structure Node where
  kind : NodeKind
  children : List Node
  deriving Inhabited

namespace Node

/-- A node without children. -/
def leaf (kind : NodeKind) : Node :=
  ⟨kind, []⟩

/-- A text. -/
def text (value : String) : Node :=
  leaf (.text value)

/-- A whole document. -/
def document (children : List Node) : Node :=
  ⟨.document, children⟩

mutual

/-- Whether two trees are the same, as a decision with its proof. -/
def decEq : (a b : Node) → Decidable (a = b)
  | ⟨kind, children⟩, ⟨kind', children'⟩ =>
    if h : kind = kind' then
      match decEqList children children' with
      | isTrue h' => isTrue (by rw [h, h'])
      | isFalse h' => isFalse (by simp [h'])
    else isFalse (by simp [h])

/-- Whether two lists of trees are the same, as a decision with its proof. -/
def decEqList : (as bs : List Node) → Decidable (as = bs)
  | [], [] => isTrue rfl
  | [], _ :: _ => isFalse (by simp)
  | _ :: _, [] => isFalse (by simp)
  | a :: as, b :: bs =>
    match decEq a b with
    | isTrue h =>
      match decEqList as bs with
      | isTrue h' => isTrue (by rw [h, h'])
      | isFalse h' => isFalse (by simp [h'])
    | isFalse h => isFalse (by simp [h])

end

instance : DecidableEq Node := decEq

mutual

/-- The nodes of a tree in document order: a node, then the nodes below it. -/
def walk : Node → List Node
  | node@⟨_, children⟩ => node :: walkAll children

/-- The nodes of a list of trees in document order. -/
def walkAll : List Node → List Node
  | [] => []
  | node :: rest => node.walk ++ walkAll rest

end

/-- The kinds of the nodes of a tree in document order. -/
def kinds (node : Node) : List NodeKind :=
  node.walk.map (·.kind)

mutual

/-- The number of nodes of a tree. -/
def count : Node → Nat
  | ⟨_, children⟩ => 1 + countAll children

/-- The number of nodes of a list of trees. -/
def countAll : List Node → Nat
  | [] => 0
  | node :: rest => node.count + countAll rest

end

/-- The number of nodes of a tree whose kind satisfies `p`. -/
def countWhere (p : NodeKind → Bool) (node : Node) : Nat :=
  node.kinds.countP p

/-- The text that a node adds to its tree, apart from its children. The code of a block counts only
when it has no children, which otherwise hold the same code in pieces; a line break is a blank. -/
def ownText : Node → String
  | ⟨.text value, _⟩ => value
  | ⟨.inlineCode value, _⟩ => value
  | ⟨.codeBlock _ _ code, []⟩ => code
  | ⟨.codeBlockWithTitle _ _ code, []⟩ => code
  | ⟨.softBreak, _⟩ => " "
  | ⟨.hardBreak, _⟩ => " "
  | _ => ""

mutual

/-- The text of a tree. -/
def textContent : Node → String
  | node@⟨_, children⟩ => node.ownText ++ textContentAll children

/-- The text of a list of trees. -/
def textContentAll : List Node → String
  | [] => ""
  | node :: rest => node.textContent ++ textContentAll rest

end

end Node

end DocPress
