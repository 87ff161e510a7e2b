import DocPress.Catalog

/-!
The stages that change a tree, with their options, and the two phases in which they run.
-/

namespace DocPress

/-- When a stage runs: on the tree as it was written, or on the tree as it is shown. -/
inductive Phase where
  | pre
  | post
  deriving DecidableEq, Repr

/-- The name of a phase in messages. -/
def Phase.title : Phase → String
  | .pre => "Pre"
  | .post => "Post"

/-- The phases by their keywords. -/
def Phase.all : List (String × Phase) :=
  [("pre", .pre), ("post", .post)]

/-- The size of an image in pixels. -/
structure ImageSize where
  width : UInt32
  height : UInt32
  deriving DecidableEq, Repr

/-- How footnotes are treated. -/
structure FootnoteOptions where
  /-- Notes may be written in place, in brackets after a caret. -/
  inlineNotes : Bool := true
  /-- A note of one short paragraph is shown where it is referred to. -/
  inlineShort : Bool := false
  /-- The number of characters up to which a note is short. -/
  shortLength : Nat := 80
  deriving DecidableEq, Repr

/-- A stage. -/
inductive Stage where
  /-- Code fences with a caption become titled code blocks. -/
  | codeTitle
  /-- Footnotes are numbered, linked and collected. -/
  | footnotes (options : FootnoteOptions)
  /-- Images get the sizes known for their urls. -/
  | imageComponent (sizes : Catalog ImageSize)
  /-- Headings get ids. -/
  | headingSlug
  /-- Code is split into tokens; a strict stage refuses languages that it does not know. -/
  | highlight (strict : Bool)
  /-- The tree is tidied up. -/
  | minify
  deriving DecidableEq

namespace Stage

/-- The name of a stage. -/
def name : Stage → String
  | .codeTitle => "code-title"
  | .footnotes _ => "footnotes"
  | .imageComponent _ => "image-component"
  | .headingSlug => "heading-slug"
  | .highlight _ => "highlight"
  | .minify => "minify"

/-- The phase that a stage belongs to. -/
def phase : Stage → Phase
  | .codeTitle | .footnotes _ | .imageComponent _ => .pre
  | .headingSlug | .highlight _ | .minify => .post

/-- The names of all stages. -/
def names : List String :=
  ["code-title", "footnotes", "image-component", "heading-slug", "highlight", "minify"]

end Stage

end DocPress
