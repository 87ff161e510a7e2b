import DocPress.Node

/-!
Definitions of footnotes. They are taken out of the tree wherever they stand, also inside each other,
and the first one that is taken counts for its label.
-/

namespace DocPress.Footnote

/-- A footnote: its label and its content. -/
structure Note where
  label : String
  content : List Node

mutual

/-- The nodes that a node leaves when the definitions are taken out: itself, or nothing. -/
def strip : Node → List Node
  | ⟨.footnoteDefinition _, _⟩ => []
  | ⟨kind, children⟩ => [⟨kind, stripAll children⟩]

/-- A list of nodes without the definitions. -/
def stripAll : List Node → List Node
  | [] => []
  | node :: rest => strip node ++ stripAll rest

end

mutual

/-- The definitions in a tree. One that stands inside another comes before it, and has none of the
definitions inside its own content. -/
def notes : Node → List Note
  | ⟨.footnoteDefinition label, children⟩ => notesAll children ++ [⟨label, stripAll children⟩]
  | ⟨_, children⟩ => notesAll children

/-- The definitions in a list of trees. -/
def notesAll : List Node → List Note
  | [] => []
  | node :: rest => notes node ++ notesAll rest

end

/-- The first note of every label, and the labels of the others; `seen` are the labels before. -/
def firsts (seen : List String) : List Note → List Note × List String
  | [] => ([], [])
  | note :: rest =>
    if seen.contains note.label then
      let (kept, doubled) := firsts seen rest
      (kept, note.label :: doubled)
    else
      let (kept, doubled) := firsts (note.label :: seen) rest
      (note :: kept, doubled)

/-- The content of the note of a label. -/
def content? (label : String) (notes : List Note) : Option (List Node) :=
  (notes.find? (·.label == label)).map (·.content)

end DocPress.Footnote
