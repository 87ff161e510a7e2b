import DocPress.Footnote.Definition
import DocPress.Text.Blank

/-!
Notes written in place, in brackets after a caret. Each becomes a reference to a note with a label of
its own. Brackets inside a note come in pairs; notes without an end and blank notes stay text.
-/

namespace DocPress.Footnote

/-- The notes made of notes written in place. -/
structure Lifting where
  /-- The labels that are taken. -/
  taken : List String
  /-- The number in the last label that was tried. -/
  count : Nat
  /-- The notes made so far. -/
  made : List Note

/-- The label with a number. -/
def generatedLabel (n : Nat) : String :=
  "inline-" ++ toString n

/-- The first number from `n` on whose label is not taken, out of `fuel` many. -/
def freeNumber (taken : List String) : Nat → Nat → Nat
  | 0, n => n
  | fuel + 1, n =>
    if taken.contains (generatedLabel n) then freeNumber taken fuel (n + 1) else n

/-- Makes a note, and gives the reference to it. -/
def Lifting.make (content : List Node) (lifting : Lifting) : Node × Lifting :=
  let n := freeNumber lifting.taken lifting.taken.length (lifting.count + 1)
  let label := generatedLabel n
  (.leaf (.footnoteReference label),
    ⟨label :: lifting.taken, n, lifting.made ++ [⟨label, [⟨.paragraph, content⟩]⟩]⟩)

/-- A piece of the children of a node: a character of a text, or a node that is no text. -/
inductive Piece where
  | char (c : Char)
  | node (node : Node)

/-- The pieces of a list of nodes. -/
def pieces : List Node → List Piece
  | [] => []
  | ⟨.text value, _⟩ :: rest => value.toList.map .char ++ pieces rest
  | node :: rest => .node node :: pieces rest

/-- The nodes that pieces make up; characters side by side are one text. -/
def joinPieces : List Piece → List Node
  | [] => []
  | .node node :: rest => node :: joinPieces rest
  | .char c :: rest =>
    match joinPieces rest with
    | ⟨.text value, children⟩ :: more => ⟨.text (String.singleton c ++ value), children⟩ :: more
    | nodes => .text (String.singleton c) :: nodes

/-- Splits pieces at the bracket that closes a note, where `depth` brackets in it are open. -/
def closeNote? (depth : Nat) : List Piece → Option (List Piece × List Piece)
  | [] => none
  | .char ']' :: rest =>
    match depth with
    | 0 => some ([], rest)
    | depth + 1 => (closeNote? depth rest).map fun parts => (.char ']' :: parts.1, parts.2)
  | piece :: rest =>
    let depth := match piece with
      | .char '[' => depth + 1
      | _ => depth
    (closeNote? depth rest).map fun parts => (piece :: parts.1, parts.2)

/-- Whether there is nothing but blanks in the text of nodes. -/
def isBlank (nodes : List Node) : Bool :=
  nodes.all fun node => node.textContent.toList.all Text.isBlank

/-- Lifts the notes out of pieces; `fuel` is at least the number of pieces. -/
def liftPieces : Nat → List Piece → Lifting → List Piece × Lifting
  | 0, pieces, lifting => (pieces, lifting)
  | _, [], lifting => ([], lifting)
  | fuel + 1, .char '^' :: .char '[' :: rest, lifting =>
    match closeNote? 0 rest with
    | none => (.char '^' :: .char '[' :: rest, lifting)
    | some (inner, rest) =>
      let content := joinPieces inner
      if isBlank content then
        let (rest, lifting) := liftPieces fuel rest lifting
        (.char '^' :: .char '[' :: inner ++ .char ']' :: rest, lifting)
      else
        let (reference, lifting) := lifting.make content
        let (rest, lifting) := liftPieces fuel rest lifting
        (.node reference :: rest, lifting)
  | fuel + 1, piece :: rest, lifting =>
    let (rest, lifting) := liftPieces fuel rest lifting
    (piece :: rest, lifting)

/-- Whether a node is a text with a caret. -/
def hasCaret : Node → Bool
  | ⟨.text value, _⟩ => value.toList.contains '^'
  | _ => false

/-- Lifts the notes out of the texts of a list of children. -/
def liftChildren (children : List Node) (lifting : Lifting) : List Node × Lifting :=
  if children.any hasCaret then
    let pieces := pieces children
    let (pieces, lifting) := liftPieces pieces.length pieces lifting
    (joinPieces pieces, lifting)
  else (children, lifting)

mutual

/-- Lifts the notes out of a tree, those further down first. Nothing is lifted out of code. -/
def lift : Node → Lifting → Node × Lifting
  | ⟨kind, children⟩, lifting =>
    if kind.isCode then (⟨kind, children⟩, lifting)
    else
      let (children, lifting) := liftAll children lifting
      let (children, lifting) := liftChildren children lifting
      (⟨kind, children⟩, lifting)

/-- Lifts the notes out of trees one after the other. -/
def liftAll : List Node → Lifting → List Node × Lifting
  | [], lifting => ([], lifting)
  | node :: rest, lifting =>
    let (node, lifting) := lift node lifting
    let (rest, lifting) := liftAll rest lifting
    (node :: rest, lifting)

end

/-- Lifts the notes out of the contents of notes. -/
def liftNotes : List Note → Lifting → List Note × Lifting
  | [], lifting => ([], lifting)
  | note :: rest, lifting =>
    let (holder, lifting) := lift ⟨.fragment, note.content⟩ lifting
    let (rest, lifting) := liftNotes rest lifting
    (⟨note.label, holder.children⟩ :: rest, lifting)

/-- Lifts the notes written in place out of a tree, then out of the contents of the notes that there
are. Notes found in these contents come last, and nothing is lifted out of them. -/
def liftDocument (tree : Node) (notes : List Note) : Node × List Note :=
  let (tree, lifting) := lift tree ⟨notes.map (·.label), 0, []⟩
  let (notes, lifting) := liftNotes (notes ++ lifting.made) { lifting with made := [] }
  (tree, notes ++ lifting.made)

end DocPress.Footnote
