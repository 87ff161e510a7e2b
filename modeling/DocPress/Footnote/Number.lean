import DocPress.Footnote.Lift
import DocPress.Diagnostic
import DocPress.Stage

/-!
Numbering footnotes. Notes are numbered as they are first referred to, in the document and then in the
notes themselves, and listed in this order at the end of the document. Short notes may be shown where
they are referred to instead, and have no number then.
-/

namespace DocPress.Footnote

/-- The numbers given so far. -/
structure Numbering where
  /-- The labels in the order of their numbers, which start at one. -/
  order : List String
  warnings : List Warning

namespace Numbering

/-- Adds a warning. -/
def warn (warning : Warning) (numbering : Numbering) : Numbering :=
  { numbering with warnings := numbering.warnings ++ [warning] }

/-- The number of a label, the next one if it has none yet. -/
def number (label : String) (numbering : Numbering) : Nat × Numbering :=
  match numbering.order.findIdx? (· == label) with
  | some n => (n + 1, numbering)
  | none =>
    (numbering.order.length + 1, { numbering with order := numbering.order ++ [label] })

end Numbering

/-- The notes that references lead to. -/
structure Notes where
  /-- Notes that are listed. -/
  listed : List Note
  /-- Notes that are shown in place. -/
  short : List Note

mutual

/-- Resolves the references below a node. -/
def resolve (reference : String → Numbering → Node × Numbering) :
    Node → Numbering → Node × Numbering
  | ⟨kind, children⟩, numbering =>
    let (children, numbering) := resolveAll reference children numbering
    (⟨kind, children⟩, numbering)

/-- Resolves the references in a list of nodes and below. -/
def resolveAll (reference : String → Numbering → Node × Numbering) :
    List Node → Numbering → List Node × Numbering
  | [], numbering => ([], numbering)
  | node :: rest, numbering =>
    let (node, numbering) := match node.kind with
      | .footnoteReference label => reference label numbering
      | _ => resolve reference node numbering
    let (rest, numbering) := resolveAll reference rest numbering
    (node :: rest, numbering)

end

/-- What a reference becomes where the notes `shown` are being shown: a broken reference inside the
note itself or without a note, the note if it is short, and its number otherwise. -/
def Notes.refer (notes : Notes) :
    Nat → List String → String → Numbering → Node × Numbering
  | 0, _, label, numbering =>
    (.leaf (.brokenReference label), numbering.warn (.footnoteCycle label))
  | fuel + 1, shown, label, numbering =>
    if shown.contains label then
      (.leaf (.brokenReference label), numbering.warn (.footnoteCycle label))
    else
      match content? label notes.short with
      | some content =>
        let (children, numbering) :=
          resolveAll (notes.refer fuel (label :: shown)) content numbering
        (⟨.inlineNote label, children⟩, numbering)
      | none =>
        if (content? label notes.listed).isSome then
          let (n, numbering) := numbering.number label
          (.leaf (.footnoteCrossReference label (UInt64.ofNat n)), numbering)
        else
          (.leaf (.brokenReference label), numbering.warn (.undefinedFootnote label))

/-- What a reference becomes outside the notes. A note is shown inside others at most once, so their
number bounds how deep they are shown inside each other. -/
def Notes.reference (notes : Notes) : String → Numbering → Node × Numbering :=
  notes.refer (notes.short.length + 1) []

/-- The items of the list of notes from the given number on, for at most `fuel` notes. Their contents
may refer to further notes, which come after them. -/
def Notes.items (notes : Notes) : Nat → Nat → Numbering → List Node × Numbering
  | 0, _, numbering => ([], numbering)
  | fuel + 1, n, numbering =>
    match numbering.order[n]? with
    | none => ([], numbering)
    | some label =>
      let content := (content? label notes.listed).getD []
      let (content, numbering) := resolveAll notes.reference content numbering
      let (rest, numbering) := notes.items fuel (n + 1) numbering
      (⟨.footnoteItem label (UInt64.ofNat (n + 1)), content⟩ :: rest, numbering)

/-- Whether a note is shown in place: it is a single short paragraph. -/
def isShort (options : FootnoteOptions) (note : Note) : Bool :=
  options.inlineShort &&
    match note.content with
    | [paragraph] =>
      paragraph.kind = .paragraph && paragraph.textContent.length ≤ options.shortLength
    | _ => false

/-- Short notes apart from the others, as what is in their paragraphs. -/
def Notes.ofList (options : FootnoteOptions) (notes : List Note) : Notes where
  listed := notes.filter fun note => !isShort options note
  short := (notes.filter (isShort options)).map fun note =>
    ⟨note.label, note.content.flatMap (·.children)⟩

/-- Numbers the notes of a document, links them and lists them at its end. -/
def apply (options : FootnoteOptions) (document : Node) : Node × List Warning :=
  let (notes, doubled) := firsts [] (notesAll document.children)
  let tree : Node := ⟨document.kind, stripAll document.children⟩
  let (tree, notes) := if options.inlineNotes then liftDocument tree notes else (tree, notes)
  let notes := Notes.ofList options notes
  let (tree, numbering) :=
    resolve notes.reference tree ⟨[], doubled.map .duplicateFootnote⟩
  let (items, numbering) := notes.items notes.listed.length 0 numbering
  let list : List Node := if items.isEmpty then [] else [⟨.footnoteList, items⟩]
  (⟨tree.kind, tree.children ++ list⟩, numbering.warnings)

end DocPress.Footnote
