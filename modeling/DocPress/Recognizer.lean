import DocPress.Node
import DocPress.Text.Blank

/-!
Recognizers find constructs of their own inside plain text while a tree is built. The one that is
always there finds the expressions between double braces.
-/

namespace DocPress

/-- Finds constructs inside plain text. -/
structure Recognizer where
  name : String
  /-- The nodes that the text comes to, or none when there is nothing to find in it. -/
  recognize? : List Char → Option (List Node)

namespace Recognizer

/-- The two braces that open an expression. -/
def opening : List Char := [Char.ofNat 123, Char.ofNat 123]

/-- The two braces that close an expression. -/
def closing : List Char := [Char.ofNat 125, Char.ofNat 125]

/-- Whether a character may stand in the name of an expression. -/
def isNameChar (c : Char) : Bool :=
  c.isAlphanum || c = '_' || c = '-' || c = '.'

/-- Whether a text is the name of an expression. -/
def isName (name : List Char) : Bool :=
  !name.isEmpty && name.all isNameChar

/-- A text node for a text that is not empty. -/
def literal (text : List Char) : List Node :=
  if text.isEmpty then [] else [.text (String.ofList text)]

/-- The nodes of a text, and whether there is an expression among them. `before` is text that
precedes it and belongs to no node yet; `fuel` bounds the number of pairs of braces. -/
def split : Nat → List Char → List Char → List Node × Bool
  | 0, before, text => (literal (before ++ text), false)
  | fuel + 1, before, text =>
    match Text.splitAtMark? opening text with
    | none => (literal (before ++ text), false)
    | some (start, after) =>
      match Text.splitAtMark? closing after with
      | none => (literal (before ++ text), false)
      | some (inner, rest) =>
        let name := Text.trim inner
        if isName name then
          let (nodes, _) := split fuel [] rest
          (literal (before ++ start) ++ .leaf (.expression (String.ofList name)) :: nodes, true)
        else
          split fuel (before ++ start ++ opening ++ inner ++ closing) rest

/-- Finds expressions such as a name between double braces. -/
def expression : Recognizer where
  name := "expression"
  recognize? text :=
    let (nodes, found) := split (text.length + 1) [] text
    if found then some nodes else none

/-- The nodes that a recognizer makes of a node. -/
def applyTo (recognizer : Recognizer) (node : Node) : List Node :=
  match node.kind with
  | .text value => (recognizer.recognize? value.toList).getD [node]
  | _ => [node]

/-- The nodes that recognizers make of a text, one recognizer after the other. -/
def applyAll (recognizers : List Recognizer) (text : String) : List Node :=
  recognizers.foldl (fun nodes recognizer => nodes.flatMap recognizer.applyTo) [.text text]

end Recognizer

end DocPress
