import DocPress.Node
import DocPress.Stage
import DocPress.Text.Blank

/-!
Images with sizes. The size of an image is known from its url, or else from a title such as
`=800x600`.
-/

namespace DocPress

namespace Picture

/-- Reads a number of 32 bits in decimal digits, perhaps with a plus sign. -/
def number? (text : List Char) : Option UInt32 :=
  let digits := match text with
    | '+' :: rest => rest
    | _ => text
  let value := digits.foldl (fun n c => 10 * n + (c.toNat - 48)) 0
  if digits.isEmpty || !digits.all Char.isDigit || UInt32.size ≤ value then none
  else some (UInt32.ofNat value)

/-- The size in a title. -/
def hint? (title : String) : Option ImageSize := do
  match Text.trim title.toList with
  | '=' :: rest =>
    let (width, height) ← Text.splitOnce? (fun c => c = 'x' || c = 'X') rest
    return ⟨← number? (Text.trim width), ← number? (Text.trim height)⟩
  | _ => none

/-- The size of an image. -/
def size? (sizes : Catalog ImageSize) (url title : String) : Option ImageSize :=
  (sizes.get? url).or (hint? title)

mutual

/-- Gives every image its size. What is inside an image becomes its text. -/
def apply (sizes : Catalog ImageSize) : Node → Node
  | ⟨.image url title, children⟩ =>
    let size := size? sizes url title
    .leaf (.imageComponent url (Node.textContentAll children) (size.map (·.width))
      (size.map (·.height)))
  | ⟨kind, children⟩ => ⟨kind, applyAll sizes children⟩

/-- Gives every image in a list of trees its size. -/
def applyAll (sizes : Catalog ImageSize) : List Node → List Node
  | [] => []
  | node :: rest => apply sizes node :: applyAll sizes rest

end

end Picture

end DocPress
