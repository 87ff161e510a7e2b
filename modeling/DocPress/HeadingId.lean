import DocPress.Node
import DocPress.Slug
import DocPress.Diagnostic

/-!
Ids of headings. A heading that has no id gets the slug of its text, with a number behind it when
another heading has that id.
-/

namespace DocPress

namespace HeadingId

/-- The ids that headings have, in document order. -/
def given (node : Node) : List String :=
  node.kinds.filterMap fun
    | .heading _ id => id
    | _ => none

/-- The items of a list that occur in it before. -/
def repeated (seen : List String) : List String → List String
  | [] => []
  | id :: rest =>
    if seen.contains id then id :: repeated seen rest else repeated (id :: seen) rest

/-- A text with a number behind it. -/
def numbered (base : String) (n : Nat) : String :=
  base ++ "-" ++ toString n

/-- The first of the texts `base-n`, `base-(n+1)`, … that is not taken, out of `fuel` many. -/
def firstFree (taken : List String) (base : String) : Nat → Nat → String
  | 0, n => numbered base n
  | fuel + 1, n =>
    if taken.contains (numbered base n) then firstFree taken base fuel (n + 1)
    else numbered base n

/-- The slug of a heading's text, which is never empty. -/
def slug (text : String) : String :=
  let slug := String.ofList (slugify text.toList)
  if slug.isEmpty then "heading" else slug

/-- The id for a heading with the given text. -/
def unique (taken : List String) (text : String) : String :=
  let base := slug text
  if taken.contains base then firstFree taken base taken.length 2 else base

mutual

/-- Gives ids to the headings of a tree, and says which ids are taken then. -/
def assign (taken : List String) : Node → Node × List String
  | node@⟨.heading level none, children⟩ =>
    let id := unique taken node.textContent
    let (children, taken) := assignAll (id :: taken) children
    (⟨.heading level (some id), children⟩, taken)
  | ⟨kind, children⟩ =>
    let (children, taken) := assignAll taken children
    (⟨kind, children⟩, taken)

/-- Gives ids to the headings of a list of trees, and says which ids are taken then. -/
def assignAll (taken : List String) : List Node → List Node × List String
  | [] => ([], taken)
  | node :: rest =>
    let (node, taken) := assign taken node
    let (rest, taken) := assignAll taken rest
    (node :: rest, taken)

end

/-- Gives every heading an id, and warns of ids that were given more than once. -/
def apply (node : Node) : Node × List Warning :=
  let ids := given node
  ((assign ids node).1, (repeated [] ids).map .repeatedId)

end HeadingId

end DocPress
