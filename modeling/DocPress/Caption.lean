import DocPress.Node
import DocPress.Text.Blank

/-!
Captions of code fences. A fence has a title when its language has one behind a colon, when its info
string has a `title` attribute, or when that string is the name of a file.
-/

namespace DocPress

mutual

/-- Changes the kind of every node of a tree. -/
def Node.mapKinds (f : NodeKind → NodeKind) : Node → Node
  | ⟨kind, children⟩ => ⟨f kind, mapKindsAll f children⟩

/-- Changes the kind of every node of a list of trees. -/
def Node.mapKindsAll (f : NodeKind → NodeKind) : List Node → List Node
  | [] => []
  | node :: rest => node.mapKinds f :: mapKindsAll f rest

end

namespace Caption

/-- The word in front of the value of a title. -/
def titleWord : List Char :=
  "title=".toList

/-- The text behind the first `title=` that starts a word; `atWord` says whether a word starts
here. -/
def findAttribute (atWord : Bool) : List Char → Option (List Char)
  | [] => none
  | c :: rest =>
    match if atWord then Text.stripStart? titleWord (c :: rest) else none with
    | some value => some value
    | none => findAttribute (Text.isBlank c) rest

/-- The text in quotes at the start of a text, trimmed, if it is not blank. -/
def quoted? : List Char → Option (List Char)
  | [] => none
  | quote :: rest =>
    if quote = '"' || quote = '\'' then
      match Text.splitOnce? (· = quote) rest with
      | some (value, _) =>
        let title := Text.trim value
        if title.isEmpty then none else some title
      | none => none
    else none

/-- Whether a text is the name of a file: a single word with a stem and an alphanumeric extension,
and no braces or equals signs. -/
def isFileName (text : List Char) : Bool :=
  !text.any (fun c => Text.isBlank c || c = '=' || c.toNat = 123 || c.toNat = 125) &&
    match Text.splitOnce? (· = '.') text.reverse with
    | some (extension, stem) =>
      !stem.isEmpty && !extension.isEmpty && extension.all Char.isAlphanum
    | none => false

/-- The language and the title in a language with a title behind a colon. -/
def ofLanguage? (language : String) : Option (Option String × String) :=
  match Text.splitOnce? (· = ':') language.toList with
  | some (name, title) =>
    let title := Text.trim title
    if title.isEmpty then none
    else some (if name.isEmpty then none else some (String.ofList name), String.ofList title)
  | none => none

/-- The title in the rest of an info string. -/
def ofInfo? (info : String) : Option String :=
  let info := Text.trim info.toList
  match findAttribute true info with
  | some value => (quoted? value).map String.ofList
  | none => if isFileName info then some (String.ofList info) else none

/-- The language and the title of a fence that has a caption. -/
def caption? (language info : Option String) : Option (Option String × String) :=
  match language.bind ofLanguage? with
  | some found => some found
  | none => (info.bind ofInfo?).map fun title => (language, title)

/-- A code block with a caption becomes a titled one. -/
def titled : NodeKind → NodeKind
  | .codeBlock language info code =>
    match caption? language info with
    | some (language, title) => .codeBlockWithTitle title language code
    | none => .codeBlock language info code
  | kind => kind

/-- Titles every code block that has a caption. -/
def apply (node : Node) : Node :=
  node.mapKinds titled

end Caption

end DocPress
