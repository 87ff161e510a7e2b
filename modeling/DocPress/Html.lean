import DocPress.Node

/-!
Trees as HTML templates. A tree becomes a list of markup pieces, whose text is the template source.
Text of the document is escaped, braces included, so that the only placeholders of a template are
those of the expressions of its tree.
-/

namespace DocPress.Html

/-- A character as text of a page: the characters of markup and of placeholders are written as
references. -/
def escapeChar (c : Char) : List Char :=
  if c = '&' then "&amp;".toList
  else if c = '<' then "&lt;".toList
  else if c = '>' then "&gt;".toList
  else if c = '"' then "&quot;".toList
  else if c.toNat = 123 then "&#123;".toList
  else if c.toNat = 125 then "&#125;".toList
  else [c]

/-- A text as text of a page. -/
def escapeChars (text : List Char) : List Char :=
  text.flatMap escapeChar

/-- A text as text of a page. -/
def escape (text : String) : String :=
  String.ofList (escapeChars text.toList)

/-- Raw HTML in which no two braces open a placeholder. -/
def guardChars : List Char → List Char
  | [] => []
  | [c] => [c]
  | c :: next :: rest =>
    if c.toNat = 123 && next.toNat = 123 then "&#123;".toList ++ guardChars (next :: rest)
    else c :: guardChars (next :: rest)

/-- An attribute of a tag; one without a value is only named. -/
structure Attribute where
  name : String
  value : Option String
  deriving DecidableEq

/-- A piece of a page. -/
inductive Markup where
  /-- The start of an element. -/
  | opening (name : String) (attributes : List Attribute)
  /-- The end of an element. -/
  | closing (name : String)
  /-- An element without content. -/
  | empty (name : String) (attributes : List Attribute)
  /-- Text, which is escaped. -/
  | text (value : String)
  /-- Layout between elements, which is written as it stands. -/
  | layout (value : String)
  /-- Raw HTML of the document. -/
  | raw (value : String)
  /-- A value that is looked up when the page is shown. -/
  | placeholder (name : String)
  deriving DecidableEq

/-- The source of an attribute. -/
def Attribute.chars (a : Attribute) : List Char :=
  ' ' :: a.name.toList ++
    match a.value with
    | some value => ['=', '"'] ++ escapeChars value.toList ++ ['"']
    | none => []

/-- The source of a placeholder whose value may be missing. -/
def placeholderChars (name : String) : List Char :=
  [Char.ofNat 123, Char.ofNat 123, ' '] ++ name.toList ++
    ['?', ' ', Char.ofNat 125, Char.ofNat 125]

/-- The source of a piece. -/
def Markup.chars : Markup → List Char
  | .opening name attributes =>
    '<' :: name.toList ++ attributes.flatMap Attribute.chars ++ ['>']
  | .closing name => ['<', '/'] ++ name.toList ++ ['>']
  | .empty name attributes =>
    '<' :: name.toList ++ attributes.flatMap Attribute.chars ++ [' ', '/', '>']
  | .text value => escapeChars value.toList
  | .layout value => value.toList
  | .raw value => guardChars value.toList
  | .placeholder name => placeholderChars name

/-- The source of a page. -/
def write (page : List Markup) : String :=
  String.ofList (page.flatMap Markup.chars)

/-- An attribute with a value. -/
def attr (name value : String) : Attribute :=
  ⟨name, some value⟩

/-- An attribute that is left out when there is no value. -/
def optionalAttribute (name : String) : Option String → List Attribute
  | some value => [attr name value]
  | none => []

/-- The title of a link or an image, left out when it is empty. -/
def titleAttribute (title : String) : List Attribute :=
  if title = "" then [] else [attr "title" title]

/-- The class of code in a language. -/
def languageClass (language : Option String) : List Attribute :=
  optionalAttribute "class" (language.map ("language-" ++ ·))

/-- Whether a text can be the name of an element or attribute. -/
def isElementName (name : String) : Bool :=
  match name.toList with
  | [] => false
  | first :: rest => first.isAlpha && rest.all fun c => c.isAlphanum || c = '-'

/-- Pieces inside an element. -/
def wrap (name : String) (attributes : List Attribute) (content : List Markup) : List Markup :=
  .opening name attributes :: content ++ [.closing name]

/-- Pieces inside an element that ends its line. -/
def wrapLine (name : String) (attributes : List Attribute) (content : List Markup) : List Markup :=
  wrap name attributes content ++ [.layout "\n"]

/-- Pieces inside an element that stands on lines of its own. -/
def wrapLines (name : String) (attributes : List Attribute) (content : List Markup) :
    List Markup :=
  wrapLine name attributes (.layout "\n" :: content)

/-- Code inside its two elements. -/
def codeMarkup (language : Option String) (content : List Markup) : List Markup :=
  wrap "pre" (languageClass language) (wrap "code" (languageClass language) content)

/-- The box that shows the state of a task. -/
def checkbox (checked : Bool) : List Markup :=
  let state := if checked then [Attribute.mk "checked" none] else []
  [.empty "input" (attr "type" "checkbox" :: state ++ [⟨"disabled", none⟩]), .layout " "]

/-- The markup of a node, given that of its children. -/
def kindMarkup (node : Node) (content : List Markup) : List Markup :=
  match node.kind with
  | .document => content
  | .fragment => content
  | .heading level id =>
    wrapLine ("h" ++ toString level.toNat) (optionalAttribute "id" id) content
  | .paragraph => wrapLine "p" [] content
  | .text value => [.text value]
  | .emphasis => wrap "em" [] content
  | .strong => wrap "strong" [] content
  | .strikethrough => wrap "del" [] content
  | .inlineCode value => wrap "code" [] [.text value]
  | .codeBlock language _ code =>
    codeMarkup language (if node.children.isEmpty then [.text code] else content) ++
      [.layout "\n"]
  | .codeBlockWithTitle title language code =>
    wrapLine "div" [attr "class" "code-block"]
      (wrap "div" [attr "class" "code-title"] [.text title] ++
        codeMarkup language (if node.children.isEmpty then [.text code] else content))
  | .token className => wrap "span" [attr "class" ("token " ++ className)] content
  | .image url title =>
    [.empty "img" ([attr "src" url, attr "alt" node.textContent] ++ titleAttribute title)]
  | .imageComponent url alt width height =>
    [.empty "img" ([attr "src" url, attr "alt" alt] ++
      optionalAttribute "width" (width.map fun n => toString n.toNat) ++
      optionalAttribute "height" (height.map fun n => toString n.toNat) ++
      [attr "loading" "lazy", attr "decoding" "async"])]
  | .link url title => wrap "a" (attr "href" url :: titleAttribute title) content
  | .blockQuote => wrapLines "blockquote" [] content
  | .list true start =>
    let start := match start with
      | some n => if n = 1 then [] else [attr "start" (toString n.toNat)]
      | none => []
    wrapLines "ol" start content
  | .list false _ => wrapLines "ul" [] content
  | .listItem checked =>
    let box := match checked with
      | some checked => checkbox checked
      | none => []
    wrapLine "li" [] (box ++ content)
  | .table _ => wrapLines "table" [] content
  | .tableHead => wrapLines "thead" [] content
  | .tableBody => wrapLines "tbody" [] content
  | .tableRow => wrapLine "tr" [] content
  | .tableCell header align =>
    let style := align.map fun a => "text-align: " ++ a.keyword
    wrap (if header then "th" else "td") (optionalAttribute "style" style) content
  | .thematicBreak => [.empty "hr" [], .layout "\n"]
  | .softBreak => [.layout "\n"]
  | .hardBreak => [.empty "br" [], .layout "\n"]
  | .html value => [.raw value]
  | .footnoteReference label | .brokenReference label =>
    wrap "sup" [attr "class" "footnote-missing"] [.text ("[^" ++ label ++ "]")]
  | .footnoteDefinition label =>
    wrapLine "div" [attr "class" "footnote-definition", attr "id" ("fn-" ++ label)]
      content
  | .footnoteCrossReference _ ordinal =>
    let number := toString ordinal.toNat
    wrap "sup" [attr "class" "footnote-ref"]
      (wrap "a" [attr "href" ("#fn-" ++ number)] [.text number])
  | .inlineNote _ => wrap "span" [attr "class" "inline-note"] content
  | .footnoteList =>
    wrapLines "section" [attr "class" "footnotes"] (wrapLines "ol" [] content)
  | .footnoteItem _ ordinal =>
    wrapLine "li" [attr "id" ("fn-" ++ toString ordinal.toNat)] content
  | .section depth => wrapLines "section" [attr "data-depth" (toString depth.toNat)] content
  | .expression name => [.placeholder name]
  | .custom name attributes =>
    if isElementName name then
      let kept := attributes.entries.filter fun entry => isElementName entry.1
      wrap name (kept.map fun entry => attr entry.1 entry.2) content
    else content

mutual

/-- The markup of a tree. -/
def markup : Node → List Markup
  | node@⟨_, children⟩ => kindMarkup node (markupAll children)

/-- The markup of trees in order. -/
def markupAll : List Node → List Markup
  | [] => []
  | node :: rest => markup node ++ markupAll rest

end

/-- The template source of a tree. -/
def emit (node : Node) : String :=
  write (markup node)

end DocPress.Html
