import DocPress.Syntax.Grammar

/-!
The grammar of HTML: tags with their attributes, entities and comments.
-/

namespace DocPress.Syntax.Language

/-- Entities. -/
def htmlEntities : List Rule :=
  [rule "(&)([a-zA-Z0-9]+|#\\d+|#[xX]\\h+)(;)" "constant.character.entity.html" .stay
      [(1, "punctuation.definition.entity.html"), (3, "punctuation.definition.entity.html")],
    rule "&" "invalid.illegal.bad-ampersand.html"]

/-- Names of elements that are blocks. -/
def htmlBlocks : String :=
  "address|applet|article|aside|blockquote|center|dd|dir|div|dl|dt|figcaption|figure|footer|frame|" ++
  "frameset|h1|h2|h3|h4|h5|h6|header|iframe|menu|nav|noframes|object|ol|p|pre|section|ul"

/-- Names of elements that are the frame of a document. -/
def htmlFrames : String :=
  "body|head|html"

/-- The grammar of HTML. -/
def html : Grammar where
  scope := "text.html.basic"
  contexts :=
    [context "main" ""
      ([rule "<!--" "punctuation.definition.comment.begin.html" (.enter ["comment"]),
        rule "(<\\?)(xml)" "" (.enter ["attributes"])
          [(1, "punctuation.definition.tag.html"), (2, "entity.name.tag.xml.html")],
        rule "(<!)(?=[a-zA-Z])" "" (.enter ["declaration"])
          [(1, "punctuation.definition.tag.html")],
        rule ("(</?)((?:" ++ htmlFrames ++ ")\\b)") "" (.enter ["attributes"])
          [(1, "punctuation.definition.tag.begin.html"),
            (2, "entity.name.tag.structure.any.html")],
        rule ("(</?)((?:" ++ htmlBlocks ++ ")\\b)") "" (.enter ["attributes"])
          [(1, "punctuation.definition.tag.begin.html"), (2, "entity.name.tag.block.any.html")],
        rule "(</?)([a-zA-Z][a-zA-Z0-9:-]*)" "" (.enter ["attributes"])
          [(1, "punctuation.definition.tag.begin.html"), (2, "entity.name.tag.inline.any.html")],
        rule "<>" "invalid.illegal.incomplete.html"] ++ htmlEntities),
      context "comment" "comment.block.html"
        [rule "-->" "punctuation.definition.comment.end.html" .leave],
      context "declaration" "meta.tag.sgml.html"
        [rule "(DOCTYPE|doctype)" "entity.name.tag.doctype.html",
          rule "\"[^\">]*\"" "string.quoted.double.doctype.identifiers-and-DTDs.html",
          rule ">" "punctuation.definition.tag.html" .leave],
      context "attributes" "meta.tag.html"
        ([rule "\\s?/?>|\\?>" "punctuation.definition.tag.end.html" .leave,
          rule "=" "punctuation.separator.key-value.html" (.enter ["value"]),
          rule "[^\\s\"'<>/=]+" "entity.other.attribute-name.html"]),
      context "value" ""
        [rule "\"" "punctuation.definition.string.begin.html" (.replace ["double"]),
          rule "'" "punctuation.definition.string.begin.html" (.replace ["single"]),
          rule "[^\\s\"'<>=`]+" "string.unquoted.html" .leave,
          rule "(?=\\S)" "" .leave],
      context "double" "string.quoted.double.html"
        (rule "\"" "punctuation.definition.string.end.html" .leave :: htmlEntities),
      context "single" "string.quoted.single.html"
        (rule "'" "punctuation.definition.string.end.html" .leave :: htmlEntities)]

end DocPress.Syntax.Language
