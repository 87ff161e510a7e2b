import DocPress.Syntax.Grammar

/-!
The grammar of CSS: selectors, at-rules, and properties with their values.
-/

namespace DocPress.Syntax.Language

/-- Comments. -/
def cssComments : List Rule :=
  [rule "/\\*" "punctuation.definition.comment.css" (.enter ["comment"])]

/-- Strings. -/
def cssStrings : List Rule :=
  [rule "\"" "punctuation.definition.string.begin.css" (.enter ["double"]),
    rule "'" "punctuation.definition.string.begin.css" (.enter ["single"])]

/-- Numbers with their units, and colours. -/
def cssNumbers : List Rule :=
  [rule "(#)(?:\\h\\h\\h\\h\\h\\h\\h\\h|\\h\\h\\h\\h\\h\\h|\\h\\h\\h\\h|\\h\\h\\h)\\b"
      "constant.other.color.rgb-value.css" .stay
      [(1, "punctuation.definition.constant.css")],
    rule ("[-+]?(?:\\d*\\.)?\\d+(?:[eE][-+]?\\d+)?(em|ex|ch|rem|vw|vh|vmin|vmax|cm|mm|q|in|pt|pc|px|fr|" ++
      "deg|grad|rad|turn|s|ms|Hz|kHz|dpi|dpcm|dppx|%)?") "constant.numeric.css" .stay
      [(1, "keyword.other.unit.css")]]

/-- Names of elements. -/
def cssElements : String :=
  "a|abbr|acronym|address|area|article|aside|audio|b|base|big|blockquote|body|br|button|canvas|" ++
  "caption|center|cite|code|col|colgroup|content|datalist|dd|del|details|dfn|dir|dialog|div|dl|dt|" ++
  "element|em|embed|fieldset|figure|figcaption|font|footer|form|frame|frameset|h1|h2|h3|h4|h5|h6|" ++
  "head|header|hgroup|hr|html|i|iframe|img|input|ins|kbd|keygen|label|legend|li|link|main|map|mark|" ++
  "menu|menuitem|meta|meter|nav|noframes|noscript|object|ol|optgroup|option|output|p|param|picture|" ++
  "pre|progress|q|rp|rt|rtc|ruby|s|samp|script|section|select|shadow|small|source|span|strike|" ++
  "strong|style|sub|summary|sup|svg|table|tbody|td|template|textarea|tfoot|th|thead|time|title|tr|" ++
  "track|tt|u|ul|var|video|wbr|xmp|circle|path|rect|line|polygon|polyline|text|tspan|ellipse|g"

/-- What may stand in selectors. -/
def cssSelectors : List Rule :=
  cssComments ++
    [rule "(\\.)(-?[a-zA-Z_][\\w-]*)" "entity.other.attribute-name.class.css" .stay
        [(1, "punctuation.definition.entity.css")],
      rule "(#)(-?[a-zA-Z_][\\w-]*)" "entity.other.attribute-name.id.css" .stay
        [(1, "punctuation.definition.entity.css")],
      rule "\\*" "entity.name.tag.wildcard.css",
      rule ("\\b(?:" ++ cssElements ++ ")\\b(?![-])") "entity.name.tag.css",
      rule "\\b[a-z][a-z0-9]*-[\\w-]*" "entity.name.tag.custom.css",
      rule "(::)([a-zA-Z-]+)" "entity.other.pseudo-element.css" .stay
        [(1, "punctuation.definition.entity.css")],
      rule "(:)([a-zA-Z-]+)" "entity.other.pseudo-class.css" .stay
        [(1, "punctuation.definition.entity.css")],
      rule "\\(" "punctuation.definition.group.begin.css",
      rule "\\)" "punctuation.definition.group.end.css",
      rule "\\[" "punctuation.definition.entity.css" (.enter ["attribute"]),
      rule ">|\\+|~" "punctuation.separator.combinator.css",
      rule "," "punctuation.separator.css"]

/-- What may stand outside of property lists. -/
def cssStatements : List Rule :=
  cssComments ++
    [rule "(@)(charset|import|namespace)\\b" "keyword.control.at-rule.css" (.enter ["at-line"])
        [(1, "punctuation.definition.keyword.css")],
      rule "(@)(?:-[a-z]+-)?(?:font-face|page|counter-style|viewport)\\b"
        "keyword.control.at-rule.css" (.enter ["at-list"])
        [(1, "punctuation.definition.keyword.css")],
      rule "(@)([a-zA-Z-]+)" "keyword.control.at-rule.css" (.enter ["at-block"])
        [(1, "punctuation.definition.keyword.css")],
      rule "\\\x7b" "punctuation.section.property-list.css" (.enter ["properties"])] ++ cssSelectors

/-- The grammar of CSS. -/
def css : Grammar where
  scope := "source.css"
  contexts :=
    [context "main" "" (rule "\\\x7d" "punctuation.section.block.css" :: cssStatements),
      context "block" "meta.property-list.media-query.css"
        (rule "\\\x7d" "punctuation.section.block.css" .leave :: cssStatements),
      context "comment" "comment.block.css"
        [rule "\\*/" "punctuation.definition.comment.css" .leave],
      context "double" "string.quoted.double.css"
        [rule "\"" "punctuation.definition.string.end.css" .leave,
          rule "\\\\(?:\\h+|.)" "constant.character.escape.css",
          rule "$\\n?" "invalid.illegal.unclosed-string.css" .leave],
      context "single" "string.quoted.single.css"
        [rule "'" "punctuation.definition.string.end.css" .leave,
          rule "\\\\(?:\\h+|.)" "constant.character.escape.css",
          rule "$\\n?" "invalid.illegal.unclosed-string.css" .leave],
      context "attribute" "meta.attribute-selector.css"
        (cssComments ++
          [rule "\\]" "punctuation.definition.entity.css" .leave,
            rule "[~|^$*]?=" "keyword.operator.attribute-selector.css" (.enter ["attribute-value"]),
            rule "-?[a-zA-Z_][\\w-]*" "entity.other.attribute-name.css"] ++ cssStrings),
      context "attribute-value" ""
        (cssStrings ++
          [rule "(?=\\])" "" .leave, rule "[\\w-]+" "string.unquoted.css"]),
      context "at-line" "meta.at-rule.css"
        (cssComments ++ cssStrings ++
          [rule ";" "punctuation.terminator.rule.css" .leave,
            rule "\\b(url)(\\()" "" (.enter ["function"])
              [(1, "support.function.url.css"), (2, "punctuation.definition.group.begin.css")]]),
      context "at-list" "meta.at-rule.css"
        (cssComments ++
          [rule "(?=\\\x7b)" "" .leave,
            rule ";" "punctuation.terminator.rule.css" .leave,
            rule "(:)([a-zA-Z-]+)" "entity.other.pseudo-class.css" .stay
              [(1, "punctuation.definition.entity.css")]]),
      context "at-block" "meta.at-rule.css"
        (cssComments ++
          [rule "\\\x7b" "punctuation.section.block.css" (.replace ["block"]),
            rule ";" "punctuation.terminator.rule.css" .leave,
            rule "\\b(?:and|not|only|or)\\b" "keyword.operator.logic.media.css",
            rule "\\b(?:all|screen|print|speech|tv|projection|handheld|braille|aural)\\b"
              "support.constant.media.css",
            rule "\\(" "punctuation.definition.group.begin.css" (.enter ["media-feature"]),
            rule "," "punctuation.separator.css"] ++ cssStrings),
      context "media-feature" "meta.group.css"
        ([rule "\\)" "punctuation.definition.group.end.css" .leave,
          rule "[a-z-]+(?=\\s*:)" "support.type.property-name.media.css",
          rule ":" "punctuation.separator.key-value.css"] ++ cssNumbers),
      context "properties" "meta.property-list.css"
        (cssComments ++
          [rule "\\\x7d" "punctuation.section.property-list.css" .leave,
            rule "--[\\w-]+" "support.type.custom-property.css" (.enter ["property"]),
            rule "(-webkit-|-moz-|-o-|-ms-|-khtml-)?[a-zA-Z][\\w-]*" "support.type.property-name.css"
              (.enter ["property"]) [(1, "support.type.vendor-prefix.css")]]),
      context "property" ""
        (cssComments ++
          [rule ":" "punctuation.separator.key-value.css" (.replace ["value"]),
            rule "(?=[\\\x7d;])" "" .leave]),
      context "value" "meta.property-value.css"
        (cssComments ++
          [rule ";" "punctuation.terminator.rule.css" .leave,
            rule "(?=\\\x7d)" "" .leave,
            rule "!\\s*important" "keyword.other.important.css",
            rule "([a-zA-Z-]+)(\\()" "" (.enter ["function"])
              [(1, "support.function.css"), (2, "punctuation.definition.group.begin.css")],
            rule "," "punctuation.separator.css",
            rule "/" "keyword.operator.css"] ++ cssStrings ++ cssNumbers ++
          [rule "--[\\w-]+" "support.type.custom-property.name.css",
            rule "[a-zA-Z-]+" "support.constant.property-value.css"]),
      context "function" "meta.function-call.css"
        (cssComments ++
          [rule "\\)" "punctuation.definition.group.end.css" .leave,
            rule "([a-zA-Z-]+)(\\()" "" (.enter ["function"])
              [(1, "support.function.css"), (2, "punctuation.definition.group.begin.css")],
            rule "," "punctuation.separator.css",
            rule "[-+*/](?=\\s)" "keyword.operator.css"] ++ cssStrings ++ cssNumbers ++
          [rule "--[\\w-]+" "support.type.custom-property.name.css"])]

end DocPress.Syntax.Language
