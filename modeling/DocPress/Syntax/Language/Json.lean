import DocPress.Syntax.Grammar

/-!
The grammar of JSON, with comments.
-/

namespace DocPress.Syntax.Language

/-- Comments, which may stand anywhere. -/
def jsonComments : List Rule :=
  [rule "/\\*\\*(?!/)" "punctuation.definition.comment.json" (.enter ["doc-comment"]),
    rule "/\\*" "punctuation.definition.comment.json" (.enter ["comment"]),
    rule "(//).*$\\n?" "comment.line.double-slash.js" .stay
      [(1, "punctuation.definition.comment.json")]]

/-- Values. -/
def jsonValue : List Rule :=
  jsonComments ++
    [rule "\\b(?:true|false|null)\\b" "constant.language.json",
      rule "-?(?:0|[1-9]\\d*)(?:(?:\\.\\d+)?(?:[eE][+-]?\\d+)?)?" "constant.numeric.json",
      rule "\"" "punctuation.definition.string.begin.json" (.enter ["string"]),
      rule "\\[" "punctuation.section.sequence.begin.json" (.enter ["list"]),
      rule "\\\x7b" "punctuation.section.mapping.begin.json" (.enter ["object"])]

/-- What is within a string. -/
def jsonText : List Rule :=
  [rule "\"" "punctuation.definition.string.end.json" .leave,
    rule "\\\\(?:[\"\\\\/bfnrt]|u[0-9a-fA-F][0-9a-fA-F][0-9a-fA-F][0-9a-fA-F])"
      "constant.character.escape.json",
    rule "\\\\." "invalid.illegal.unrecognized-string-escape.json",
    rule "$\\n?" "invalid.illegal.unclosed-string.json" .leave]

/-- The grammar of JSON. -/
def json : Grammar where
  scope := "source.json"
  contexts :=
    [context "main" "" jsonValue,
      context "comment" "comment.block.json" [rule "\\*/" "" .leave],
      context "doc-comment" "comment.block.documentation.json" [rule "\\*/" "" .leave],
      context "string" "string.quoted.double.json" jsonText,
      context "list" "meta.sequence.json"
        (rule "\\]" "punctuation.section.sequence.end.json" .leave :: jsonValue ++
          [rule "," "punctuation.separator.sequence.json",
            rule "[^\\s\\]]" "invalid.illegal.expected-sequence-separator.json"]),
      context "object" "meta.mapping.json"
        (jsonComments ++
          [rule "\\\x7d" "punctuation.section.mapping.end.json" .leave,
            rule "\"" "punctuation.definition.string.begin.json" (.enter ["key"]),
            rule ":" "punctuation.separator.mapping.key-value.json" (.enter ["value-start"]),
            rule "[^\\s\\\x7d]" "invalid.illegal.expected-mapping-key.json"]),
      context "key" "meta.mapping.key.json string.quoted.double.json" jsonText,
      context "value-start" ""
        (jsonComments ++
          [rule ",|\\s?(?=\\\x7d)" "invalid.illegal.expected-mapping-value.json" .leave,
            rule "(?=\\S)" "" (.replace ["value"])]),
      context "value" "meta.mapping.value.json"
        (jsonValue ++ [rule "" "" (.replace ["value-end"])]),
      context "value-end" ""
        (jsonComments ++
          [rule "," "punctuation.separator.mapping.pair.json" .leave,
            rule "\\s*(?=\\\x7d)" "" .leave,
            rule "\\s(?!/[/*])(?=[^\\s,])|[^\\s,]"
              "invalid.illegal.expected-mapping-separator.json" .leave])]

end DocPress.Syntax.Language
