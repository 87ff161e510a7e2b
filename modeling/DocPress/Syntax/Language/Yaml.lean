import DocPress.Syntax.Grammar

/-!
The grammar of YAML: keys, plain and quoted scalars, block and flow collections.
-/

namespace DocPress.Syntax.Language

/-- Comments with the blanks in front of them, and blank ends of lines. -/
def yamlComments : List Rule :=
  [rule "(?:^[ \\t]*|[ \\t]+)(?:(#)\\p*)?(?:\\n|\\z)" "comment.line.number-sign.yaml" .stay
    [(1, "punctuation.definition.comment.line.number-sign.yaml")]]

/-- Where a plain scalar outside brackets ends. -/
def yamlEndOut : String :=
  "(?=\\s*$|\\s+#|\\s*:(?:\\s|$))"

/-- Where a plain scalar in brackets ends. -/
def yamlEndIn : String :=
  "(?=\\s*$|\\s+#|\\s*:(?:\\s|$|[\\[\\]\x7b\x7d,])|\\s*[\\[\\]\x7b\x7d,])"

/-- What a plain scalar may start with. -/
def yamlFirst : String :=
  "(?:[^\\s\\-?:,\\[\\]\x7b\x7d#&*!|>'\"%@`]|[?:\\-]\\S)"

/-- Plain scalars that are no texts, with where they end. -/
def yamlTyped (stop : String) : List Rule :=
  [rule ("(?:null|Null|NULL|~)" ++ stop) "constant.language.null.yaml",
    rule ("(?:y|Y|yes|Yes|YES|n|N|no|No|NO|true|True|TRUE|false|False|FALSE|on|On|ON|off|Off|OFF)" ++
      stop) "constant.language.boolean.yaml",
    rule ("[-+]?(?:0b[01_]+|0x[0-9a-fA-F_]+|0[0-7_]+|0|[1-9][0-9_]*)" ++ stop)
      "constant.numeric.integer.yaml",
    rule ("[-+]?(?:[0-9][0-9_]*)?\\.[0-9]*(?:[eE][-+][0-9]+)?" ++ stop) "constant.numeric.float.yaml",
    rule ("[-+]?(?:\\.inf|\\.Inf|\\.INF)|(?:\\.nan|\\.NaN|\\.NAN)" ++ stop)
      "constant.numeric.float.yaml",
    rule ("\\d\\d\\d\\d-\\d\\d-\\d\\d" ++ stop) "constant.other.timestamp.yaml"]

/-- Quoted scalars. -/
def yamlQuoted : List Rule :=
  [rule "\"" "punctuation.definition.string.begin.yaml" (.enter ["double"]),
    rule "'" "punctuation.definition.string.begin.yaml" (.enter ["single"])]

/-- Anchors, aliases and tags. -/
def yamlProperties : List Rule :=
  [rule "(&)([^\\s\\[\\]\x7b\x7d,]+)" "" .stay
      [(1, "keyword.control.property.anchor.yaml punctuation.definition.anchor.yaml"),
        (2, "entity.name.other.anchor.yaml")],
    rule "(\\*)([^\\s\\[\\]\x7b\x7d,]+)" "" .stay
      [(1, "keyword.control.flow.alias.yaml punctuation.definition.alias.yaml"),
        (2, "variable.other.alias.yaml")],
    rule "!\\S*" "storage.type.tag-handle.yaml"]

/-- Collections in brackets. -/
def yamlFlow : List Rule :=
  [rule "\\[" "punctuation.definition.sequence.begin.yaml" (.enter ["flow-sequence"]),
    rule "\\\x7b" "punctuation.definition.mapping.begin.yaml" (.enter ["flow-mapping"])]

/-- The grammar of YAML. -/
def yaml : Grammar where
  scope := "source.yaml"
  contexts :=
    [context "main" ""
      (yamlComments ++
        [rule "^---(?=\\s|$)" "entity.other.document.begin.yaml",
          rule "^\\.\\.\\.(?=\\s|$)" "entity.other.document.end.yaml",
          rule "^(%)(\\S+).*$" "meta.directive.yaml" .stay
            [(1, "punctuation.definition.directive.begin.yaml"),
              (2, "keyword.other.directive.yaml")],
          rule "-(?=\\s|$)" "punctuation.definition.block.sequence.item.yaml",
          rule ("(?=" ++ yamlFirst ++ "(?:[^\\s:]|:\\S|\\s+(?![#\\s]))*\\s*:(?:\\s|$))") ""
            (.enter ["key"]),
          rule ":(?=\\s|$)" "punctuation.separator.key-value.mapping.yaml",
          rule "\\?(?=\\s|$)" "punctuation.definition.key-value.begin.yaml",
          rule "(?:(\\|)|(>))([-+]?[1-9]?)(?=\\s|$)" "" (.enter ["block-text"])
            [(1, "keyword.control.flow.block-scalar.literal.yaml"),
              (2, "keyword.control.flow.block-scalar.folded.yaml"),
              (3, "storage.modifier.chomping-indicator.yaml")]] ++
        yamlProperties ++ yamlFlow ++ yamlQuoted ++ yamlTyped yamlEndOut ++
        [rule yamlFirst "" (.enter ["plain-out"])]),
      context "key" ""
        (yamlTyped yamlEndOut ++
          [rule yamlEndOut "" .leave, rule yamlFirst "" (.replace ["key-text"])]),
      context "key-text" "string.unquoted.plain.out.yaml entity.name.tag.yaml"
        [rule yamlEndOut "" .leave],
      context "plain-out" "string.unquoted.plain.out.yaml" [rule yamlEndOut "" .leave],
      context "plain-in" "string.unquoted.plain.in.yaml" [rule yamlEndIn "" .leave],
      context "flow-key" ""
        (yamlTyped yamlEndIn ++
          [rule yamlEndIn "" .leave, rule yamlFirst "" (.replace ["flow-key-text"])]),
      context "flow-key-text" "string.unquoted.plain.in.yaml entity.name.tag.yaml"
        [rule yamlEndIn "" .leave],
      context "double" "string.quoted.double.yaml"
        [rule "\\\\(?:[0abtnvefr \"/\\\\N_LP]|x\\h\\h|u\\h\\h\\h\\h|U\\h\\h\\h\\h\\h\\h\\h\\h)"
            "constant.character.escape.double-quoted.yaml",
          rule "\\\\\\n" "constant.character.escape.double-quoted.newline.yaml",
          rule "\"" "punctuation.definition.string.end.yaml" .leave],
      context "single" "string.quoted.single.yaml"
        [rule "''" "constant.character.escape.single-quoted.yaml",
          rule "'" "punctuation.definition.string.end.yaml" .leave],
      context "block-text" "meta.block-scalar.yaml"
        (yamlComments ++
          [rule "^(?=\\S)" "" .leave,
            rule "^\\s+.*$\\n?" "string.unquoted.block.yaml"]),
      context "flow-sequence" "meta.flow-sequence.yaml"
        (yamlComments ++
          [rule "\\]" "punctuation.definition.sequence.end.yaml" .leave,
            rule "," "punctuation.separator.sequence.yaml",
            rule ("(?=" ++ yamlFirst ++ "[^\\s:\\[\\]\x7b\x7d,]*\\s*:(?:\\s|$|[\\[\\]\x7b\x7d,]))") ""
              (.enter ["flow-key"]),
            rule ":(?=\\s|$|[\\[\\]\x7b\x7d,])" "punctuation.separator.key-value.mapping.yaml"] ++
          yamlProperties ++ yamlFlow ++ yamlQuoted ++ yamlTyped yamlEndIn ++
          [rule yamlFirst "" (.enter ["plain-in"])]),
      context "flow-mapping" "meta.flow-mapping.yaml"
        (yamlComments ++
          [rule "\\\x7d" "punctuation.definition.mapping.end.yaml" .leave,
            rule "," "punctuation.separator.mapping.yaml",
            rule ("(?=" ++ yamlFirst ++ "[^\\s:\\[\\]\x7b\x7d,]*\\s*:(?:\\s|$|[\\[\\]\x7b\x7d,]))") ""
              (.enter ["flow-key"]),
            rule ":(?=\\s|$|[\\[\\]\x7b\x7d,])" "punctuation.separator.key-value.mapping.yaml"] ++
          yamlProperties ++ yamlFlow ++ yamlQuoted ++ yamlTyped yamlEndIn ++
          [rule yamlFirst "" (.enter ["plain-in"])])]

end DocPress.Syntax.Language
