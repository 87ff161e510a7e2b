import DocPress.Syntax.Grammar

/-!
The grammar of Rust: comments, literals, definitions, types, keywords and operators.
-/

namespace DocPress.Syntax.Language

/-- Comments; block comments nest. -/
def rustComments : List Rule :=
  [rule "//[!/]" "punctuation.definition.comment.rust" (.enter ["line-doc-comment"]),
    rule "//" "punctuation.definition.comment.rust" (.enter ["line-comment"]),
    rule "/\\*" "punctuation.definition.comment.rust" (.enter ["block-comment"])]

/-- Escapes in strings and characters. -/
def rustEscape : Rule :=
  rule "\\\\(?:x\\h\\h|n|t|r|0|\"|'|\\\\|u\\\x7b\\h+\\\x7d)" "constant.character.escape.rust"

/-- Strings, characters and numbers. -/
def rustLiterals : List Rule :=
  [rule "(b)\"" "string.quoted.double.rust punctuation.definition.string.begin.rust"
      (.enter ["byte-string"]) [(1, "storage.type.string.rust")],
    rule "\"" "punctuation.definition.string.begin.rust" (.enter ["string"]),
    rule "(r)(#*)\"" "punctuation.definition.string.begin.rust" (.enter ["raw-string"])
      [(1, "storage.type.string.rust")],
    rule "(')(?:(\\\\(?:x\\h\\h|n|t|r|0|\"|'|\\\\|u\\\x7b\\h+\\\x7d))|[^'\\\\])(')"
      "string.quoted.single.rust" .stay
      [(1, "punctuation.definition.string.begin.rust"), (2, "constant.character.escape.rust"),
        (3, "punctuation.definition.string.end.rust")],
    rule "\\b(0x)[\\h_]+([iu](?:8|16|32|64|128|size))?\\b" "constant.numeric.integer.hexadecimal.rust"
      .stay [(2, "storage.type.numeric.rust")],
    rule "\\b(0o)[0-7_]+([iu](?:8|16|32|64|128|size))?\\b" "constant.numeric.integer.octal.rust"
      .stay [(2, "storage.type.numeric.rust")],
    rule "\\b(0b)[01_]+([iu](?:8|16|32|64|128|size))?\\b" "constant.numeric.integer.binary.rust"
      .stay [(2, "storage.type.numeric.rust")],
    rule "\\b\\d[\\d_]*(?:\\.\\d[\\d_]*)?(?:[eE][+-]?[\\d_]+)(f32|f64)?" "constant.numeric.float.rust"
      .stay [(1, "storage.type.numeric.rust")],
    rule "\\b\\d[\\d_]*\\.\\d[\\d_]*(f32|f64)?" "constant.numeric.float.rust" .stay
      [(1, "storage.type.numeric.rust")],
    rule "\\b\\d[\\d_]*(f32|f64)\\b" "constant.numeric.float.rust" .stay
      [(1, "storage.type.numeric.rust")],
    rule "\\b\\d[\\d_]*([iu](?:8|16|32|64|128|size))?\\b" "constant.numeric.integer.decimal.rust"
      .stay [(1, "storage.type.numeric.rust")]]

/-- Types that the language and its library have. -/
def rustTypes : List Rule :=
  [rule "\\b(?:bool|char|f32|f64|[iu](?:8|16|32|64|128|size)|str|Self)\\b" "storage.type.rust",
    rule ("\\b(?:Copy|Send|Sized|Sync|Drop|Fn|FnMut|FnOnce|Box|ToOwned|Clone|PartialEq|PartialOrd|" ++
      "Eq|Ord|AsRef|AsMut|Into|From|Default|Iterator|Extend|IntoIterator|DoubleEndedIterator|" ++
      "ExactSizeIterator|Option|Some|None|Result|Ok|Err|SliceConcatExt|String|ToString|Vec)\\b")
      "support.type.rust",
    rule "'[a-zA-Z_]\\w*(?!')\\b" "storage.modifier.lifetime.rust"]

/-- Keywords apart from those that start definitions. -/
def rustKeywords : List Rule :=
  [rule "\\b(?:break|else|continue|for|if|in|loop|match|return|while|yield)\\b"
      "keyword.control.rust",
    rule "\\b(?:let|const|static|type|trait|mod|enum|union|impl)\\b" "storage.type.rust",
    rule "\\b(?:mut|ref|pub|unsafe|move|box|dyn|async|default)\\b" "storage.modifier.rust",
    rule "\\b(?:as)\\b" "keyword.operator.rust",
    rule "\\b(?:crate|extern|use|where|abstract|alignof|become|do|final|macro|offsetof|override|priv|proc|pure|sizeof|typeof|unsized|virtual)\\b"
      "keyword.other.rust",
    rule "\\b(?:true|false)\\b" "constant.language.rust",
    rule "\\b(?:self|super)\\b" "variable.language.rust"]

/-- Operators and marks. -/
def rustSymbols : List Rule :=
  [rule "->" "punctuation.separator.rust",
    rule "::" "punctuation.accessor.rust",
    rule "=>|\\.\\.\\.|\\.\\.=?|[-+*/%&|^!=<>]=|&&|\\|\\||<<=?|>>=?|[-+*/%&|^!=<>?@]"
      "keyword.operator.rust",
    rule "\\." "punctuation.accessor.dot.rust",
    rule "," "punctuation.separator.rust",
    rule ":" "punctuation.separator.rust",
    rule ";" "punctuation.terminator.rust"]

/-- Attributes. -/
def rustAttributes : List Rule :=
  [rule "(#)(!)?(\\[)" "punctuation.definition.annotation.rust" (.enter ["attributes"])]

/-- Definitions, which have a name. -/
def rustDefinitions : List Rule :=
  [rule "\\b(fn)\\s+(?=[a-zA-Z_])" "" (.enter ["function"]) [(1, "storage.type.function.rust")],
    rule "\\bstruct\\b" "storage.type.struct.rust" (.enter ["struct"]),
    rule "\\b(enum|union)\\s+([a-zA-Z_]\\w*)" "" .stay
      [(1, "storage.type.enum.rust"), (2, "entity.name.enum.rust")],
    rule "\\b(trait)\\s+([a-zA-Z_]\\w*)" "" .stay
      [(1, "storage.type.trait.rust"), (2, "entity.name.trait.rust")],
    rule "\\b(mod)\\s+([a-zA-Z_]\\w*)" "" .stay
      [(1, "storage.type.module.rust"), (2, "entity.name.module.rust")],
    rule "\\b(type)\\s+([a-zA-Z_]\\w*)" "" .stay
      [(1, "storage.type.type.rust"), (2, "entity.name.type.rust")],
    rule "\\b(const|static)\\s+(mut\\s+)?([A-Z_][A-Z0-9_]*)\\b" "" .stay
      [(1, "storage.type.rust"), (2, "storage.modifier.rust"), (3, "entity.name.constant.rust")],
    rule "\\b(impl)\\s+([a-zA-Z_]\\w*)(?=\\s*\\\x7b)" "" .stay
      [(1, "storage.type.impl.rust"), (2, "entity.name.impl.rust")]]

/-- What may stand in expressions and statements. -/
def rustCode : List Rule :=
  rustComments ++ rustAttributes ++ rustLiterals ++ rustDefinitions ++ rustTypes ++ rustKeywords ++
    [rule "\\b(macro_rules!)\\s*([a-zA-Z_]\\w*)?" "" .stay
        [(1, "support.function.rust"), (2, "entity.name.macro.rust")],
      rule "\\b[a-zA-Z_]\\w*!(?=\\s*[\\(\\[\\\x7b])" "support.macro.rust",
      rule "\\b[a-zA-Z_]\\w*(?=\\()" "support.function.rust",
      rule "\\b[A-Z][A-Z0-9_]+\\b" "constant.other.rust",
      rule "\\b[a-zA-Z_]\\w*\\b" "meta.name.rust",
      rule "\\\x7b" "punctuation.section.block.begin.rust" (.enter ["block"]),
      rule "\\(" "punctuation.section.group.begin.rust" (.enter ["parentheses"]),
      rule "\\[" "punctuation.section.group.begin.rust" (.enter ["brackets"])] ++
    rustSymbols

/-- The grammar of Rust. -/
def rust : Grammar where
  scope := "source.rust"
  contexts :=
    [context "main" "" rustCode,
      context "line-comment" "comment.line.double-slash.rust" [rule "$\\n?" "" .leave],
      context "line-doc-comment" "comment.line.documentation.rust" [rule "$\\n?" "" .leave],
      context "block-comment" "comment.block.rust"
        [rule "\\*/" "punctuation.definition.comment.rust" .leave,
          rule "/\\*" "punctuation.definition.comment.rust" (.enter ["block-comment"])],
      context "string" "string.quoted.double.rust"
        [rule "\"" "punctuation.definition.string.end.rust" .leave,
          rustEscape,
          rule "(\\\\)$" "punctuation.separator.continuation.line.rust",
          rule "\\\x7b\\\x7b|\\\x7d\\\x7d" "constant.character.escape.rust",
          rule "\\\x7b[^\\\x7b\\\x7d\"]*\\\x7d" "constant.other.placeholder.rust"],
      context "byte-string" "string.quoted.double.rust"
        [rule "\"" "punctuation.definition.string.end.rust" .leave, rustEscape],
      context "raw-string" "string.quoted.double.raw.rust"
        [rule "\"#*" "punctuation.definition.string.end.rust" .leave],
      context "block" "meta.block.rust"
        (rule "\\\x7d" "punctuation.section.block.end.rust" .leave :: rustCode),
      context "parentheses" "meta.group.rust"
        (rule "\\)" "punctuation.section.group.end.rust" .leave :: rustCode),
      context "brackets" "meta.group.rust"
        (rule "\\]" "punctuation.section.group.end.rust" .leave :: rustCode),
      context "attributes" "meta.annotation.rust"
        [rule "\\]" "punctuation.definition.annotation.rust" .leave,
          rule "\"" "punctuation.definition.string.begin.rust" (.enter ["string"]),
          rule "[\\(\\)]" "punctuation.section.group.rust",
          rule "," "punctuation.separator.rust",
          rule "=" "keyword.operator.rust",
          rule "[a-zA-Z_]\\w*" "variable.annotation.rust"],
      context "function" "meta.function.rust"
        [rule "[a-zA-Z_]\\w*" "entity.name.function.rust" (.replace ["signature"])],
      context "signature" "meta.function.rust"
        (rustComments ++
          [rule "<" "punctuation.definition.generic.begin.rust" (.enter ["generics"]),
            rule "\\(" "punctuation.section.parameters.begin.rust" (.replace ["returns", "parameters"]),
            rule "(?=[\\\x7b;])" "" .leave]),
      context "parameters" "meta.function.parameters.rust"
        (rustComments ++
          [rule "\\)" "punctuation.section.parameters.end.rust" .leave,
            rule "([a-zA-Z_]\\w*)\\s*(:)(?!:)" "" .stay
              [(1, "variable.parameter.rust"), (2, "punctuation.separator.rust")],
            rule "<" "punctuation.definition.generic.begin.rust" (.enter ["generics"])] ++ rustCode),
      context "returns" "meta.function.return-type.rust"
        (rustComments ++
          [rule "(?=[\\\x7b;])" "" .leave,
            rule "<" "punctuation.definition.generic.begin.rust" (.enter ["generics"])] ++
          rustTypes ++ rustKeywords ++ rustSymbols),
      context "generics" "meta.generic.rust"
        (rustComments ++
          [rule ">" "punctuation.definition.generic.end.rust" .leave,
            rule "<" "punctuation.definition.generic.begin.rust" (.enter ["generics"])] ++
          rustTypes ++ rustKeywords ++ rustSymbols),
      context "struct" "meta.struct.rust"
        (rustComments ++
          [rule "[a-zA-Z_]\\w*" "entity.name.struct.rust" (.replace ["struct-body"])]),
      context "struct-body" "meta.struct.rust"
        (rustComments ++
          [rule "<" "punctuation.definition.generic.begin.rust" (.enter ["generics"]),
            rule "\\\x7b" "punctuation.section.block.begin.rust" (.replace ["fields"]),
            rule "\\(" "punctuation.section.group.begin.rust" (.enter ["parentheses"]),
            rule ";" "punctuation.terminator.rust" .leave,
            rule "\\bwhere\\b" "keyword.other.rust"] ++ rustTypes),
      context "fields" "meta.struct.rust"
        (rustComments ++ rustAttributes ++
          [rule "\\\x7d" "punctuation.section.block.end.rust" .leave,
            rule "[a-zA-Z_]\\w*(?=\\s*:)" "variable.other.member.rust",
            rule "<" "punctuation.definition.generic.begin.rust" (.enter ["generics"])] ++
          rustTypes ++ rustKeywords ++ rustSymbols)]

end DocPress.Syntax.Language
