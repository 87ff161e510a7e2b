import DocPress.Syntax.Grammar

/-!
The grammar of Python: comments, literals, definitions, calls, keywords and operators.
-/

namespace DocPress.Syntax.Language

/-- Comments. -/
def pythonComments : List Rule :=
  [rule "#" "punctuation.definition.comment.python" (.enter ["comment"])]

/-- Strings, with the letters in front of them. -/
def pythonStrings : List Rule :=
  let letters := "([bBuUrRfF]?[bBrRfF]?)"
  [rule (letters ++ "(\"\"\")") "" (.enter ["long-double"])
      [(1, "storage.type.string.python"),
        (2, "string.quoted.double.block.python punctuation.definition.string.begin.python")],
    rule (letters ++ "(''')") "" (.enter ["long-single"])
      [(1, "storage.type.string.python"),
        (2, "string.quoted.single.block.python punctuation.definition.string.begin.python")],
    rule (letters ++ "(\")") "" (.enter ["double"])
      [(1, "storage.type.string.python"),
        (2, "string.quoted.double.python punctuation.definition.string.begin.python")],
    rule (letters ++ "(')") "" (.enter ["single"])
      [(1, "storage.type.string.python"),
        (2, "string.quoted.single.python punctuation.definition.string.begin.python")]]

/-- What stands for something else in strings. -/
def pythonText : List Rule :=
  [rule "\\\\(?:x\\h\\h|u\\h\\h\\h\\h|U\\h\\h\\h\\h\\h\\h\\h\\h|N\\\x7b[^\\\x7d]+\\\x7d|[0-7][0-7]?[0-7]?|[\\\\\"'abfnrtv])"
      "constant.character.escape.python",
    rule "\\\\$\\n?" "constant.character.escape.python",
    rule "%(?:\\([a-zA-Z_]+\\))?#?0?-?[ ]?\\+?\\d*(?:\\.\\d*)?[hlL]?[diouxXeEfFgGcrsab%]"
      "constant.other.placeholder.python",
    rule "\\\x7b\\\x7b|\\\x7d\\\x7d" "constant.character.escape.python",
    rule "\\\x7b[\\w\\.\\[\\]]*(?:![rsa])?(?::[^\\\x7b\\\x7d\"']*)?\\\x7d" "constant.other.placeholder.python"]

/-- Numbers. -/
def pythonNumbers : List Rule :=
  [rule "\\b0[xX][\\h_]+[lL]?\\b" "constant.numeric.integer.hexadecimal.python",
    rule "\\b0[oO][0-7_]+[lL]?\\b" "constant.numeric.integer.octal.python",
    rule "\\b0[bB][01_]+[lL]?\\b" "constant.numeric.integer.binary.python",
    rule "\\b(?:\\d[\\d_]*\\.[\\d_]*|\\d[\\d_]*(?=[eE]))(?:[eE][-+]?\\d+)?[jJ]?|\\.\\d[\\d_]*(?:[eE][-+]?\\d+)?[jJ]?"
      "constant.numeric.float.python",
    rule "\\b\\d[\\d_]*[jJ]\\b" "constant.numeric.complex.python",
    rule "\\b\\d[\\d_]*[lL]?\\b" "constant.numeric.integer.decimal.python"]

/-- Keywords apart from those that start definitions. -/
def pythonKeywords : List Rule :=
  [rule "\\b(?:import)\\b" "keyword.control.import.python",
    rule "\\b(?:from)\\b" "keyword.control.import.from.python",
    rule "\\b(?:if|elif|else)\\b" "keyword.control.conditional.python" (.enter ["block-head"]),
    rule "\\b(?:for|while)\\b" "keyword.control.loop.python" (.enter ["block-head"]),
    rule "\\b(?:try|except|finally|with)\\b" "keyword.control.exception.python"
      (.enter ["block-head"]),
    rule "\\b(?:return|yield|raise|break|continue|pass|del|assert|await|async|as|exec)\\b"
      "keyword.control.flow.python",
    rule "\\b(?:global|nonlocal)\\b" "storage.modifier.python",
    rule "\\b(lambda)\\b" "storage.type.function.inline.python" (.enter ["lambda"]),
    rule "\\b(?:and|in|is|not|or)\\b" "keyword.operator.logical.python",
    rule "\\b(?:None|True|False|Ellipsis|NotImplemented|__debug__)\\b" "constant.language.python",
    rule "\\b(?:self|cls)\\b" "variable.language.python"]

/-- Names that the library has. -/
def pythonLibrary : List Rule :=
  [rule ("\\b(?:__import__|abs|all|any|ascii|bin|callable|chr|compile|delattr|dir|divmod|eval|exec|" ++
      "filter|format|getattr|globals|hasattr|hash|help|hex|id|input|isinstance|issubclass|iter|len|" ++
      "locals|map|max|min|next|oct|open|ord|pow|print|range|repr|reversed|round|setattr|sorted|sum|" ++
      "vars|zip|apply|cmp|coerce|execfile|intern|raw_input|reduce|reload|unichr|xrange)\\b(?=\\s*\\()")
      "support.function.builtin.python",
    rule ("\\b(?:bool|bytearray|bytes|classmethod|complex|dict|enumerate|float|frozenset|int|list|" ++
      "memoryview|object|property|set|slice|staticmethod|str|super|tuple|type|basestring|buffer|file|" ++
      "long|unicode)\\b") "support.type.python",
    rule ("\\b(?:[A-Z]\\w*(?:Error|Exception|Warning)|KeyboardInterrupt|StopIteration|SystemExit|" ++
      "GeneratorExit|Exception|BaseException|Warning)\\b") "support.type.exception.python"]

/-- Operators. -/
def pythonOperators : List Rule :=
  [rule "<>|<=|>=|==|!=|(?:<(?!<))|(?:>(?!>))" "keyword.operator.comparison.python",
    rule "\\+=|-=|\\*\\*=|\\*=|//=|/=|%=|@=|&=|\\|=|\\^=|>>=|<<="
      "keyword.operator.assignment.augmented.python",
    rule "\\*\\*|//|[-+*/%@]" "keyword.operator.arithmetic.python",
    rule "&|\\||\\^|~|<<|>>" "keyword.operator.bitwise.python",
    rule "=" "keyword.operator.assignment.python"]

/-- What may stand in expressions. -/
def pythonExpression : List Rule :=
  pythonComments ++ pythonStrings ++ pythonNumbers ++ pythonKeywords ++ pythonLibrary ++
    [rule "[a-zA-Z_]\\w*(?=\\s*\\()" "variable.function.python",
      rule "\\b[A-Z][A-Z0-9_]*\\b" "variable.other.constant.python",
      rule "\\b[a-zA-Z_]\\w*\\b" "meta.generic-name.python",
      rule "\\(" "punctuation.section.group.begin.python" (.enter ["group"]),
      rule "\\[" "punctuation.section.sequence.begin.python" (.enter ["brackets"]),
      rule "\\\x7b" "punctuation.section.mapping-or-set.begin.python" (.enter ["braces"]),
      rule "\\." "punctuation.accessor.dot.python",
      rule "," "punctuation.separator.sequence.python",
      rule ";" "punctuation.terminator.statement.python"] ++ pythonOperators

/-- Statements that start with a word of their own. -/
def pythonStatements : List Rule :=
  pythonComments ++
    [rule "^\\s*(@)(?=[a-zA-Z_])" "meta.annotation.python" (.enter ["annotation"])
        [(1, "punctuation.definition.annotation.python")],
      rule "\\b(?:(async)\\s+)?(def)\\b" "meta.function.python" (.enter ["function"])
        [(1, "storage.modifier.async.python"), (2, "storage.type.function.python")],
      rule "\\b(class)\\b" "meta.class.python" (.enter ["class"])
        [(1, "storage.type.class.python")],
      rule "^\\s*(?=\"\"\")" "" (.enter ["documentation"])] ++
    pythonExpression ++ [rule ":" "punctuation.separator.annotation.variable.python"]

/-- The grammar of Python. -/
def python : Grammar where
  scope := "source.python"
  contexts :=
    [context "main" "" pythonStatements,
      context "comment" "comment.line.number-sign.python" [rule "\\n" "" .leave],
      { name := "double", within := ["meta.string.python", "string.quoted.double.python"]
        rules :=
          [rule "\"" "string.quoted.double.python punctuation.definition.string.end.python" .leave,
            rule "\\n" "invalid.illegal.unclosed-string.python" .leave] ++ pythonText },
      { name := "single", within := ["meta.string.python", "string.quoted.single.python"]
        rules :=
          [rule "'" "string.quoted.single.python punctuation.definition.string.end.python" .leave,
            rule "\\n" "invalid.illegal.unclosed-string.python" .leave] ++ pythonText },
      { name := "long-double", within := ["meta.string.python", "string.quoted.double.block.python"]
        rules :=
          rule "\"\"\"" "string.quoted.double.block.python punctuation.definition.string.end.python"
            .leave :: pythonText },
      { name := "long-single", within := ["meta.string.python", "string.quoted.single.block.python"]
        rules :=
          rule "'''" "string.quoted.single.block.python punctuation.definition.string.end.python"
            .leave :: pythonText },
      context "documentation" ""
        [rule "\"\"\"" "punctuation.definition.comment.begin.python"
          (.replace ["documentation-text"])],
      context "documentation-text" "comment.block.documentation.python"
        [rule "\"\"\"" "punctuation.definition.comment.end.python" .leave],
      context "annotation" "meta.annotation.python"
        [rule "$" "" .leave,
          rule "\\." "punctuation.accessor.dot.python",
          rule "[a-zA-Z_]\\w*(?=\\s*\\()" "variable.annotation.function.python",
          rule "[a-zA-Z_]\\w*" "variable.annotation.python",
          rule "\\(" "punctuation.section.arguments.begin.python" (.enter ["group"])],
      context "function" "meta.function.python"
        (pythonComments ++
          [rule ":" "punctuation.section.function.begin.python" .leave,
            rule "(?=[a-zA-Z_])" "" (.enter ["function-name"]),
            rule "\\(" "punctuation.section.parameters.begin.python" (.enter ["parameters"]),
            rule "->" "punctuation.separator.annotation.return.python" (.enter ["result"])]),
      context "function-name" "entity.name.function.python"
        [rule "__[a-zA-Z_]+__" "support.function.magic.python" .leave,
          rule "[a-zA-Z_]\\w*" "meta.generic-name.python" .leave],
      context "result" "meta.function.annotation.return.python"
        (rule "(?=:)" "" .leave :: pythonExpression),
      context "parameters" "meta.function.parameters.python"
        (pythonComments ++
          [rule "\\)" "punctuation.section.parameters.end.python" .leave,
            rule "," "punctuation.separator.parameters.python",
            rule "\\*\\*?" "keyword.operator.unpacking.sequence.python",
            rule ":" "punctuation.separator.annotation.parameter.python" (.enter ["parameter-type"]),
            rule "=" "keyword.operator.assignment.python" (.enter ["parameter-value"]),
            rule "[a-zA-Z_]\\w*" "variable.parameter.python"]),
      context "parameter-type" "meta.function.parameters.annotation.python"
        (rule "(?=[,)=])" "" .leave :: pythonExpression),
      context "parameter-value" "meta.function.parameters.default-value.python"
        (rule "(?=[,)])" "" .leave :: pythonExpression),
      context "class" "meta.class.python"
        (pythonComments ++
          [rule ":" "punctuation.section.class.begin.python" .leave,
            rule "[a-zA-Z_]\\w*" "entity.name.class.python",
            rule "\\(" "punctuation.section.inheritance.begin.python" (.enter ["bases"])]),
      context "bases" "meta.class.inheritance.python"
        (pythonComments ++
          [rule "\\)" "punctuation.section.inheritance.end.python" .leave,
            rule "," "punctuation.separator.inheritance.python",
            rule "\\." "punctuation.accessor.dot.python",
            rule "=" "keyword.operator.assignment.python",
            rule "[a-zA-Z_]\\w*" "entity.other.inherited-class.python"]),
      context "lambda" "meta.function.inline.python"
        [rule ":" "punctuation.section.function.begin.python" .leave,
          rule "," "punctuation.separator.parameters.python",
          rule "[a-zA-Z_]\\w*" "variable.parameter.python",
          rule "(?=[)\\]\\n])" "" .leave],
      context "block-head" "meta.statement.python"
        ([rule ":" "punctuation.section.block.begin.python" .leave,
          rule "(?=[)\\]\\\x7d])" "" .leave,
          rule "$" "" .leave] ++ pythonExpression),
      context "group" "meta.group.python"
        ([rule "\\)" "punctuation.section.group.end.python" .leave,
          rule "([a-zA-Z_]\\w*)\\s*(=)(?!=)" "" .stay
            [(1, "variable.parameter.python"), (2, "keyword.operator.assignment.python")]] ++
          pythonExpression),
      context "brackets" "meta.sequence.python"
        ([rule "\\]" "punctuation.section.sequence.end.python" .leave,
          rule ":" "punctuation.separator.slice.python"] ++ pythonExpression),
      context "braces" "meta.mapping.python"
        ([rule "\\\x7d" "punctuation.section.mapping.end.python" .leave,
          rule ":" "punctuation.separator.mapping.key-value.python"] ++ pythonExpression)]

end DocPress.Syntax.Language
