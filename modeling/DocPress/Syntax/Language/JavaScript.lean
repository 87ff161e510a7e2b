import DocPress.Syntax.Grammar

/-!
The grammar of JavaScript: comments, literals, functions, classes, keywords and operators.
-/

namespace DocPress.Syntax.Language

/-- Comments. -/
def jsComments : List Rule :=
  [rule "/\\*\\*(?!/)" "punctuation.definition.comment.js" (.enter ["doc-comment"]),
    rule "/\\*" "punctuation.definition.comment.js" (.enter ["block-comment"]),
    rule "//" "punctuation.definition.comment.js" (.enter ["line-comment"])]

/-- Escapes in strings. -/
def jsEscapes : List Rule :=
  [rule "\\\\(?:x\\h\\h|u\\h\\h\\h\\h|u\\\x7b\\h+\\\x7d|[0-7][0-7]?[0-7]?|.)"
      "constant.character.escape.js",
    rule "\\\\\\n" "constant.character.escape.newline.js"]

/-- Strings, templates and numbers. -/
def jsLiterals : List Rule :=
  [rule "'" "punctuation.definition.string.begin.js" (.enter ["single"]),
    rule "\"" "punctuation.definition.string.begin.js" (.enter ["double"]),
    rule "`" "punctuation.definition.string.begin.js" (.enter ["template"]),
    rule "\\b0[xX]\\h+\\b" "constant.numeric.hex.js",
    rule "\\b0[oO][0-7]+\\b" "constant.numeric.octal.js",
    rule "\\b0[bB][01]+\\b" "constant.numeric.binary.js",
    rule "\\b(?:0|[1-9]\\d*)(?:\\.\\d*)?(?:[eE][-+]?\\d+)?|\\.\\d+(?:[eE][-+]?\\d+)?"
      "constant.numeric.js"]

/-- Words with a meaning of their own. -/
def jsWords : List Rule :=
  [rule "\\b(?:const|let|var)\\b" "storage.type.js" (.enter ["declaration"]),
    rule "\\b(?:extends)\\b" "storage.modifier.extends.js",
    rule "\\b(?:static|async|get|set)\\b(?=\\s+[a-zA-Z_$*\\[])" "storage.modifier.js",
    rule "\\b(?:if|else|switch|case|default)\\b" "keyword.control.conditional.js",
    rule "\\b(?:for|while|do|of)\\b" "keyword.control.loop.js",
    rule "\\b(?:try|catch|finally|throw)\\b" "keyword.control.trycatch.js",
    rule "\\b(?:return|break|continue|goto|yield|await)\\b" "keyword.control.flow.js",
    rule "\\b(?:import|export|from|as)\\b" "keyword.control.import-export.js",
    rule "\\b(?:with|debugger)\\b" "keyword.other.js",
    rule "\\bnew\\b" "keyword.operator.word.new.js" (.enter ["constructor"]),
    rule "\\b(?:delete|typeof|void|in|instanceof)\\b" "keyword.operator.js",
    rule "\\b(?:true|false)\\b" "constant.language.boolean.js",
    rule "\\b(?:null|undefined|NaN|Infinity)\\b" "constant.language.js",
    rule "\\b(?:this|super|arguments)\\b" "variable.language.js"]

/-- Names that browsers and the language have. -/
def jsLibrary : List Rule :=
  [rule "\\bconsole\\b" "support.type.object.console.js" (.enter ["console"]),
    rule ("\\b(?:Array|Boolean|Date|Function|Math|Number|Object|RegExp|String|JSON|Map|Set|WeakMap|" ++
      "WeakSet|Promise|Proxy|Reflect|Symbol|Error|ArrayBuffer|DataView)\\b") "support.class.builtin.js",
    rule "\\b(?:window|document|navigator|screen|history|location|event)\\b"
      "support.type.object.dom.js",
    rule ("\\b(?:eval|isFinite|isNaN|parseFloat|parseInt|decodeURI|decodeURIComponent|encodeURI|" ++
      "encodeURIComponent|clearInterval|clearTimeout|setInterval|setTimeout|require)\\b(?=\\s*\\()")
      "support.function.js"]

/-- Operators and marks. -/
def jsSymbols : List Rule :=
  [rule "=>" "storage.type.function.arrow.js",
    rule "\\.\\.\\." "keyword.operator.spread.js",
    rule "===|!==|==|!=|<=|>=" "keyword.operator.comparison.js",
    rule "\\+\\+|--" "keyword.operator.arithmetic.js",
    rule "(?:\\*\\*|<<|>>>|>>|[-+*/%&|^])=" "keyword.operator.assignment.augmented.js",
    rule "&&|\\|\\||!" "keyword.operator.logical.js",
    rule "<<|>>>|>>|[&|^~]" "keyword.operator.bitwise.js",
    rule "<|>" "keyword.operator.relational.js",
    rule "\\*\\*|[-+*/%]" "keyword.operator.arithmetic.js",
    rule "=" "keyword.operator.assignment.js",
    rule "\\?|:" "keyword.operator.ternary.js",
    rule "," "punctuation.separator.comma.js",
    rule ";" "punctuation.terminator.statement.js"]

/-- What may stand in statements and expressions. -/
def jsCode : List Rule :=
  jsComments ++ jsLiterals ++
    [rule "\\b(?:(async)\\s+)?(function)\\b" "" (.enter ["function"])
        [(1, "storage.type.js"), (2, "storage.type.function.js")],
      rule "\\bclass\\b" "storage.type.class.js" (.enter ["class"]),
      rule "\\b([a-zA-Z_$][\\w$]*)\\s*(=)\\s*(?=(?:async\\s+)?(?:function\\b|\\([^()]*\\)\\s*=>|[a-zA-Z_$][\\w$]*\\s*=>))"
        "" .stay [(1, "entity.name.function.js"), (2, "keyword.operator.assignment.js")],
      rule "([a-zA-Z_$][\\w$]*)(?=\\s*=>)" "variable.parameter.function.js",
      rule "\\((?=[^()]*\\)\\s*=>)" "punctuation.section.group.begin.js" (.enter ["parameters"])] ++
    jsWords ++ jsLibrary ++
    [rule "(\\.)([a-zA-Z_$][\\w$]*)(?=\\s*\\()" "" .stay
        [(1, "punctuation.accessor.js"), (2, "variable.function.js")],
      rule "(\\.)([a-zA-Z_$][\\w$]*)" "" .stay
        [(1, "punctuation.accessor.js"), (2, "meta.property.object.js")],
      rule "\\." "punctuation.accessor.js",
      rule "[a-zA-Z_$][\\w$]*(?=\\s*\\()" "variable.function.js",
      rule "\\b[A-Z][A-Z0-9_]*\\b" "variable.other.constant.js",
      rule "[a-zA-Z_$][\\w$]*" "variable.other.readwrite.js",
      rule "\\(" "punctuation.section.group.begin.js" (.enter ["group"]),
      rule "\\[" "punctuation.section.brackets.begin.js" (.enter ["brackets"]),
      rule "\\\x7b" "punctuation.section.block.begin.js" (.enter ["block"])] ++ jsSymbols

/-- The grammar of JavaScript. -/
def javaScript : Grammar where
  scope := "source.js"
  contexts :=
    [context "main" "" jsCode,
      context "line-comment" "comment.line.double-slash.js" [rule "\\n" "" .leave],
      context "block-comment" "comment.block.js"
        [rule "\\*/" "punctuation.definition.comment.js" .leave],
      context "doc-comment" "comment.block.documentation.js"
        [rule "\\*/" "punctuation.definition.comment.js" .leave,
          rule "^\\s*(\\*)(?!/)" "" .stay [(1, "punctuation.definition.comment.js")]],
      context "single" "string.quoted.single.js"
        ([rule "'" "punctuation.definition.string.end.js" .leave,
          rule "\\n" "invalid.illegal.newline.js" .leave] ++ jsEscapes),
      context "double" "string.quoted.double.js"
        ([rule "\"" "punctuation.definition.string.end.js" .leave,
          rule "\\n" "invalid.illegal.newline.js" .leave] ++ jsEscapes),
      context "template" "string.template.js"
        ([rule "`" "punctuation.definition.string.end.js" .leave,
          rule "\\$\\\x7b" "punctuation.definition.template-expression.begin.js"
            (.enter ["template-value"])] ++ jsEscapes),
      { name := "template-value", around := ["meta.template.expression.js"]
        within := ["source.js.embedded"]
        rules := rule "\\\x7d" "punctuation.definition.template-expression.end.js" .leave :: jsCode },
      context "declaration" ""
        (jsComments ++
          [rule "\\b([a-zA-Z_$][\\w$]*)\\s*(=)\\s*(?=(?:async\\s+)?(?:function\\b|\\([^()]*\\)\\s*=>|[a-zA-Z_$][\\w$]*\\s*=>))"
              "" .leave [(1, "entity.name.function.js"), (2, "keyword.operator.assignment.js")],
            rule "(?=\\S)" "" .leave]),
      context "constructor" ""
        (jsComments ++
          [rule "\\b(?:Array|Boolean|Date|Function|Number|Object|RegExp|String|Map|Set|WeakMap|WeakSet|Promise|Proxy|Error)\\b"
              "support.class.builtin.js" .leave,
            rule "[a-zA-Z_$][\\w$]*" "variable.type.js" .leave,
            rule "(?=\\S)" "" .leave]),
      context "console" ""
        [rule "(\\.)(warn|info|log|error|time|timeEnd|assert|count|dir|group|groupCollapsed|groupEnd|profile|profileEnd|table|trace|timeStamp)\\b"
            "" .leave [(1, "punctuation.accessor.js"), (2, "support.function.console.js")],
          rule "(?=\\S)|$" "" .leave],
      context "function" "meta.function.declaration.js"
        (jsComments ++
          [rule "\\*" "keyword.generator.asterisk.js",
            rule "[a-zA-Z_$][\\w$]*" "entity.name.function.js",
            rule "\\(" "punctuation.section.group.begin.js" (.replace ["parameters"]),
            rule "(?=\\S)" "" .leave]),
      context "parameters" "meta.function.parameters.js"
        (jsComments ++
          [rule "\\)" "punctuation.section.group.end.js" .leave,
            rule "," "punctuation.separator.parameter.function.js",
            rule "\\.\\.\\." "keyword.operator.spread.js",
            rule "=" "keyword.operator.assignment.js" (.enter ["parameter-value"]),
            rule "[a-zA-Z_$][\\w$]*" "variable.parameter.function.js"]),
      context "parameter-value" "" (rule "(?=[,)])" "" .leave :: jsCode),
      context "class" "meta.class.js"
        (jsComments ++
          [rule "\\b(extends)\\s+([a-zA-Z_$][\\w$.]*)" "" .stay
              [(1, "storage.modifier.extends.js"), (2, "entity.other.inherited-class.js")],
            rule "[a-zA-Z_$][\\w$]*" "entity.name.class.js",
            rule "\\\x7b" "punctuation.section.block.begin.js" (.replace ["class-body"])]),
      context "class-body" "meta.class.js"
        (jsComments ++
          [rule "\\\x7d" "punctuation.section.block.end.js" .leave,
            rule "\\b(?:static|async|get|set)\\b(?=\\s+[a-zA-Z_$*\\[])" "storage.modifier.js",
            rule "[a-zA-Z_$][\\w$]*(?=\\s*\\()" "entity.name.function.js" (.enter ["method"])] ++
          jsCode),
      context "method" "meta.function.declaration.js"
        [rule "\\(" "punctuation.section.group.begin.js" (.replace ["parameters"]),
          rule "(?=\\S)" "" .leave],
      context "group" "meta.group.js"
        (rule "\\)" "punctuation.section.group.end.js" .leave :: jsCode),
      context "brackets" "meta.brackets.js"
        (rule "\\]" "punctuation.section.brackets.end.js" .leave :: jsCode),
      context "block" "meta.block.js"
        ([rule "\\\x7d" "punctuation.section.block.end.js" .leave,
          rule "([a-zA-Z_$][\\w$]*)\\s*(:)" "" .stay
            [(1, "meta.object-literal.key.js"), (2, "punctuation.separator.key-value.js")]] ++
          jsCode)]

end DocPress.Syntax.Language
