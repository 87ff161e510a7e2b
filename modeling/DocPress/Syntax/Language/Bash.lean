import DocPress.Syntax.Grammar

/-!
The grammar of shell scripts: commands with their arguments, expansions, strings and control flow.
-/

namespace DocPress.Syntax.Language

/-- Comments. -/
def bashComments : List Rule :=
  [rule "(?<![^\\s;&|(])#" "punctuation.definition.comment.begin.shell" (.enter ["comment"])]

/-- What is replaced by values. -/
def bashExpansions : List Rule :=
  [rule "(\\$)([a-zA-Z_]\\w*)" "meta.group.expansion.parameter.shell" .stay
      [(1, "punctuation.definition.variable.shell"), (2, "variable.other.readwrite.shell")],
    rule "(\\$)([-*@#?$!0-9_])" "meta.group.expansion.parameter.shell variable.language.shell" .stay
      [(1, "punctuation.definition.variable.shell")],
    rule "(\\$)(\\(\\()" "" (.enter ["arithmetic"])
      [(1, "punctuation.definition.variable.shell"), (2, "punctuation.section.parens.begin.shell")],
    rule "(\\$)(\\()" "" (.enter ["substitution"])
      [(1, "punctuation.definition.variable.shell"), (2, "punctuation.section.parens.begin.shell")],
    rule "(\\$)(\\\x7b)" "" (.enter ["parameter"])
      [(1, "punctuation.definition.variable.shell"),
        (2, "punctuation.section.expansion.parameter.begin.shell")],
    rule "`" "punctuation.section.group.begin.shell" (.enter ["backticks"])]

/-- Strings. -/
def bashStrings : List Rule :=
  [rule "\"" "punctuation.definition.string.begin.shell" (.enter ["double"]),
    rule "'" "punctuation.definition.string.begin.shell" (.enter ["single"]),
    rule "\\\\." "constant.character.escape.shell"]

/-- Commands that are part of the shell. -/
def bashBuiltins : String :=
  "alias|bg|bind|break|builtin|caller|cd|command|compgen|complete|dirs|disown|echo|enable|eval|exec|" ++
  "exit|false|fc|fg|getopts|hash|help|history|jobs|kill|let|logout|popd|printf|pushd|pwd|read|" ++
  "readonly|return|set|shift|shopt|source|suspend|test|times|trap|true|type|ulimit|umask|unalias|" ++
  "unset|wait"

/-- Operators between commands. -/
def bashOperators : List Rule :=
  [rule "&&" "keyword.operator.logical.and.shell",
    rule "\\|\\|" "keyword.operator.logical.or.shell",
    rule "\\|&?" "keyword.operator.logical.pipe.shell",
    rule ";;" "keyword.control.case.item.shell",
    rule ";" "keyword.operator.logical.continue.shell",
    rule "\\d*(?:>>|<<<|>&|<&|>\\||&>|<>|[<>])" "keyword.operator.assignment.redirection.shell",
    rule "&" "keyword.operator.logical.job.shell"]

/-- What may stand where a command is. -/
def bashCommands : List Rule :=
  bashComments ++
    [rule "\\b(for)\\s+([a-zA-Z_]\\w*)(?:\\s+(in)\\b)?" "" (.enter ["words"])
        [(1, "keyword.control.shell"), (2, "variable.other.loop.shell"),
          (3, "keyword.control.shell")],
      rule "\\b(?:if|then|elif|else|fi|for|in|do|done|while|until|case|esac|select|time)\\b(?![-=])"
        "keyword.control.shell",
      rule "\\b(function)\\s+([^\\s()]+)" "" .stay
        [(1, "storage.type.function.shell"), (2, "entity.name.function.shell")],
      rule "([a-zA-Z_][\\w-]*)\\s*(\\()\\s*(\\))" "" .stay
        [(1, "entity.name.function.shell"), (2, "punctuation.section.parens.begin.shell"),
          (3, "punctuation.section.parens.end.shell")],
      rule "\\b(?:export|local|declare|typeset|readonly)\\b" "storage.modifier.shell",
      rule "([a-zA-Z_]\\w*)(\\+?=)" "" (.enter ["assigned"])
        [(1, "variable.other.readwrite.assignment.shell"),
          (2, "keyword.operator.assignment.shell")],
      rule "\\[\\[(?=\\s)" "support.function.double-brackets.begin.shell"
        (.enter ["double-brackets"]),
      rule "\\[(?=\\s)" "support.function.test.begin.shell" (.enter ["test"]),
      rule "\\(\\(" "punctuation.section.parens.begin.shell" (.enter ["arithmetic"]),
      rule "\\(" "punctuation.section.parens.begin.shell",
      rule "\\)" "punctuation.section.parens.end.shell",
      rule "[\\\x7b](?=\\s)" "punctuation.section.braces.begin.shell",
      rule "\\\x7d" "punctuation.section.braces.end.shell",
      rule ("\\b(?:" ++ bashBuiltins ++ ")\\b(?![-\\w=])") "support.function.shell"
        (.enter ["arguments"]),
      rule "[^\\s;&|<>()$`\"'#=\\\x7b\\\x7d\\[\\]]+" "variable.function.shell" (.enter ["arguments"])] ++
    bashOperators ++ bashExpansions ++ bashStrings

/-- The rules for the inside of an arithmetic expression. -/
def bashArithmetic : List Rule :=
  [rule "\\b0[xX]\\h+\\b" "constant.numeric.integer.hexadecimal.shell",
    rule "\\b\\d+\\b" "constant.numeric.integer.decimal.shell",
    rule "[-+*/%=<>!&|^~?:]+" "keyword.operator.arithmetic.shell"] ++ bashExpansions

/-- The grammar of shell scripts. -/
def bash : Grammar where
  scope := "source.shell.bash"
  contexts :=
    [context "main" "" bashCommands,
      context "comment" "comment.line.number-sign.shell"
        [rule "\\n" "punctuation.definition.comment.end.shell" .leave],
      { name := "arguments", within := ["meta.function-call.arguments.shell"]
        rules :=
          [rule "(?=\\n|;|&&|\\|\\||[|&)`])" "" .leave] ++ bashComments ++
          [rule "(?<=\\s)(--?)[a-zA-Z][\\w-]*" "variable.parameter.option.shell" .stay
              [(1, "punctuation.definition.parameter.shell")],
            rule "\\d*(?:>>|<<<|>&|<&|>\\||&>|<>|[<>])"
              "keyword.operator.assignment.redirection.shell"] ++
          bashExpansions ++ bashStrings ++
          [rule "\\*|\\?" "keyword.operator.regexp.quantifier.shell",
            rule "(?<=\\s)~" "variable.language.tilde.shell"] },
      context "words" ""
        (rule "(?=\\n|;|[|&)`])" "" .leave :: bashComments ++ bashExpansions ++ bashStrings ++
          [rule "\\*|\\?" "keyword.operator.regexp.quantifier.shell"]),
      context "assigned" ""
        (rule "(?=[\\s;&|)])" "" .leave :: bashExpansions ++ bashStrings ++
          [rule "\\(" "punctuation.section.parens.begin.shell" (.enter ["array"]),
            rule "[^\\s;&|()$`\"'\\\\]+" "string.unquoted.shell"]),
      context "array" ""
        (rule "\\)" "punctuation.section.parens.end.shell" .leave :: bashExpansions ++ bashStrings ++
          [rule "[^\\s;&|()$`\"'\\\\]+" "string.unquoted.shell"]),
      context "double" "string.quoted.double.shell"
        ([rule "\"" "punctuation.definition.string.end.shell" .leave,
          rule "\\\\[$`\"\\\\\\n]" "constant.character.escape.shell"] ++ bashExpansions),
      context "single" "string.quoted.single.shell"
        [rule "'" "punctuation.definition.string.end.shell" .leave],
      context "arithmetic" "meta.group.expansion.arithmetic.shell"
        (rule "\\)\\)" "punctuation.section.parens.end.shell" .leave :: bashArithmetic),
      context "substitution" "meta.group.expansion.command.parens.shell"
        (rule "\\)" "punctuation.section.parens.end.shell" .leave :: bashCommands),
      context "backticks" "meta.group.expansion.command.backticks.shell"
        (rule "`" "punctuation.section.group.end.shell" .leave :: bashCommands),
      context "parameter" "meta.group.expansion.parameter.shell"
        ([rule "\\\x7d" "punctuation.section.expansion.parameter.end.shell" .leave,
          rule ":?[-=?+]|##?|%%?|//?|\\^\\^?|,,?|:" "keyword.operator.expansion.shell",
          rule "[a-zA-Z_]\\w*" "variable.other.readwrite.shell"] ++ bashExpansions ++ bashStrings),
      context "double-brackets" "meta.conditional.shell"
        ([rule "\\]\\]" "support.function.double-brackets.end.shell" .leave,
          rule "&&|\\|\\||==?|!=|=~|!|<|>" "keyword.operator.logical.shell",
          rule "(?<=\\s)-[a-zA-Z]+" "keyword.operator.logical.shell"] ++ bashExpansions ++
          bashStrings),
      context "test" "meta.conditional.shell"
        ([rule "\\]" "support.function.test.end.shell" .leave,
          rule "==?|!=|!" "keyword.operator.logical.shell",
          rule "(?<=\\s)-[a-zA-Z]+" "keyword.operator.logical.shell"] ++ bashExpansions ++
          bashStrings)]

end DocPress.Syntax.Language
