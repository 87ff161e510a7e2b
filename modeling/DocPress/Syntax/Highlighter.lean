import DocPress.Syntax.Registry
import DocPress.Syntax.Language.Bash
import DocPress.Syntax.Language.Css
import DocPress.Syntax.Language.Diff
import DocPress.Syntax.Language.Html
import DocPress.Syntax.Language.JavaScript
import DocPress.Syntax.Language.Json
import DocPress.Syntax.Language.Python
import DocPress.Syntax.Language.Rust
import DocPress.Syntax.Language.Yaml
import DocPress.Text.LetterCase

/-!
Highlighters: what finds the grammar of a language and splits code into tokens with it.
-/

namespace DocPress.Syntax

/-- A way to find the grammar of a language by a word. -/
structure Highlighter where
  grammar? : String → Option LineReader

namespace Highlighter

/-- Whether there is a grammar for the language. -/
def supports (highlighter : Highlighter) (language : String) : Bool :=
  (highlighter.grammar? language).isSome

/-- The tokens of a code in a language. -/
def tokenize (highlighter : Highlighter) (code language : String) :
    Except SyntaxError (List Token) :=
  match highlighter.grammar? language with
  | some read => tokenizeWith read code
  | none => .error (.unknownLanguage language)

end Highlighter

/-- The language that a word means, as it is or in lower case. -/
def language? (word : String) : Option Language :=
  (byWord? word).or (byWord? (String.ofList (Text.toLower word.toList)))

/-- The grammars by the names of their languages. -/
def grammars : List (String × Grammar) :=
  [("Bourne Again Shell (bash)", Language.bash), ("CSS", Language.css), ("Diff", Language.diff),
    ("HTML", Language.html), ("JavaScript", Language.javaScript), ("JSON", Language.json),
    ("Python", Language.python), ("Rust", Language.rust), ("YAML", Language.yaml)]

/-- The grammar of a language. Nothing is said about the code of a language without one. -/
def grammarOf (language : Language) : LineReader :=
  match grammars.find? (·.1 = language.name) with
  | some (_, grammar) => grammar.read
  | none => fun lines => lines.map fun _ => []

/-- The highlighter for all languages. -/
def standard : Highlighter :=
  ⟨fun word => (language? word).map grammarOf⟩

end DocPress.Syntax
