import DocPress.Node
import DocPress.Diagnostic
import DocPress.Syntax.Highlighter

/-!
Highlighting: the code of blocks whose language is known is split into tokens. Blocks that have been
split stay as they are.
-/

namespace DocPress

open Json (ticked)
open Syntax (Highlighter SyntaxError Token)

/-- Why a stage cannot change a tree. -/
inductive StageError where
  | unsupportedLanguage (language : String)
  | syntaxError (cause : SyntaxError)
  /-- A tree whose root is no document but of the given kind. -/
  | notDocument (kind : String)
  deriving DecidableEq, Repr

/-- The wording of an error. -/
def StageError.message : StageError → String
  | .unsupportedLanguage language => "unsupported language " ++ ticked language
  | .syntaxError cause => "highlighting failed: " ++ cause.message
  | .notDocument kind => "invalid tree: expected a document root, found " ++ kind

namespace Highlight

/-- The node of a token. -/
def tokenNode (token : Token) : Node :=
  let text := Node.text (String.ofList token.text)
  match token.cls with
  | some className => ⟨.token className, [text]⟩
  | none => text

/-- The language and the code of a block that is to be split. -/
def target? : Node → Option (String × String)
  | ⟨.codeBlock (some language) _ code, []⟩ => some (language, code)
  | ⟨.codeBlockWithTitle _ (some language) code, []⟩ => some (language, code)
  | _ => none

/-- The tokens of a code, as nodes. Only a strict stage refuses a language that is not known. -/
def tokenNodes (highlighter : Highlighter) (strict : Bool) (language code : String) :
    Except StageError (List Node) :=
  match highlighter.tokenize code language with
  | .ok tokens => .ok (tokens.map tokenNode)
  | .error (.unknownLanguage language) =>
    if strict then .error (.unsupportedLanguage language) else .ok []
  | .error cause => .error (.syntaxError cause)

mutual

/-- Splits the code in a tree. -/
def apply (highlighter : Highlighter) (strict : Bool) : Node → Except StageError Node
  | ⟨kind, children⟩ =>
    match target? ⟨kind, children⟩ with
    | some (language, code) => do
      return ⟨kind, ← tokenNodes highlighter strict language code⟩
    | none => do
      return ⟨kind, ← applyAll highlighter strict children⟩

/-- Splits the code in a list of trees. -/
def applyAll (highlighter : Highlighter) (strict : Bool) :
    List Node → Except StageError (List Node)
  | [] => .ok []
  | node :: rest => do
    let node ← apply highlighter strict node
    return node :: (← applyAll highlighter strict rest)

end

end Highlight

end DocPress
