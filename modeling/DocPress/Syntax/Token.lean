import DocPress.Syntax.Scope

/-!
Tokens: stretches of code of one class. A grammar gives for every line the changes of scopes and the
places where they happen; what lies between two places is of one class, and stretches of the same
class side by side are one token.
-/

namespace DocPress.Syntax

/-- A stretch of code and its class. -/
structure Token where
  cls : Option String
  text : List Char
  deriving DecidableEq, Repr

/-- What happens at the places of a line. -/
abbrev LineOps := List (Nat × ScopeOp)

/-- Adds a stretch of code after tokens, which are in reverse. -/
def addToken (cls : Option String) (text : List Char) (tokens : List Token) : List Token :=
  if text.isEmpty then tokens
  else
    match tokens with
    | ⟨last, before⟩ :: rest =>
      if last = cls then ⟨last, before ++ text⟩ :: rest else ⟨cls, text⟩ :: tokens
    | [] => [⟨cls, text⟩]

/-- Why code cannot be split into tokens. -/
inductive SyntaxError where
  | unknownLanguage (language : String)
  /-- A grammar puts back scopes that it did not put aside. -/
  | nothingToRestore
  deriving DecidableEq, Repr

/-- The wording of an error. -/
def SyntaxError.message : SyntaxError → String
  | .unknownLanguage language => "unknown language: " ++ language
  | .nothingToRestore => "tokenizing failed: NoClearedScopesToRestore"

/-- Splits the rest of a line, which starts `done` characters into the line. -/
def splitLine (stack : ScopeStack) (tokens : List Token) (done : Nat) (rest : List Char) :
    LineOps → Except SyntaxError (ScopeStack × List Token)
  | [] => .ok (stack, addToken stack.class? rest tokens)
  | (place, op) :: ops =>
    let step := place - done
    let tokens := addToken stack.class? (rest.take step) tokens
    match stack.after? op with
    | some stack => splitLine stack tokens (max done place) (rest.drop step) ops
    | none => .error .nothingToRestore

/-- Splits lines one after the other. -/
def splitLines (stack : ScopeStack) (tokens : List Token) :
    List (List Char × LineOps) → Except SyntaxError (List Token)
  | [] => .ok tokens
  | (line, ops) :: rest => do
    let (stack, tokens) ← splitLine stack tokens 0 line ops
    splitLines stack tokens rest

/-- The tokens of lines with what happens in them. -/
def tokensOf (lines : List (List Char × LineOps)) : Except SyntaxError (List Token) :=
  (splitLines .empty [] lines).map List.reverse

/-- What a grammar makes of the lines of a code: what happens in each of them. -/
abbrev LineReader := List (List Char) → List LineOps

/-- Lines with what a reader makes of them, nothing if it says nothing about a line. -/
def pairLines : List (List Char) → List LineOps → List (List Char × LineOps)
  | [], _ => []
  | line :: lines, [] => (line, []) :: pairLines lines []
  | line :: lines, ops :: more => (line, ops) :: pairLines lines more

/-- The tokens of a code under a grammar. -/
def tokenizeWith (read : LineReader) (code : String) : Except SyntaxError (List Token) :=
  let lines := Text.linesWithEnds code.toList
  tokensOf (pairLines lines (read lines))

end DocPress.Syntax
