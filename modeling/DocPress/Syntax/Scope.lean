import DocPress.Text.Blank

/-!
Scopes: names with points between their parts that a grammar gives to a stretch of code, the inner
ones saying more than the outer ones. A grammar changes the stack of scopes as it reads, and the class
of a stretch of code comes of the scopes on the stack.
-/

namespace DocPress.Syntax

/-- A change of the stack of scopes. -/
inductive ScopeOp where
  | push (scope : String)
  | pop (count : Nat)
  /-- Puts the innermost scopes aside, all of them if no number is given. -/
  | clear (count : Option Nat)
  /-- Puts back what was put aside last. -/
  | restore
  | noop
  deriving DecidableEq, Repr

/-- The scopes at a place, innermost first, and those that are put aside. -/
structure ScopeStack where
  scopes : List String
  aside : List (List String)
  deriving DecidableEq, Repr

namespace ScopeStack

/-- No scopes. -/
def empty : ScopeStack := ⟨[], []⟩

/-- Changes a stack. Nothing can be put back if nothing is put aside. -/
def after? (stack : ScopeStack) : ScopeOp → Option ScopeStack
  | .push scope => some { stack with scopes := scope :: stack.scopes }
  | .pop count => some { stack with scopes := stack.scopes.drop count }
  | .clear count =>
    let count := count.getD stack.scopes.length
    some ⟨stack.scopes.drop count, stack.scopes.take count :: stack.aside⟩
  | .restore =>
    match stack.aside with
    | [] => none
    | scopes :: aside => some ⟨scopes ++ stack.scopes, aside⟩
  | .noop => some stack

end ScopeStack

/-- The classes of scopes by the start of their names, those that say most first. -/
def classes : List (String × String) :=
  [("comment", "comment"), ("string", "string"), ("constant.numeric", "number"),
    ("constant.character.escape", "escape"), ("constant", "constant"),
    ("keyword.operator", "operator"), ("keyword", "keyword"), ("storage", "keyword"),
    ("entity.name.function", "function"), ("support.function", "function"),
    ("variable.function", "function"), ("entity.name.tag", "tag"),
    ("entity.other.attribute-name", "attr-name"), ("entity.name", "class-name"),
    ("support.type", "class-name"), ("support.class", "class-name"),
    ("punctuation", "punctuation"), ("variable", "variable")]

/-- The starts of the names of scopes that say nothing about a class. -/
def roots : List String :=
  ["source", "text", "meta"]

/-- Whether a scope is the given one or a part of it. -/
def within (scope start : String) : Bool :=
  scope = start || Text.startsWith (start.toList ++ ['.']) scope.toList

/-- The class of a scope. -/
def classOf? (scope : String) : Option String :=
  if roots.any (within scope) then none
  else (classes.find? fun entry => within scope entry.1).map (·.2)

/-- The class of a place: that of the innermost scope that has one. -/
def ScopeStack.class? (stack : ScopeStack) : Option String :=
  stack.scopes.findSome? classOf?

end DocPress.Syntax
