import DocPress.Syntax.Notation
import DocPress.Syntax.Token

/-!
Grammars of languages. A grammar is always in some context, whose rules say what may come next and
which context is entered or left then. Of the rules of a context the one that matches first in the line
counts, and of those that match at the same place the first one listed.
-/

namespace DocPress.Syntax

/-- What becomes of the contexts after a match. -/
inductive Action where
  | stay
  /-- Contexts are entered, the last one innermost. -/
  | enter (contexts : List String)
  | leave
  /-- The context is left for others. -/
  | replace (contexts : List String)

/-- What may come next in a context. -/
structure Rule where
  pattern : Pattern
  /-- The scopes of the match. -/
  scopes : List String
  /-- The scopes of the groups in it. -/
  captures : List (Nat × List String)
  action : Action

/-- What a grammar can be in. -/
structure Context where
  name : String
  /-- The scopes of all in the context, with the matches that enter and leave it. -/
  around : List String := []
  /-- The scopes of all in the context without those matches. -/
  within : List String := []
  rules : List Rule

/-- A grammar. It starts in its first context. -/
structure Grammar where
  /-- The scope of everything. -/
  scope : String
  contexts : List Context

/-- The scopes in a text with spaces between them. -/
def scopesOf (text : String) : List String :=
  (Text.words text.toList).map String.ofList

/-- The rule for a pattern in the usual notation and scopes with spaces between them. -/
def rule (pattern scopes : String) (action : Action := .stay)
    (captures : List (Nat × String) := []) : Rule :=
  ⟨.ofText pattern, scopesOf scopes, captures.map fun (group, text) => (group, scopesOf text), action⟩

/-- A context of rules under scopes with spaces between them. -/
def context (name around : String) (rules : List Rule) : Context :=
  { name, around := scopesOf around, rules }

namespace Grammar

/-- The context of a name; one without rules if there is none. -/
def find (grammar : Grammar) (name : String) : Context :=
  (grammar.contexts.find? (·.name = name)).getD { name, rules := [] }

/-- A match of a rule. -/
structure RuleMatch where
  rule : Rule
  start : Nat
  stop : Spot
  /-- Whether the match only takes back that a context was entered at the same place. -/
  circular : Bool

/-- The match of a rule at a place or behind it. A match of nothing that changes no context is none. -/
def matchRule? (mayCircle : Bool) (spot : Spot) (rule : Rule) : Option RuleMatch :=
  match rule.pattern.search (spot.rest.length + 1) spot with
  | none => none
  | some (start, stop) =>
    match rule.action with
    | .stay => if stop.index = start then none else some ⟨rule, start, stop, false⟩
    | .leave => some ⟨rule, start, stop, mayCircle && stop.index = spot.index⟩
    | _ => some ⟨rule, start, stop, false⟩

/-- The match that counts: the first one, where circular ones give way. -/
def firstMatch? (mayCircle : Bool) (spot : Spot) (rules : List Rule) : Option RuleMatch :=
  rules.foldl (fun best rule =>
    match best, matchRule? mayCircle spot rule with
    | none, found => found
    | some best, none => some best
    | some best, some found =>
      if found.start < best.start || (found.start = best.start && best.circular) then some found
      else some best) none

/-- Pushes scopes at a place. -/
def pushAll (index : Nat) (scopes : List String) : LineOps :=
  scopes.map fun scope => (index, .push scope)

/-- Pops scopes at a place. -/
def popCount (index count : Nat) : LineOps :=
  if count = 0 then [] else [(index, .pop count)]

/-- The changes of scopes for the groups of a match, outer groups first. -/
def groupOps (found : RuleMatch) : LineOps :=
  let spans := found.rule.captures.filterMap fun (number, scopes) =>
    match found.stop.groups.find? (·.1 = number) with
    | some (_, start, stop) => if start = stop then none else some (start, stop, scopes)
    | none => none
  let events := spans.flatMap fun (start, stop, scopes) =>
    (scopes.map fun scope => (start, stop - start + 1, ScopeOp.push scope)) ++
      [(stop, 0, ScopeOp.pop scopes.length)]
  let before (a b : Nat × Nat × ScopeOp) : Bool :=
    a.1 < b.1 || (a.1 = b.1 && (a.2.1 = 0 || (b.2.1 ≠ 0 && b.2.1 ≤ a.2.1)))
  (events.mergeSort before).map fun (index, _, op) => (index, op)

/-- The changes of scopes for a match in a context. -/
def matchOps (grammar : Grammar) (current : Context) (found : RuleMatch) : LineOps :=
  let start := found.start
  let stop := found.stop.index
  let own := pushAll start found.rule.scopes ++ groupOps found ++
    popCount stop found.rule.scopes.length
  let entered (names : List String) : List Context := names.map grammar.find
  let arounds (contexts : List Context) : List String := contexts.flatMap (·.around)
  let full (contexts : List Context) : List String :=
    contexts.flatMap fun context => context.around ++ context.within
  match found.rule.action with
  | .stay => own
  | .leave => popCount start current.within.length ++ own ++ popCount stop current.around.length
  | .enter names =>
    let contexts := entered names
    pushAll start (arounds contexts) ++ own ++ popCount stop (arounds contexts).length ++
      pushAll stop (full contexts)
  | .replace names =>
    let contexts := entered names
    pushAll start (arounds contexts) ++ own ++
      popCount stop ((arounds contexts).length + current.around.length + current.within.length) ++
      pushAll stop (full contexts)

/-- The contexts after an action, innermost first. -/
def contextsAfter (stack : List String) : Action → List String
  | .stay => stack
  | .enter names => names.reverse ++ stack
  | .leave => stack.tail
  | .replace names => names.reverse ++ stack.tail

/-- Reads a line from a place on; `entered` is where a match of nothing has entered a context, and how
many contexts there were then, and `fuel` bounds the number of matches. -/
def readFrom (grammar : Grammar) : Nat → List String → Option (Nat × Nat) → Spot →
    List String × LineOps
  | 0, stack, _, _ => (stack, [])
  | fuel + 1, stack, entered, spot =>
    let current := grammar.find (stack.head?.getD "")
    match firstMatch? (entered = some (spot.index, stack.length)) spot current.rules with
    | none => (stack, [])
    | some found =>
      if found.circular then
        match spot.next? with
        | some (_, later) =>
          if later.rest.isEmpty then (stack, []) else readFrom grammar fuel stack entered later
        | none => (stack, [])
      else
        let ops := grammar.matchOps current found
        let next := match contextsAfter stack found.rule.action with
          | [] => stack
          | next => next
        let entered := match found.rule.action with
          | .enter _ =>
            if found.stop.index = spot.index then some (spot.index, stack.length + 1) else entered
          | _ => entered
        let (final, more) := readFrom grammar fuel next entered { found.stop with groups := [] }
        (final, ops ++ more)

/-- Reads lines one after the other. -/
def readLines (grammar : Grammar) : List String → List (List Char) → List LineOps
  | _, [] => []
  | stack, line :: rest =>
    let (stack, ops) :=
      readFrom grammar (8 * line.length + 16) stack none ⟨[], line, 0, []⟩
    ops :: readLines grammar stack rest

/-- What a grammar makes of the lines of a code. -/
def read (grammar : Grammar) : LineReader := fun lines =>
  let first := (grammar.contexts.head?.map (·.name)).getD ""
  match grammar.readLines [first] lines with
  | [] => []
  | ops :: more => ((0, .push grammar.scope) :: ops) :: more

end Grammar

end DocPress.Syntax
