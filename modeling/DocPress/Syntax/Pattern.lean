/-!
Patterns of text: what may stand at a place of a line, where one alternative goes before the other. A
pattern is tried from a place on and hands every way to match, the preferred ones first, to what comes
after it.
-/

namespace DocPress.Syntax

/-- A set of characters. -/
structure CharTest where
  /-- Whether the set is what is not listed. -/
  negated : Bool := false
  /-- Closed intervals. -/
  intervals : List (Char × Char) := []
  /-- Sets that are parts of this one. -/
  parts : List (Char → Bool) := []

/-- Whether a character belongs to a set. -/
def CharTest.holds (test : CharTest) (c : Char) : Bool :=
  test.negated !=
    (test.intervals.any (fun interval => interval.1 ≤ c && c ≤ interval.2) ||
      test.parts.any (· c))

/-- Whether a character is part of a word. -/
def isWordChar (c : Char) : Bool :=
  c.isAlphanum || c = '_'

/-- A place in a line. -/
structure Spot where
  /-- What is before the place, the nearest character first. -/
  before : List Char
  /-- What is behind the place. -/
  rest : List Char
  /-- The number of characters before the place. -/
  index : Nat
  /-- The stretches that groups have matched, by the numbers of the groups. -/
  groups : List (Nat × Nat × Nat) := []

/-- The place behind the next character. -/
def Spot.next? (spot : Spot) : Option (Char × Spot) :=
  match spot.rest with
  | [] => none
  | c :: rest =>
    some (c, { spot with before := c :: spot.before, rest, index := spot.index + 1 })

/-- Whether a word starts or ends at a place. -/
def Spot.isWordEdge (spot : Spot) : Bool :=
  spot.before.head?.any isWordChar != spot.rest.head?.any isWordChar

/-- A pattern. -/
inductive Pattern where
  | nothing
  /-- What matches nowhere. -/
  | never
  | char (test : CharTest)
  | seq (first second : Pattern)
  | either (first second : Pattern)
  /-- Any number of matches, as many or as few as possible. -/
  | many (greedy : Bool) (body : Pattern)
  | group (number : Nat) (body : Pattern)
  /-- What must, or must not, come next. -/
  | ahead (wanted : Bool) (body : Pattern)
  /-- Whether the character before is in the set. -/
  | behind (wanted : Bool) (test : CharTest)
  | lineStart
  | lineEnd
  | textEnd
  | wordEdge

namespace Pattern

/-- Repeats a try up to a number of times, as long as it gets on. -/
def repeated (greedy : Bool) (attempt : Spot → (Spot → Option Spot) → Option Spot) :
    Nat → Spot → (Spot → Option Spot) → Option Spot
  | 0, spot, next => next spot
  | count + 1, spot, next =>
    let again (_ : Unit) : Option Spot := attempt spot fun later =>
      if later.index = spot.index then none else repeated greedy attempt count later next
    if greedy then
      match again () with
      | some result => some result
      | none => next spot
    else
      match next spot with
      | some result => some result
      | none => again ()

/-- Tries a pattern at a place, and what comes next at the places where it may end. -/
def run : Pattern → Spot → (Spot → Option Spot) → Option Spot
  | .nothing, spot, next => next spot
  | .never, _, _ => none
  | .char test, spot, next =>
    match spot.next? with
    | some (c, later) => if test.holds c then next later else none
    | none => none
  | .seq first second, spot, next => first.run spot fun later => second.run later next
  | .either first second, spot, next =>
    match first.run spot next with
    | some result => some result
    | none => second.run spot next
  | .many greedy body, spot, next => repeated greedy body.run (spot.rest.length + 1) spot next
  | .group number body, spot, next => body.run spot fun later =>
    next { later with groups := (number, spot.index, later.index) :: later.groups }
  | .ahead wanted body, spot, next =>
    match body.run spot some with
    | some later => if wanted then next { spot with groups := later.groups } else none
    | none => if wanted then none else next spot
  | .behind wanted test, spot, next =>
    if spot.before.head?.any test.holds = wanted then next spot else none
  | .lineStart, spot, next =>
    if spot.before.head?.all (· = '\n') then next spot else none
  | .lineEnd, spot, next =>
    if spot.rest.head?.all (· = '\n') then next spot else none
  | .textEnd, spot, next => if spot.rest.isEmpty then next spot else none
  | .wordEdge, spot, next => if spot.isWordEdge then next spot else none

/-- The end of a match at a place. -/
def matchAt? (pattern : Pattern) (spot : Spot) : Option Spot :=
  pattern.run spot some

/-- The first match at a place or behind it: where it starts, and its end. -/
def search (pattern : Pattern) : Nat → Spot → Option (Nat × Spot)
  | 0, _ => none
  | count + 1, spot =>
    match pattern.matchAt? spot with
    | some stop => some (spot.index, stop)
    | none =>
      match spot.next? with
      | some (_, later) => pattern.search count later
      | none => none

/-- A match at most once. -/
def optional (greedy : Bool) (body : Pattern) : Pattern :=
  if greedy then .either body .nothing else .either .nothing body

end Pattern

end DocPress.Syntax
