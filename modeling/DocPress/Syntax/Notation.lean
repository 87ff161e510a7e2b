import DocPress.Syntax.Pattern

/-!
The usual notation of patterns. A point is any character of the line, brackets list a set of characters,
parentheses group, and a bar divides alternatives; stars, plus signs and question marks say how often.
Letters after a backslash stand for sets of characters and for edges.
-/

namespace DocPress.Syntax

namespace Pattern

/-- A pattern that has been read, what is left of the text, and the number of groups so far. -/
structure Parsed (α : Type) where
  value : α
  rest : List Char
  groups : Nat

/-- The set of just one character. -/
def single (c : Char) : CharTest :=
  { intervals := [(c, c)] }

/-- Whether a character is white space. -/
def isSpace (c : Char) : Bool :=
  c = ' ' || ('\t' ≤ c && c ≤ '\r')

/-- The set for a letter after a backslash. -/
def setOf? (c : Char) : Option CharTest :=
  match c with
  | 's' => some { parts := [isSpace] }
  | 'S' => some { negated := true, parts := [isSpace] }
  | 'd' => some { parts := [Char.isDigit] }
  | 'D' => some { negated := true, parts := [Char.isDigit] }
  | 'w' => some { parts := [isWordChar] }
  | 'W' => some { negated := true, parts := [isWordChar] }
  | 'h' => some { intervals := [('0', '9'), ('a', 'f'), ('A', 'F')] }
  | 'p' => some { intervals := [(' ', '~')], parts := [fun c => '\x7f' < c || c = '\t'] }
  | _ => none

/-- The character for a letter after a backslash. -/
def escaped (c : Char) : Char :=
  match c with
  | 'n' => '\n'
  | 't' => '\t'
  | 'r' => '\r'
  | c => c

/-- Reads the set behind an opening bracket. -/
def readSet : List Char → CharTest → Option (CharTest × List Char)
  | [], _ => none
  | ']' :: rest, test => some (test, rest)
  | '\\' :: c :: rest, test =>
    match setOf? c with
    | some part => readSet rest { test with parts := part.holds :: test.parts }
    | none => readSet rest { test with intervals := (escaped c, escaped c) :: test.intervals }
  | low :: '-' :: high :: rest, test =>
    if high = ']' then
      some ({ test with intervals := (low, low) :: ('-', '-') :: test.intervals }, rest)
    else readSet rest { test with intervals := (low, high) :: test.intervals }
  | c :: rest, test => readSet rest { test with intervals := (c, c) :: test.intervals }

/-- Reads how often a pattern may match. -/
def readCount (body : Pattern) : List Char → Pattern × List Char
  | '*' :: '?' :: rest => (.many false body, rest)
  | '*' :: rest => (.many true body, rest)
  | '+' :: '?' :: rest => (.seq body (.many false body), rest)
  | '+' :: rest => (.seq body (.many true body), rest)
  | '?' :: '?' :: rest => (optional false body, rest)
  | '?' :: rest => (optional true body, rest)
  | rest => (body, rest)

/-- The edge for a letter after a backslash. -/
def edgeOf? (c : Char) : Option Pattern :=
  match c with
  | 'b' => some .wordEdge
  | 'z' => some .textEnd
  | 'A' => some .lineStart
  | _ => none

/-- The set that a pattern for one character is. -/
def testOf? : Pattern → Option CharTest
  | .char test => some test
  | _ => none

/-- What an opening parenthesis starts. -/
inductive Bracket where
  | plain
  | counted
  | ahead (wanted : Bool)
  | behind (wanted : Bool)

/-- What an opening parenthesis starts, by what is behind it. -/
def bracketOf : List Char → Bracket × List Char
  | '?' :: ':' :: rest => (.plain, rest)
  | '?' :: '=' :: rest => (.ahead true, rest)
  | '?' :: '!' :: rest => (.ahead false, rest)
  | '?' :: '<' :: '=' :: rest => (.behind true, rest)
  | '?' :: '<' :: '!' :: rest => (.behind false, rest)
  | rest => (.counted, rest)

mutual

/-- Reads alternatives; `fuel` bounds the depth and the length. -/
def readChoice : Nat → Nat → List Char → Option (Parsed Pattern)
  | 0, _, _ => none
  | fuel + 1, groups, text =>
    match readRow fuel groups text with
    | some ⟨first, '|' :: rest, groups⟩ =>
      match readChoice fuel groups rest with
      | some more => some { more with value := .either first more.value }
      | none => none
    | other => other

/-- Reads patterns one after the other. -/
def readRow : Nat → Nat → List Char → Option (Parsed Pattern)
  | 0, _, _ => none
  | _, groups, [] => some ⟨.nothing, [], groups⟩
  | fuel + 1, groups, c :: rest =>
    if c = '|' || c = ')' then some ⟨.nothing, c :: rest, groups⟩
    else
      match readItem fuel groups c rest with
      | some item =>
        let (body, rest) := readCount item.value item.rest
        match readRow fuel item.groups rest with
        | some more => some { more with value := .seq body more.value }
        | none => none
      | none => none

/-- Reads a pattern that starts with a character. -/
def readItem : Nat → Nat → Char → List Char → Option (Parsed Pattern)
  | 0, _, _, _ => none
  | fuel + 1, groups, c, rest =>
    match c, rest with
    | '.', _ => some ⟨.char { negated := true, intervals := [('\n', '\n')] }, rest, groups⟩
    | '^', _ => some ⟨.lineStart, rest, groups⟩
    | '$', _ => some ⟨.lineEnd, rest, groups⟩
    | '[', '^' :: rest =>
      (readSet rest { negated := true }).map fun (test, rest) => ⟨.char test, rest, groups⟩
    | '[', _ => (readSet rest {}).map fun (test, rest) => ⟨.char test, rest, groups⟩
    | '\\', c :: rest =>
      match setOf? c, edgeOf? c with
      | some test, _ => some ⟨.char test, rest, groups⟩
      | none, some edge => some ⟨edge, rest, groups⟩
      | none, none => some ⟨.char (single (escaped c)), rest, groups⟩
    | '(', _ =>
      let (bracket, rest) := bracketOf rest
      let inner := match bracket with
        | .counted => groups + 1
        | _ => groups
      match readChoice fuel inner rest with
      | some ⟨body, ')' :: rest, more⟩ =>
        match bracket with
        | .plain => some ⟨body, rest, more⟩
        | .counted => some ⟨.group inner body, rest, more⟩
        | .ahead wanted => some ⟨.ahead wanted body, rest, more⟩
        | .behind wanted =>
          match body with
          | .seq body .nothing =>
            (testOf? body).map fun test => ⟨.behind wanted test, rest, more⟩
          | _ => none
      | _ => none
    | c, rest => some ⟨.char (single c), rest, groups⟩

end

/-- The pattern in the usual notation. What cannot be read matches nowhere. -/
def ofText (text : String) : Pattern :=
  match readChoice (4 * text.length + 4) 0 text.toList with
  | some ⟨pattern, [], _⟩ => pattern
  | _ => .never

end Pattern

end DocPress.Syntax
