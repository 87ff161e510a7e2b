/-!
Faults of TOML texts: what could not be read, what was expected in its place, and what caused it.
-/

namespace DocPress.Toml

/-- What could not be read. -/
inductive Label where
  | key
  | tableHeader
  | string
  | basicString
  | literalString
  | longBasicString
  | longLiteralString
  | escape
  | shortCode
  | longCode
  | array
  | inlineTable
  | integer
  | hexadecimal
  | octal
  | binary
  | float
  | dateTime
  | time
  | offset
  deriving DecidableEq, Repr, Inhabited

/-- The wording of a label. -/
def Label.text : Label → String
  | .key => "key"
  | .tableHeader => "table header"
  | .string => "string"
  | .basicString => "basic string"
  | .literalString => "literal string"
  | .longBasicString => "multiline basic string"
  | .longLiteralString => "multiline literal string"
  | .escape => "escape sequence"
  | .shortCode => "unicode 4-digit hex code"
  | .longCode => "unicode 8-digit hex code"
  | .array => "array"
  | .inlineTable => "inline table"
  | .integer => "integer"
  | .hexadecimal => "hexadecimal integer"
  | .octal => "octal integer"
  | .binary => "binary integer"
  | .float => "floating-point number"
  | .dateTime => "date-time"
  | .time => "time"
  | .offset => "time offset"

/-- What was expected. -/
inductive Expectation where
  | newline
  | mark (text : String)
  | digit
  | leadingDigit
  deriving DecidableEq, Repr, Inhabited

/-- The wording of an expectation. -/
def Expectation.text : Expectation → String
  | .newline => "newline"
  | .mark text => String.singleton (Char.ofNat 96) ++ text ++ String.singleton (Char.ofNat 96)
  | .digit => "digit"
  | .leadingDigit => "leading digit"

/-- What is wrong with something that could be read. -/
inductive Cause where
  /-- A key that occurs twice in a table, which is given by its path if it is known. -/
  | duplicateKey (key : String) (table : Option (List String))
  /-- A key that goes on below a value that is no table. -/
  | extendsValue (path : List String) (typeName : String)
  | outOfRange
  | numberTooLarge
  | numberTooSmall
  | tooDeep
  deriving DecidableEq, Repr, Inhabited

/-- Text between backticks. -/
def ticked (text : String) : String :=
  String.singleton (Char.ofNat 96) ++ text ++ String.singleton (Char.ofNat 96)

/-- The wording of a cause. -/
def Cause.text : Cause → String
  | .duplicateKey key none => "duplicate key " ++ ticked key
  | .duplicateKey key (some []) => "duplicate key " ++ ticked key ++ " in document root"
  | .duplicateKey key (some path) =>
    "duplicate key " ++ ticked key ++ " in table " ++ ticked (".".intercalate path)
  | .extendsValue path typeName =>
    "dotted key " ++ ticked (".".intercalate path) ++
      " attempted to extend non-table type (" ++ typeName ++ ")"
  | .outOfRange => "value is out of range"
  | .numberTooLarge => "number too large to fit in target type"
  | .numberTooSmall => "number too small to fit in target type"
  | .tooDeep => "recursion limit exceeded"

/-- Why a text cannot be read. -/
structure Fault where
  label : Option Label
  expected : List Expectation
  cause : Option Cause
  /-- How many characters are left of the text at the fault. -/
  left : Nat
  /-- Whether nothing else can be tried in place of what could not be read. -/
  final : Bool
  deriving DecidableEq, Repr, Inhabited

namespace Fault

/-- The wording of a fault. -/
def message (fault : Fault) : String :=
  let label := fault.label.map fun label => "invalid " ++ label.text
  let expected :=
    if fault.expected.isEmpty then none
    else some ("expected " ++ ", ".intercalate (fault.expected.map Expectation.text))
  let cause := fault.cause.map Cause.text
  "\n".intercalate ([label, expected, cause].filterMap id)

/-- A fault in front of the rest of a text for which nothing else can be tried. -/
def ofLabel (label : Label) (expected : List Expectation) (rest : List Char) : Fault :=
  ⟨some label, expected, none, rest.length, true⟩

/-- A fault that only has a cause. -/
def ofCause (cause : Cause) (rest : List Char) : Fault :=
  ⟨none, [], some cause, rest.length, true⟩

/-- Names what could not be read, unless a part of it has been named. -/
def within (label : Label) (fault : Fault) : Fault :=
  { fault with label := fault.label.or (some label) }

/-- Adds expectations. -/
def expecting (expected : List Expectation) (fault : Fault) : Fault :=
  { fault with expected := fault.expected ++ expected }

/-- Says that nothing else can be tried. -/
def committed (fault : Fault) : Fault :=
  { fault with final := true }

/-- The number of lines before the fault. -/
def linesBefore (text : List Char) (fault : Fault) : Nat :=
  (text.take (text.length - fault.left)).count '\n'

/-- The line and the column of the fault, counted from one. The end of a text that ends in a line
break is behind the line that it ends. -/
def position (text : String) (fault : Fault) : Nat × Nat :=
  let chars := text.toList
  let index := chars.length - fault.left
  let before := chars.take (min index (chars.length - 1))
  let beyond := index - before.length
  (before.count '\n' + 1, (before.reverse.takeWhile (· != '\n')).length + beyond + 1)

end Fault

end DocPress.Toml
