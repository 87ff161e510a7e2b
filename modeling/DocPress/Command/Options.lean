/-!
Options on a command line. A word with two hyphens in front names an option, and one with a single
hyphen is a row of options of one letter. The value of an option stands in the same word or is the next
one. Behind a word of just two hyphens there are no options.
-/

namespace DocPress.Command

/-- An option. -/
structure OptionSpec where
  name : String
  /-- The letter that also names the option. -/
  letter : Option Char := none
  /-- Whether the option has a value. -/
  hasValue : Bool := false
  /-- Whether the option may be given several times. -/
  repeatable : Bool := false
  /-- Whether the value may be empty. -/
  emptyValue : Bool := true

/-- A part of a command line. -/
inductive Item where
  | flag (option : OptionSpec)
  | value (option : OptionSpec) (text : String)
  /-- The two hyphens behind which there are no options. -/
  | lastOption
  | operand (text : String)
  /-- What is no part of a command line; the rest of the line does not matter. -/
  | misplaced

/-- What a word starts out as. -/
inductive Word where
  | lastOption
  /-- Two hyphens, a name, and a value if there is an equals sign. -/
  | long (name : String) (value : Option String)
  /-- A hyphen and letters. -/
  | short (letters : List Char)
  | plain

/-- The kind of a word. -/
def Word.ofText (text : String) : Word :=
  match text.toList with
  | ['-', '-'] => .lastOption
  | '-' :: '-' :: rest =>
    match rest.span (· ≠ '=') with
    | (name, _ :: value) => .long (String.ofList name) (some (String.ofList value))
    | (name, []) => .long (String.ofList name) none
  | '-' :: c :: rest => .short (c :: rest)
  | _ => .plain

/-- The items of a word, and the option at its end whose value is the next word. -/
structure Reading where
  items : List Item
  pending : Option OptionSpec := none

/-- Reads an option that is named in full. -/
def readLong (options : List OptionSpec) (name : String) (value : Option String) : Reading :=
  match options.find? (·.name = name), value with
  | some option, some text => ⟨[if option.hasValue then .value option text else .misplaced], none⟩
  | some option, none =>
    if option.hasValue then ⟨[], some option⟩ else ⟨[.flag option], none⟩
  | none, _ => ⟨[.misplaced], none⟩

/-- Reads a row of options of one letter. What follows an option with a value is the value; an equals
sign between them does not count. -/
def readShort (options : List OptionSpec) : List Char → Reading
  | [] => ⟨[], none⟩
  | letter :: rest =>
    match options.find? (·.letter = some letter) with
    | none => ⟨[.misplaced], none⟩
    | some option =>
      if option.hasValue then
        match rest with
        | [] => ⟨[], some option⟩
        | '=' :: value => ⟨[.value option (String.ofList value)], none⟩
        | value => ⟨[.value option (String.ofList value)], none⟩
      else
        let more := readShort options rest
        { more with items := .flag option :: more.items }

/-- The items of a line from words on, each with the words behind its own. The value of a pending
option is the next word, which must not look like an option. -/
def readItems (options : List OptionSpec) : Option OptionSpec → List String →
    List (Item × List String)
  | none, [] => []
  | some _, [] => [(.misplaced, [])]
  | some option, word :: rest =>
    match Word.ofText word with
    | .plain => (.value option word, rest) :: readItems options none rest
    | _ => [(.misplaced, rest)]
  | none, word :: rest =>
    match Word.ofText word with
    | .lastOption => (.lastOption, rest) :: rest.map fun word => (.operand word, [])
    | .plain => (.operand word, rest) :: readItems options none rest
    | .long name value =>
      let reading := readLong options name value
      reading.items.map (·, rest) ++ readItems options reading.pending rest
    | .short letters =>
      let reading := readShort options letters
      reading.items.map (·, rest) ++ readItems options reading.pending rest

/-- What is given on a command line. -/
structure Given where
  flags : List String := []
  values : List (String × String) := []
  operands : List String := []

namespace Given

/-- Adds an option, unless it is there and cannot be given twice. -/
def addFlag (option : OptionSpec) (given : Given) : Option Given :=
  if !option.repeatable && given.flags.contains option.name then none
  else some { given with flags := given.flags ++ [option.name] }

/-- Adds the value of an option. -/
def addValue (option : OptionSpec) (text : String) (given : Given) : Option Given :=
  if !option.repeatable && given.values.any (·.1 = option.name) then none
  else if !option.emptyValue && text.isEmpty then none
  else some { given with values := given.values ++ [(option.name, text)] }

/-- How often an option is given. -/
def count (name : String) (given : Given) : Nat :=
  given.flags.countP (· = name)

/-- The values of an option. -/
def valuesOf (name : String) (given : Given) : List String :=
  (given.values.filter (·.1 = name)).map (·.2)

/-- The value of an option that is given once, or what it is otherwise. -/
def valueOr (name fallback : String) (given : Given) : String :=
  (given.valuesOf name).head?.getD fallback

end Given

end DocPress.Command
