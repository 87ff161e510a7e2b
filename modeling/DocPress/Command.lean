import DocPress.Command.Options

/-!
Command lines: what is asked for by the words of a command line, before anything is done.
-/

namespace DocPress

/-- What can be done with a site. -/
inductive Command where
  /-- Put the artifacts of documents, or of all documents if none is named, into caches. -/
  | build (backends identifiers : List String)
  /-- Go through all documents without keeping anything. -/
  | check (backends : List String) (strict : Bool)
  /-- Show the artifact of a document with the given values. -/
  | present (identifier backend : String) (props : List String)
  deriving DecidableEq, Repr

/-- A command, and the configuration to do it with. -/
structure Request where
  /-- The path of the configuration. -/
  configPath : String
  /-- How much there is to be said about what is done. -/
  verbosity : Nat
  command : Command
  deriving DecidableEq, Repr

/-- What a command line asks for. -/
inductive Invocation where
  | run (request : Request)
  | version
  | help
  /-- A line that makes no sense. -/
  | misuse
  deriving DecidableEq, Repr

namespace Command

/-- The option that asks for help. -/
def helpOption : OptionSpec :=
  { name := "help", letter := some 'h' }

/-- The option for backends. -/
def backendOption (repeatable : Bool) : OptionSpec :=
  { name := "backend", letter := some 'b', hasValue := true, repeatable }

/-- The options in front of a command. -/
def globalOptions : List OptionSpec :=
  [helpOption, { name := "version", letter := some 'V' },
    { name := "config", letter := some 'c', hasValue := true, emptyValue := false },
    { name := "verbose", letter := some 'v', repeatable := true }]

/-- A command as it is called. -/
structure Usage where
  name : String
  options : List OptionSpec
  /-- The largest number of operands, if there is one. -/
  mostOperands : Option Nat
  /-- The command, if all that it needs is given. -/
  read : Given → Option Command

/-- The commands by their names. -/
def usages : List Usage :=
  [{ name := "build"
     options := [helpOption, backendOption true]
     mostOperands := none
     read := fun given => some (.build (given.valuesOf "backend") given.operands) },
    { name := "check"
      options := [helpOption, backendOption true, { name := "strict" }]
      mostOperands := some 0
      read := fun given => some (.check (given.valuesOf "backend") (given.flags.contains "strict")) },
    { name := "show"
      options :=
        [helpOption, backendOption false,
          { name := "prop", letter := some 'p', hasValue := true, repeatable := true }]
      mostOperands := some 1
      read := fun given => given.operands.head?.map fun identifier =>
        .present identifier (given.valueOr "backend" "mdx-bundler") (given.valuesOf "prop") }]

/-- Whether there can be one more operand. -/
def Usage.takesOperand (usage : Usage) (given : Given) : Bool :=
  match usage.mostOperands with
  | some most => given.operands.length < most
  | none => true

/-- Reads what is given to a command. -/
def readGiven (usage : Usage) : List (Item × List String) → Given → Except Invocation Given
  | [], given => .ok given
  | (.flag option, _) :: rest, given =>
    if option.name = helpOption.name then .error .help
    else
      match given.addFlag option with
      | some given => readGiven usage rest given
      | none => .error .misuse
  | (.value option text, _) :: rest, given =>
    match given.addValue option text with
    | some given => readGiven usage rest given
    | none => .error .misuse
  | (.operand text, _) :: rest, given =>
    if usage.takesOperand given then
      readGiven usage rest { given with operands := given.operands ++ [text] }
    else .error .misuse
  | (.lastOption, _) :: rest, given => readGiven usage rest given
  | (.misplaced, _) :: _, _ => .error .misuse

/-- What the words behind the name of a command ask for. -/
def readCommand (name : String) (words : List String) (given : Given) : Invocation :=
  match usages.find? (·.name = name) with
  | some usage =>
    match readGiven usage (readItems usage.options none words) {} with
    | .error invocation => invocation
    | .ok own =>
      match usage.read own with
      | some command => .run ⟨given.valueOr "config" "folio.toml", given.count "verbose", command⟩
      | none => .misuse
  | none =>
    if name ≠ "help" then .misuse
    else
      match words with
      | [] => .help
      | [topic] => if (usages.map (·.name)).contains topic then .help else .misuse
      | _ => .misuse

/-- What the items of a line ask for: options, and then a command. -/
def readLine : List (Item × List String) → Given → Invocation
  | [], _ => .misuse
  | (.flag option, _) :: rest, given =>
    if option.name = helpOption.name then .help
    else if option.name = "version" then .version
    else
      match given.addFlag option with
      | some given => readLine rest given
      | none => .misuse
  | (.value option text, _) :: rest, given =>
    match given.addValue option text with
    | some given => readLine rest given
    | none => .misuse
  | (.operand name, words) :: _, given => readCommand name words given
  | (.lastOption, _) :: _, _ => .misuse
  | (.misplaced, _) :: _, _ => .misuse

end Command

/-- What the words of a command line ask for. -/
def Invocation.ofWords (words : List String) : Invocation :=
  Command.readLine (Command.readItems Command.globalOptions none words) {}

end DocPress
