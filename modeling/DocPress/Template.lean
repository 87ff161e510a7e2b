import DocPress.Text.Blank

/-!
Templates: text with placeholders between double braces. A placeholder whose name ends in a question
mark shows nothing when it has no value; any other one needs a value.
-/

namespace DocPress

/-- A part of a template. -/
inductive Segment where
  | literal (text : List Char)
  | placeholder (name : List Char) (optional : Bool)
  deriving DecidableEq, Repr

/-- A template: its parts in order. -/
structure Template where
  segments : List Segment
  deriving DecidableEq, Repr

/-- Why a template cannot be read or shown. -/
inductive TemplateError where
  /-- Two opening braces without closing ones. -/
  | unclosed
  /-- A placeholder that holds no name, by its text without blanks around it. -/
  | badPlaceholder (inner : String)
  /-- A placeholder without a value that needs one. -/
  | missingVariable (name : String)
  deriving DecidableEq, Repr

/-- The wording of a template error. -/
def TemplateError.message : TemplateError → String
  | .unclosed => "invalid template syntax: unclosed \x7b\x7b delimiter"
  | .badPlaceholder inner =>
    "invalid template syntax: bad placeholder `\x7b\x7b" ++ inner ++ "\x7d\x7d`"
  | .missingVariable name => "missing required variable: " ++ name

/-- Values by name. A name that is set twice has the value that was set last. -/
structure Props where
  entries : List (String × String)
  deriving DecidableEq, Repr

namespace Props

/-- No values. -/
def empty : Props := ⟨[]⟩

/-- The value of a name. -/
def get? (props : Props) (name : String) : Option String :=
  (props.entries.find? (·.1 == name)).map (·.2)

/-- Sets the value of a name. -/
def insert (name value : String) (props : Props) : Props :=
  ⟨(name, value) :: props.entries⟩

/-- The values in order, later ones counting more. -/
def ofList (entries : List (String × String)) : Props :=
  ⟨entries.reverse⟩

/-- Both sets of values; those of `above` count more. -/
def merge (props above : Props) : Props :=
  ⟨above.entries ++ props.entries⟩

/-- Changes every value. -/
def mapValues (f : String → String) (props : Props) : Props :=
  ⟨props.entries.map fun entry => (entry.1, f entry.2)⟩

end Props

namespace Template

/-- The two braces that open a placeholder. -/
def opening : List Char := [Char.ofNat 123, Char.ofNat 123]

/-- The two braces that close a placeholder. -/
def closing : List Char := [Char.ofNat 125, Char.ofNat 125]

/-- A literal part for a text that is not empty. -/
def literal (text : List Char) : List Segment :=
  if text.isEmpty then [] else [.literal text]

/-- The placeholder with the given text between its braces. -/
def readPlaceholder (inner : List Char) : Except TemplateError Segment :=
  let inner := Text.trim inner
  let (name, optional) := match inner.reverse with
    | '?' :: before => (Text.trimEnd before.reverse, true)
    | _ => (inner, false)
  if name.isEmpty || name.any (fun c => Text.isBlank c || c.toNat = 123) then
    .error (.badPlaceholder (String.ofList inner))
  else
    .ok (.placeholder name optional)

/-- The parts of a template source; `fuel` bounds the number of placeholders. -/
def readSegments : Nat → List Char → Except TemplateError (List Segment)
  | 0, source => .ok (literal source)
  | fuel + 1, source =>
    match Text.splitAtMark? opening source with
    | none => .ok (literal source)
    | some (before, after) =>
      match Text.splitAtMark? closing after with
      | none => .error .unclosed
      | some (inner, rest) => do
        let placeholder ← readPlaceholder inner
        let segments ← readSegments fuel rest
        return literal before ++ placeholder :: segments

/-- Reads a template. -/
def parse (source : String) : Except TemplateError Template :=
  (readSegments (source.toList.length + 1) source.toList).map Template.mk

/-- The names of the placeholders in order. -/
def placeholders (template : Template) : List String :=
  template.segments.filterMap fun
    | .placeholder name _ => some (String.ofList name)
    | .literal _ => none

/-- The text of a part. Values are put in as they are. -/
def renderSegment (props : Props) : Segment → Except TemplateError (List Char)
  | .literal text => .ok text
  | .placeholder name optional =>
    match props.get? (String.ofList name) with
    | some value => .ok value.toList
    | none => if optional then .ok [] else .error (.missingVariable (String.ofList name))

/-- The text of parts in order. -/
def renderSegments (props : Props) : List Segment → Except TemplateError (List Char)
  | [] => .ok []
  | segment :: rest => do
    let text ← renderSegment props segment
    let more ← renderSegments props rest
    return text ++ more

/-- The text of a template with the given values. -/
def render (template : Template) (props : Props) : Except TemplateError String :=
  (renderSegments props template.segments).map String.ofList

end Template

end DocPress
