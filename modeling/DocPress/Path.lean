import DocPress.Text.Blank

/-!
Paths as texts. Slashes separate the parts of a path; empty parts do not count, and neither does a
single dot, unless the path starts with it.
-/

namespace DocPress

/-- A part of a path. -/
inductive PathPart where
  /-- The slash in front of an absolute path. -/
  | root
  /-- The dot that a path starts with. -/
  | here
  /-- The two dots for the directory around. -/
  | up
  | name (text : List Char)
  deriving DecidableEq, Repr

namespace Path

/-- Whether the character separates parts. -/
def isSeparator (c : Char) : Bool :=
  c = '/'

/-- The part that a text between slashes stands for, where `first` says that nothing is in front of
it. -/
def part? (first : Bool) (segment : List Char) : Option PathPart :=
  if segment.isEmpty then none
  else if segment = ['.'] then if first then some .here else none
  else if segment = ['.', '.'] then some .up
  else some (.name segment)

/-- The parts of texts between slashes. -/
def partsOf (first : Bool) : List (List Char) → List PathPart
  | [] => []
  | segment :: rest => (part? first segment).toList ++ partsOf false rest

/-- The parts of a path. -/
def parts (path : List Char) : List PathPart :=
  match path with
  | '/' :: rest => .root :: partsOf false (Text.splitOn isSeparator rest)
  | _ => partsOf true (Text.splitOn isSeparator path)

/-- Whether the part is a plain name. -/
def isName : PathPart → Bool
  | .name _ => true
  | _ => false

/-- Texts between slashes without those at the end that are no parts. -/
def trimSegments (first : Bool) : List (List Char) → List (List Char)
  | [] => []
  | segment :: rest =>
    match trimSegments false rest with
    | [] => if (part? first segment).isSome then [segment] else []
    | more => segment :: more

/-- Texts between slashes with slashes between them. -/
def join (segments : List (List Char)) : List Char :=
  ['/'].intercalate segments

/-- The path without its last part, as it is written. -/
def parent (path : List Char) : List Char :=
  let before (first : Bool) (segments : List (List Char)) : List (List Char) :=
    trimSegments first (trimSegments first segments).dropLast
  match path with
  | '/' :: rest => '/' :: join (before false (Text.splitOn isSeparator rest))
  | _ => join (before true (Text.splitOn isSeparator path))

/-- Texts between slashes without the first `count` parts and what is no part after them. -/
def dropParts (first : Bool) : Nat → List (List Char) → List (List Char)
  | _, [] => []
  | count, segment :: rest =>
    if (part? first segment).isNone then dropParts false count rest
    else
      match count with
      | 0 => segment :: rest
      | count + 1 => dropParts false count rest

/-- The rest of a path after the parts of `root`, if it starts with them, as it is written. -/
def stripRoot? (root path : List Char) : Option (List Char) :=
  let start := parts root
  if start.isPrefixOf (parts path) then
    match start, path with
    | [], '/' :: rest => some ('/' :: join (trimSegments false (Text.splitOn isSeparator rest)))
    | [], _ => some (join (trimSegments true (Text.splitOn isSeparator path)))
    | _ :: more, '/' :: rest =>
      some (join (trimSegments false
        (dropParts false more.length (Text.splitOn isSeparator rest))))
    | _ :: more, _ =>
      some (join (trimSegments false
        (dropParts true (more.length + 1) (Text.splitOn isSeparator path))))
  else none

/-- A path that is taken from a directory. -/
def within (directory path : List Char) : List Char :=
  if path.head? = some '/' || directory.isEmpty then path
  else if directory.getLast? = some '/' then directory ++ path
  else directory ++ '/' :: path

/-- The name that a path ends with. -/
def fileName? (path : List Char) : Option (List Char) :=
  match (parts path).getLast? with
  | some (.name text) => some text
  | _ => none

/-- A file name before and after its last dot; a dot in front of all else does not count. -/
def splitExtension (name : List Char) : List Char × Option (List Char) :=
  match Text.splitOnce? (· = '.') name.reverse with
  | some (after, before) => if before.isEmpty then (name, none) else (before.reverse, some after.reverse)
  | none => (name, none)

/-- The file name of a path without its extension. -/
def stem? (path : List Char) : Option (List Char) :=
  (fileName? path).map fun name => (splitExtension name).1

/-- The extension of the file name of a path. -/
def extension? (path : List Char) : Option (List Char) :=
  (fileName? path).bind fun name => (splitExtension name).2

/-- A path without the extension of the name at its end. The dot in front of the extension goes with
it only if there is a name up to the dot: `..json` is cut to `..`, which is no name. -/
def withoutExtension (path : List Char) : List Char :=
  let upToDot := path.take (path.length - ((extension? path).getD []).length)
  match fileName? upToDot with
  | some name => upToDot.take (upToDot.length - (name.length - (splitExtension name).1.length))
  | none => upToDot

end Path

end DocPress
