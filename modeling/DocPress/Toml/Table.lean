import DocPress.Toml.Fault
import DocPress.Toml.Value

/-!
Tables of a TOML text while it is read. How a table came to be decides what may be added to it: a table
with a header is complete, one that is only a part of a path is not.
-/

namespace DocPress.Toml

/-- How a table came to be. -/
inductive Origin where
  /-- From a header of its own, or between braces. -/
  | own
  /-- As a part of the path of a header. -/
  | header
  /-- As a part of a dotted key. -/
  | dotted
  deriving DecidableEq, Repr

/-- What is under a key of a table. -/
inductive Item where
  | value (value : Value)
  | table (origin : Origin) (entries : List (String × Item))
  /-- The tables of a list of tables, last one first. -/
  | tables (tables : List (List (String × Item)))
  deriving Inhabited

/-- The item that a value of an inline table is: a table among them is complete. -/
def Item.ofInlineValue : Value → Item
  | .table entries => .table .own (entries.map fun entry => (entry.1, .value entry.2))
  | other => .value other

/-- The entries of a table. -/
abbrev Entries := List (String × Item)

/-- The item under a key. -/
def Entries.get? (key : String) (entries : Entries) : Option Item :=
  (List.find? (fun entry => entry.1 == key) entries).map (·.2)

/-- Sets the item under a key, in place of an earlier one. -/
def Entries.set (key : String) (item : Item) (entries : Entries) : Entries :=
  (key, item) :: List.filter (fun entry => entry.1 != key) entries

/-- Puts an entry into entries that are in increasing order of their keys. -/
def placeEntry (entry : String × Value) : List (String × Value) → List (String × Value)
  | [] => [entry]
  | next :: rest =>
    if entry.1 < next.1 then entry :: next :: rest else next :: placeEntry entry rest

mutual

/-- The value of an item. -/
def Item.toValue : Item → Value
  | .value value => value
  | .table _ entries => .table (entriesToValues entries)
  | .tables tables => .array (tablesToValues tables).reverse

/-- The values of entries, in increasing order of their keys. -/
def entriesToValues : List (String × Item) → List (String × Value)
  | [] => []
  | (key, item) :: rest => placeEntry (key, item.toValue) (entriesToValues rest)

/-- The values of tables. -/
def tablesToValues : List (List (String × Item)) → List Value
  | [] => []
  | entries :: rest => .table (entriesToValues entries) :: tablesToValues rest

end

/-- Changes the table at a path, whose parts are made as they are needed; of a list of tables, the last
one is meant. A `dotted` path may not go into complete tables. `done` is the path so far. -/
def descend (dotted : Bool) (change : Origin → Entries → Except Cause Entries) :
    List String → List String → Origin → Entries → Except Cause Entries
  | _, [], origin, entries => change origin entries
  | done, key :: path, _, entries =>
    let path' := done ++ [key]
    match entries.get? key with
    | none => do
      let origin := if dotted then Origin.dotted else .header
      let inner ← descend dotted change path' path origin []
      return entries.set key (.table origin inner)
    | some (.value value) => .error (.extendsValue path' value.typeName)
    | some (.tables (last :: before)) => do
      let inner ← descend dotted change path' path .own last
      return entries.set key (.tables (inner :: before))
    | some (.tables []) => do
      let inner ← descend dotted change path' path .own []
      return entries.set key (.tables [inner])
    | some (.table origin inner) =>
      if dotted && origin = .own then .error (.duplicateKey key none)
      else do
        let inner ← descend dotted change path' path origin inner
        return entries.set key (.table origin inner)

/-- Adds an entry under a path of dotted keys to a table, which `table` tells the path of if it is
known. -/
def addEntry (table : Option (List String)) (path : List String) (key : String) (item : Item)
    (entries : Entries) : Except Cause Entries :=
  descend true
    (fun origin entries =>
      if decide (origin = .dotted) == path.isEmpty then .error (.duplicateKey key none)
      else if (entries.get? key).isSome then .error (.duplicateKey key table)
      else .ok (entries.set key item))
    [] path .own entries

/-- A document while it is read: the complete tables, and the table that is read now. -/
structure Reading where
  root : Entries
  current : Entries
  /-- The path of the current table; empty for the root. -/
  path : List String
  /-- Whether the current table is one of a list of tables. -/
  inList : Bool

namespace Reading

/-- The start of a document. -/
def start : Reading := ⟨[], [], [], false⟩

/-- Adds an entry to the current table. -/
def add (path : List String) (key : String) (value : Value) (reading : Reading) :
    Except Cause Reading := do
  let current ← addEntry (some reading.path) path key (.value value) reading.current
  return { reading with current }

/-- Puts the current table into its place. -/
def finish (reading : Reading) : Except Cause Entries :=
  match reading.path.getLast? with
  | none => .ok reading.current
  | some key =>
    let parent := reading.path.dropLast
    descend false
      (fun _ entries =>
        match entries.get? key with
        | none =>
          let item :=
            if reading.inList then .tables [reading.current] else .table .own reading.current
          .ok (entries.set key item)
        | some (.tables tables) =>
          if reading.inList then .ok (entries.set key (.tables (reading.current :: tables)))
          else .error (.duplicateKey key (some parent))
        | some (.table .own _) => .error (.duplicateKey key (some parent))
        | some (.table _ _) =>
          if reading.inList then .error (.duplicateKey key (some parent))
          else .ok (entries.set key (.table .own reading.current))
        | some (.value _) => .error (.duplicateKey key (some parent)))
      [] parent .own reading.root

/-- Starts the table with the header `parent` and `key`. What a longer header has put into it before
stays in it. -/
def startTable (parent : List String) (key : String) (reading : Reading) :
    Except Cause Reading := do
  let root ← reading.finish
  let _ ← descend false
    (fun _ entries =>
      match entries.get? key with
      | none => .ok entries
      | some (.table .header _) => .ok entries
      | some _ => .error (.duplicateKey key (some parent)))
    [] parent .own root
  let current := (lookup parent root).bind fun entries =>
    match entries.get? key with
    | some (.table .header inner) => some inner
    | _ => none
  return ⟨root, current.getD [], parent ++ [key], false⟩
where
  /-- The entries of the table at a path. -/
  lookup : List String → Entries → Option Entries
    | [], entries => some entries
    | key :: path, entries =>
      match entries.get? key with
      | some (.table _ inner) => lookup path inner
      | some (.tables (last :: _)) => lookup path last
      | _ => none

/-- Starts the next table of the list with the header `parent` and `key`. -/
def startListTable (parent : List String) (key : String) (reading : Reading) :
    Except Cause Reading := do
  let root ← reading.finish
  let root ← descend false
    (fun _ entries =>
      match entries.get? key with
      | none => .ok (entries.set key (.tables []))
      | some (.tables _) => .ok entries
      | some _ => .error (.duplicateKey key (some parent)))
    [] parent .own root
  return ⟨root, [], parent ++ [key], true⟩

end Reading

end DocPress.Toml
