import DocPress.Proofs.Result
import DocPress.Toml.Document

/-!
Tables of TOML texts. No table that is read holds a key twice, at whatever depth it is: what is added to a
table while a document is read has a key of its own or takes the place of what was there. So the entries
of a table, which are put in order at the end, are in increasing order of their keys.
-/

namespace DocPress.Toml

/-! ### Values and items -/

/-- Whether the entries of all tables in a value are in increasing order of their keys. -/
inductive Value.IsOrdered : Value → Prop
  | scalar {value : Value} (scalar : value.text?.isSome = true) : value.IsOrdered
  | array {items : List Value} (each : ∀ item ∈ items, item.IsOrdered) : (Value.array items).IsOrdered
  | table {entries : List (String × Value)} (increasing : entries.Pairwise (·.1 < ·.1))
      (each : ∀ entry ∈ entries, entry.2.IsOrdered) : (Value.table entries).IsOrdered

/-- The keys of an ordered table are distinct. -/
theorem Value.IsOrdered.keys_nodup {entries : List (String × Value)}
    (ordered : (Value.table entries).IsOrdered) : (entries.map (·.1)).Nodup := by
  cases ordered with
  | scalar none => cases none
  | table increasing each => exact List.pairwise_map.2 (increasing.imp fun below => Std.ne_of_lt below)

/-- The values in an ordered table are ordered. -/
theorem Value.IsOrdered.of_mem {entries : List (String × Value)} {entry : String × Value}
    (ordered : (Value.table entries).IsOrdered) (member : entry ∈ entries) : entry.2.IsOrdered := by
  cases ordered with
  | scalar none => cases none
  | table increasing each => exact each entry member

/-- Whether no table in an item holds a key twice. -/
inductive Item.IsSound : Item → Prop
  | value {value : Value} (ordered : value.IsOrdered) : (Item.value value).IsSound
  | table {origin : Origin} {entries : Entries} (distinct : (entries.map (·.1)).Nodup)
      (each : ∀ entry ∈ entries, entry.2.IsSound) : (Item.table origin entries).IsSound
  | tables {tables : List Entries} (distinct : ∀ entries ∈ tables, (entries.map (·.1)).Nodup)
      (each : ∀ entries ∈ tables, ∀ entry ∈ entries, entry.2.IsSound) : (Item.tables tables).IsSound

/-- Whether a table with the entries holds no key twice, nor does any table in it. -/
structure Entries.IsSound (entries : Entries) : Prop where
  distinct : (entries.map (·.1)).Nodup
  each : ∀ entry ∈ entries, entry.2.IsSound

theorem Entries.IsSound.nil : Entries.IsSound [] :=
  ⟨List.nodup_nil, nofun⟩

/-- A table is sound when its entries are. -/
theorem Item.isSound_table_iff {origin : Origin} {entries : Entries} :
    (Item.table origin entries).IsSound ↔ Entries.IsSound entries := by
  constructor
  · intro sound
    cases sound with
    | table distinct each => exact ⟨distinct, each⟩
  · exact fun sound => .table sound.distinct sound.each

/-- A list of tables is sound when the entries of each are. -/
theorem Item.isSound_tables_iff {tables : List Entries} :
    (Item.tables tables).IsSound ↔ ∀ entries ∈ tables, Entries.IsSound entries := by
  constructor
  · intro sound
    cases sound with
    | tables distinct each => exact fun entries member => ⟨distinct entries member, each entries member⟩
  · exact fun sound => .tables (fun entries member => (sound entries member).distinct)
      fun entries member => (sound entries member).each

/-- An item that is found among sound entries is sound. -/
theorem Entries.IsSound.get? {entries : Entries} {key : String} {item : Item}
    (sound : Entries.IsSound entries) (found : entries.get? key = some item) : item.IsSound := by
  obtain ⟨entry, here, rfl⟩ := Option.map_eq_some_iff.1 found
  exact sound.each entry (List.mem_of_find?_eq_some here)

/-- What is set takes the place of what was under the key. -/
theorem Entries.IsSound.set {entries : Entries} {key : String} {item : Item}
    (sound : Entries.IsSound entries) (new : item.IsSound) : Entries.IsSound (entries.set key item) := by
  constructor
  · rw [Entries.set, List.map_cons, List.nodup_cons]
    refine ⟨fun member => ?_, sound.distinct.sublist (List.filter_sublist.map _)⟩
    obtain ⟨entry, kept, same⟩ := List.mem_map.1 member
    exact bne_iff_ne.1 (List.mem_filter.1 kept).2 same
  · rw [Entries.set, List.forall_mem_cons]
    exact ⟨new, fun entry kept => sound.each entry (List.mem_filter.1 kept).1⟩

/-! ### Putting entries in order -/

theorem mem_placeEntry {entry other : String × Value} {entries : List (String × Value)} :
    other ∈ placeEntry entry entries ↔ other = entry ∨ other ∈ entries := by
  induction entries with
  | nil => exact List.mem_cons
  | cons next rest ih =>
      rw [placeEntry]
      split
      · exact List.mem_cons
      · rw [List.mem_cons, ih, List.mem_cons]
        exact or_left_comm

/-- An entry with a new key is put between those with smaller keys and those with greater ones. -/
theorem pairwise_placeEntry {entry : String × Value} {entries : List (String × Value)}
    (new : ∀ other ∈ entries, entry.1 ≠ other.1) (increasing : entries.Pairwise (·.1 < ·.1)) :
    (placeEntry entry entries).Pairwise (·.1 < ·.1) := by
  induction entries with
  | nil => exact List.pairwise_singleton _ _
  | cons next rest ih =>
      obtain ⟨greater, behind⟩ := List.pairwise_cons.1 increasing
      rw [List.forall_mem_cons] at new
      rw [placeEntry]
      split
      case isTrue below =>
        refine List.pairwise_cons.2 ⟨List.forall_mem_cons.2 ⟨below, fun other member => ?_⟩, increasing⟩
        exact String.lt_trans below (greater other member)
      case isFalse notBelow =>
        refine List.pairwise_cons.2 ⟨fun other member => ?_, ih new.2 behind⟩
        rcases mem_placeEntry.1 member with rfl | later
        · exact Std.lt_of_le_of_ne (Std.not_lt.1 notBelow) new.1.symm
        · exact greater other later

theorem fst_of_mem_entriesToValues {entries : Entries} {other : String × Value}
    (member : other ∈ entriesToValues entries) : other.1 ∈ entries.map (·.1) := by
  induction entries with
  | nil =>
      rw [entriesToValues] at member
      cases member
  | cons entry rest ih =>
      rw [entriesToValues] at member
      rcases mem_placeEntry.1 member with rfl | behind
      · exact List.mem_cons_self
      · exact List.mem_cons_of_mem _ (ih behind)

mutual

/-- The value of an item in which no table holds a key twice is ordered. -/
theorem Item.IsSound.isOrdered : ∀ {item : Item}, item.IsSound → item.toValue.IsOrdered
  | .value value, sound => by
    cases sound with
    | value ordered => rwa [Item.toValue]
  | .table origin entries, sound => by
    rw [Item.toValue]
    exact isOrdered_entriesToValues (Item.isSound_table_iff.1 sound)
  | .tables tables, sound => by
    rw [Item.toValue]
    refine .array fun item member => ?_
    exact isOrdered_tablesToValues (Item.isSound_tables_iff.1 sound) item (List.mem_reverse.1 member)

/-- Sound entries become an ordered table. -/
theorem isOrdered_entriesToValues : ∀ {entries : Entries}, Entries.IsSound entries →
    (Value.table (entriesToValues entries)).IsOrdered
  | [], _ => by
    rw [entriesToValues]
    exact .table List.Pairwise.nil nofun
  | (key, item) :: rest, sound => by
    have first := (List.forall_mem_cons.1 sound.each).1.isOrdered
    have new := (List.nodup_cons.1 sound.distinct).1
    have behind := isOrdered_entriesToValues
      ⟨(List.nodup_cons.1 sound.distinct).2, (List.forall_mem_cons.1 sound.each).2⟩
    cases behind with
    | scalar none => cases none
    | table increasing each =>
        rw [entriesToValues]
        refine .table (pairwise_placeEntry (fun other member same => ?_) increasing) fun entry member => ?_
        · have held := fst_of_mem_entriesToValues member
          rw [← same] at held
          exact new held
        · rcases mem_placeEntry.1 member with rfl | later
          · exact first
          · exact each entry later

/-- Sound tables become ordered values. -/
theorem isOrdered_tablesToValues : ∀ {tables : List Entries},
    (∀ entries ∈ tables, Entries.IsSound entries) → ∀ value ∈ tablesToValues tables, value.IsOrdered
  | [], _ => by
    rw [tablesToValues]
    exact nofun
  | entries :: rest, sound => by
    rw [tablesToValues]
    rw [List.forall_mem_cons] at sound
    exact List.forall_mem_cons.2 ⟨isOrdered_entriesToValues sound.1, isOrdered_tablesToValues sound.2⟩

end

/-! ### Changes of tables -/

/-- What changes the table at the end of a path to one without a key twice leaves no key twice. -/
theorem descend_sound {dotted : Bool} {change : Origin → Entries → Except Cause Entries}
    (changes : ∀ origin entries, Entries.IsSound entries →
      Brings Entries.IsSound (change origin entries)) (path : List String) :
    ∀ {before : List String} {origin : Origin} {entries : Entries}, Entries.IsSound entries →
      Brings Entries.IsSound (descend dotted change before path origin entries) := by
  induction path with
  | nil => exact fun sound => changes _ _ sound
  | cons key path ih =>
      intro before origin entries sound
      rw [descend]
      split
      case h_1 missing =>
        exact (ih .nil).bind fun inner new => sound.set (Item.isSound_table_iff.2 new)
      case h_2 value found => trivial
      case h_3 last earlier found =>
        obtain ⟨here, others⟩ := List.forall_mem_cons.1 (Item.isSound_tables_iff.1 (sound.get? found))
        exact (ih here).bind fun inner new =>
          sound.set (Item.isSound_tables_iff.2 (List.forall_mem_cons.2 ⟨new, others⟩))
      case h_4 found =>
        exact (ih .nil).bind fun inner new =>
          sound.set (Item.isSound_tables_iff.2 (List.forall_mem_singleton.2 new))
      case h_5 origin inner found =>
        refine .ite (fun _ => trivial) fun _ => ?_
        exact (ih (Item.isSound_table_iff.1 (sound.get? found))).bind fun inner new =>
          sound.set (Item.isSound_table_iff.2 new)

/-- Adding a sound item to sound entries keeps them sound. -/
theorem addEntry_sound {table : Option (List String)} {path : List String} {key : String} {item : Item}
    {entries : Entries} (sound : Entries.IsSound entries) (new : item.IsSound) :
    Brings Entries.IsSound (addEntry table path key item entries) := by
  refine descend_sound (fun origin entries sound => ?_) path sound
  exact .ite (fun _ => trivial) fun _ => .ite (fun _ => trivial) fun _ => sound.set new

/-- An ordered value is sound where it is written inline. -/
theorem Value.IsOrdered.isSound_ofInlineValue {value : Value} (ordered : value.IsOrdered) :
    (Item.ofInlineValue value).IsSound := by
  rw [Item.ofInlineValue.eq_def]
  split
  case h_1 entries =>
    cases ordered with
    | scalar none => cases none
    | table increasing each =>
        refine .table ?_ fun entry member => ?_
        · rw [List.map_map]
          exact (Value.IsOrdered.table increasing each).keys_nodup
        · obtain ⟨own, inside, rfl⟩ := List.mem_map.1 member
          exact .value (each own inside)
  case h_2 => exact .value ordered

/-- A table of ordered values in braces is sound. -/
theorem tableOfEntries_sound {entries : List (List String × String × Value)}
    (ordered : ∀ entry ∈ entries, entry.2.2.IsOrdered) :
    Brings Entries.IsSound (tableOfEntries entries) := by
  have adds : ∀ {table : Entries}, Entries.IsSound table → Brings Entries.IsSound (entries.foldlM
      (fun table entry => addEntry none entry.1 entry.2.1 (.ofInlineValue entry.2.2) table) table) := by
    induction entries with
    | nil => exact id
    | cons entry rest ih =>
        intro table sound
        rw [List.forall_mem_cons] at ordered
        rw [List.foldlM_cons]
        exact (addEntry_sound sound ordered.1.isSound_ofInlineValue).bind fun _ => ih ordered.2
  exact adds .nil

/-! ### Values that are read -/

/-- Whether a value that was taken is ordered. -/
abbrev OrderedFirst (taken : Value × List Char) : Prop :=
  taken.1.IsOrdered

/-- A number within its bounds is ordered. -/
theorem orderedFirst_bounded (number : Int) (text : List Char) :
    Brings Value.IsOrdered (bounded number text) := by
  unfold bounded
  exact .ite (fun _ => trivial) fun _ => .ite (fun _ => trivial) fun _ => .ok (.scalar rfl)

/-- A number with a base is ordered. -/
theorem orderedFirst_takeBased (base : Nat) (label : Label) (text : List Char) :
    Brings OrderedFirst (takeBased base label text) := by
  refine .after fun taken => ?_
  exact (orderedFirst_bounded _ text).bind fun value ordered => .ok ordered

/-- An integer is ordered. -/
theorem orderedFirst_takeInteger (text : List Char) : Brings OrderedFirst (takeInteger text) := by
  unfold takeInteger
  split
  · exact orderedFirst_takeBased 16 _ _
  · exact orderedFirst_takeBased 8 _ _
  · exact orderedFirst_takeBased 2 _ _
  · refine .after fun taken => ?_
    exact (orderedFirst_bounded _ text).bind fun value ordered => .ok ordered

/-- A float is ordered. -/
theorem orderedFirst_takeFloat? {text : List Char} {result : Except Fault (Value × List Char)}
    (taken : takeFloat? text = some result) : Brings OrderedFirst result := by
  unfold takeFloat? at taken
  dsimp only at taken
  split at taken
  case h_1 fault stops =>
    split at taken
    case isTrue => exact Option.some.inj taken ▸ trivial
    case isFalse =>
      obtain ⟨special, -, rfl⟩ := Option.map_eq_some_iff.1 taken
      exact .ok (.scalar rfl)
  case h_2 =>
    obtain ⟨tail, -, rfl⟩ := Option.map_eq_some_iff.1 taken
    refine .after fun rest => ?_
    split
    · exact .ite (fun _ => trivial) fun _ => .ok (.scalar rfl)
    · trivial

/-- A number is ordered. -/
theorem orderedFirst_takeNumber (text : List Char) : Brings OrderedFirst (takeNumber text) := by
  unfold takeNumber
  split
  · exact .map fun _ => .scalar rfl
  · cases taken : takeFloat? text with
    | none => exact orderedFirst_takeInteger text
    | some result => exact orderedFirst_takeFloat? taken

/-- A word for a scalar is ordered. -/
theorem orderedFirst_takeWord {word : String} {value : Value} (scalar : value.text?.isSome = true)
    (final : Bool) (text : List Char) : Brings OrderedFirst (takeWord word value final text) := by
  unfold takeWord
  exact .ite (fun _ => .ok (.scalar scalar)) fun _ => trivial

mutual

/-- A value that is taken is ordered. -/
theorem orderedFirst_takeValue :
    ∀ (fuel depth : Nat) (text : List Char), Brings OrderedFirst (takeValue fuel depth text)
  | 0, _, _ => by
    rw [takeValue]
    trivial
  | fuel + 1, depth, [] => by
    rw [takeValue]
    trivial
  | fuel + 1, depth, c :: rest => by
    rw [takeValue]
    refine .ite (fun _ => ?_) fun _ => .ite (fun _ => ?_) fun _ => .ite (fun _ => ?_) fun _ =>
      .ite (fun _ => ?_) fun _ => .ite (fun _ => trivial) fun _ => .ite (fun _ => ?_) fun _ =>
      .ite (fun _ => ?_) fun _ => .ite (fun _ => ?_) fun _ => .ite (fun _ => ?_) fun _ => trivial
    · exact .map fun _ => .scalar rfl
    · refine .ite (fun _ => trivial) fun _ => .ite (fun _ => ?_) fun _ => ?_
      · refine (ordered_takeItems fuel (depth + 1) rest).bind ?_
        intro (items, after) each
        dsimp only
        split
        · exact .ok (.array each)
        · trivial
      · refine (ordered_takeInlineEntries fuel (depth + 1) rest).bind ?_
        intro (entries, after) each
        dsimp only
        have whole := tableOfEntries_sound each
        split
        case h_1 => trivial
        case h_2 table made =>
          have ordered := isOrdered_entriesToValues (whole.of_ok made)
          split
          · exact .ite (fun _ => .ok ordered) fun _ => trivial
          · trivial
    · exact orderedFirst_takeNumber _
    · exact (orderedFirst_takeInteger _).mapError
    all_goals exact orderedFirst_takeWord rfl _ _

/-- The items of an array are ordered. -/
theorem ordered_takeItems : ∀ (fuel depth : Nat) (text : List Char),
    Brings (fun taken => ∀ item ∈ taken.1, item.IsOrdered) (takeItems fuel depth text)
  | 0, _, _ => by
    rw [takeItems]
    exact .ok nofun
  | fuel + 1, depth, text => by
    have item : Brings OrderedFirst (do
        let start ← skipFiller (text.length + 1) text
        let (item, rest) ← takeValue fuel depth start
        return (item, ← skipFiller (rest.length + 1) rest)) := by
      refine .after fun start => ?_
      refine (orderedFirst_takeValue fuel depth start).bind fun taken ordered => ?_
      exact .after fun rest => .ok ordered
    rw [takeItems]
    dsimp only
    split
    case h_1 => exact .ite (fun _ => trivial) fun _ => .mapError (.map fun _ => nofun)
    case h_2 first rest taken =>
      refine (ordered_takeItems fuel depth rest).bind fun more each => ?_
      exact .ok (List.forall_mem_cons.2 ⟨item.of_ok taken, each⟩)
    case h_3 first rest _ taken =>
      exact .ok (List.forall_mem_singleton.2 (item.of_ok taken))

/-- The values of the entries of an inline table are ordered. -/
theorem ordered_takeInlineEntries : ∀ (fuel depth : Nat) (text : List Char),
    Brings (fun taken => ∀ entry ∈ taken.1, entry.2.2.IsOrdered) (takeInlineEntries fuel depth text)
  | 0, _, _ => by
    rw [takeInlineEntries]
    exact .ok nofun
  | fuel + 1, depth, text => by
    rw [takeInlineEntries]
    split
    case h_1 => exact .ite (fun _ => trivial) fun _ => .ok nofun
    case h_2 path key rest taken =>
      refine .after fun rest => ?_
      refine (orderedFirst_takeValue fuel depth rest).mapError.bind fun value ordered => ?_
      dsimp only
      split
      · refine (ordered_takeInlineEntries fuel depth _).bind fun more each => ?_
        exact .ok (List.forall_mem_cons.2 ⟨ordered, each⟩)
      · exact .ok (List.forall_mem_singleton.2 ordered)

end

/-! ### Documents -/

/-- Whether neither the complete tables of a document nor the one that is read hold a key twice. -/
structure Reading.IsSound (reading : Reading) : Prop where
  root : Entries.IsSound reading.root
  current : Entries.IsSound reading.current

namespace Reading.IsSound

variable {reading : Reading}

theorem start : Reading.start.IsSound :=
  ⟨.nil, .nil⟩

theorem add (sound : reading.IsSound) (path : List String) (key : String) {value : Value}
    (ordered : value.IsOrdered) : Brings Reading.IsSound (reading.add path key value) :=
  (addEntry_sound sound.current (.value ordered)).bind fun _ new => .ok ⟨sound.root, new⟩

/-- What a sound reading ends with is sound. -/
theorem finish (sound : reading.IsSound) : Brings Entries.IsSound reading.finish := by
  rw [Reading.finish]
  split
  case h_1 => exact .ok sound.current
  case h_2 key last =>
    have complete : ∀ origin, (Item.table origin reading.current).IsSound :=
      fun _ => Item.isSound_table_iff.2 sound.current
    refine descend_sound (fun _ entries here => ?_) _ sound.root
    split
    case h_1 =>
      refine .ok (here.set ?_)
      split
      · exact Item.isSound_tables_iff.2 (List.forall_mem_singleton.2 sound.current)
      · exact complete _
    case h_2 tables found =>
      refine .ite (fun _ => .ok (here.set (Item.isSound_tables_iff.2 ?_))) fun _ => trivial
      exact List.forall_mem_cons.2 ⟨sound.current, Item.isSound_tables_iff.1 (here.get? found)⟩
    case h_3 => trivial
    case h_4 => exact .ite (fun _ => trivial) fun _ => .ok (here.set (complete _))
    case h_5 => trivial

/-- A table that is looked up among sound entries is sound. -/
theorem lookup {path : List String} : ∀ {entries inner : Entries}, Entries.IsSound entries →
    Reading.startTable.lookup path entries = some inner → Entries.IsSound inner := by
  induction path with
  | nil =>
      intro entries inner sound found
      rw [Reading.startTable.lookup] at found
      exact Option.some.inj found ▸ sound
  | cons key path ih =>
      intro entries inner sound found
      rw [Reading.startTable.lookup] at found
      split at found
      case h_1 origin table here =>
        exact ih (Item.isSound_table_iff.1 (sound.get? here)) found
      case h_2 last earlier here =>
        have each := Item.isSound_tables_iff.1 (sound.get? here)
        exact ih (each last List.mem_cons_self) found
      case h_3 => cases found

/-- Starting a table keeps the reading sound. -/
theorem startTable (sound : reading.IsSound) (parent : List String) (key : String) :
    Brings Reading.IsSound (reading.startTable parent key) := by
  refine sound.finish.bind fun root whole => .after fun _ => .ok ⟨whole, ?_⟩
  cases found : (Reading.startTable.lookup parent root).bind _ with
  | none => exact .nil
  | some current =>
      obtain ⟨entries, there, inside⟩ := Option.bind_eq_some_iff.1 found
      have table := lookup whole there
      split at inside
      case h_1 inner here =>
        obtain rfl := Option.some.inj inside
        exact Item.isSound_table_iff.1 (table.get? here)
      case h_2 => cases inside

/-- Starting a table of a list keeps the reading sound. -/
theorem startListTable (sound : reading.IsSound) (parent : List String) (key : String) :
    Brings Reading.IsSound (reading.startListTable parent key) := by
  refine sound.finish.bind fun root whole => ?_
  refine (descend_sound (fun _ entries here => ?_) parent whole).bind fun _ new => .ok ⟨new, .nil⟩
  split
  · exact .ok (here.set (Item.isSound_tables_iff.2 nofun))
  · exact .ok here
  · trivial

/-- An entry of a document is added. -/
theorem readEntry (sound : reading.IsSound) (text : List Char) :
    Brings (·.1.IsSound) (readEntry text reading) := by
  refine .after fun key => .after fun rest => ?_
  refine (orderedFirst_takeValue (rest.length + 1) 0 rest).bind fun taken ordered => ?_
  refine .after fun rest => ?_
  have adds := sound.add key.1.1 key.1.2 ordered
  split
  case h_1 next added => exact .ok (adds.of_ok added)
  case h_2 => trivial

/-- A header of a document starts a table. -/
theorem readHeader (sound : reading.IsSound) (text : List Char) :
    Brings (·.1.IsSound) (readHeader text reading) := by
  refine .mapError (.ite (fun _ => trivial) fun _ => ?_)
  refine .after fun key => ?_
  dsimp only
  refine .ite (fun _ => trivial) fun _ => .after fun rest => ?_
  split
  case h_1 next started =>
    split at started
    · exact .ok ((sound.startListTable key.1.1 key.1.2).of_ok started)
    · exact .ok ((sound.startTable key.1.1 key.1.2).of_ok started)
  case h_2 => trivial

/-- Reading lines keeps the reading sound. -/
theorem readLines : ∀ (fuel : Nat) (text : List Char) {reading : Reading}, reading.IsSound →
    Brings Reading.IsSound (readLines fuel text reading) := by
  intro fuel
  induction fuel with
  | zero =>
      intro text reading sound
      rw [Toml.readLines]
      exact .ok sound
  | succ fuel ih =>
      intro text reading sound
      rw [Toml.readLines]
      dsimp only
      split
      case h_1 => exact .ok sound
      case h_2 c _ _ =>
        refine .ite (fun _ => ?_) fun _ => .ite (fun _ => ?_) fun _ => .ite (fun _ => ?_) fun _ => ?_
        · split
          · exact ih _ sound
          · exact .ok sound
          · trivial
        · exact (sound.readHeader _).bind fun next here => ih next.2 here
        · split
          · exact ih _ sound
          · trivial
        · exact (sound.readEntry _).bind fun next here => ih next.2 here

end Reading.IsSound

/-- The entries of all tables in a document are in increasing order of their keys. -/
theorem isOrdered_parse {text : String} {entries : List (String × Value)}
    (parsed : parse text = .ok entries) : (Value.table entries).IsOrdered := by
  have ordered : Brings (fun entries => (Value.table entries).IsOrdered) (parse text) := by
    refine (Reading.IsSound.start.readLines _ _).bind fun reading sound => ?_
    have whole := sound.finish
    split
    case h_1 root done => exact .ok (isOrdered_entriesToValues (whole.of_ok done))
    case h_2 => trivial
  exact ordered.of_ok parsed

end DocPress.Toml
