import DocPress.Config.Load
import DocPress.Proofs.Config.Restate
import DocPress.Proofs.Toml.Order

/-!
Configurations in layers. A configuration that is in a file alone is also what the file and no variables
give, as the settings of the file are put together again as they were. There are two exceptions: a key
of the file that is a path into a section changes the section, and a date is no section.
-/

namespace DocPress

/-! ### Putting settings together -/

namespace Setting

variable {name other : String} {f : Setting → Setting} {base entries : List (String × Setting)}
  {source : Option String}

theorem valueOf?_changeEntry_self : valueOf? name (changeEntry name f base) =
    some (f ((valueOf? name base).getD .absent)) := by
  induction base with
  | nil => rw [changeEntry, valueOf?_cons, if_pos rfl, valueOf?, List.find?_nil, Option.map_none,
      Option.getD_none]
  | cons entry rest ih =>
      obtain ⟨key, value⟩ := entry
      rw [changeEntry, valueOf?_cons]
      by_cases here : key = name
      · rw [if_pos here, if_pos here, valueOf?_cons, if_pos rfl, Option.getD_some]
      · rw [if_neg here, if_neg here, valueOf?_cons, if_neg here, ih]

theorem valueOf?_changeEntry_of_ne (apart : other ≠ name) :
    valueOf? other (changeEntry name f base) = valueOf? other base := by
  induction base with
  | nil => rw [changeEntry, valueOf?_cons, if_neg apart.symm]
  | cons entry rest ih =>
      obtain ⟨key, value⟩ := entry
      rw [changeEntry]
      split
      case isTrue here =>
        obtain rfl : key = name := here
        rw [valueOf?_cons, valueOf?_cons, if_neg apart.symm, if_neg apart.symm]
      case isFalse => rw [valueOf?_cons, valueOf?_cons, ih]

theorem changeEntry_of_not_mem (new : name ∉ base.map (·.1)) :
    changeEntry name f base = base ++ [(name, f .absent)] := by
  induction base with
  | nil => rw [changeEntry, List.nil_append]
  | cons entry rest ih =>
      obtain ⟨apart, behind⟩ := not_or.1 (List.mem_cons.not.1 new)
      rw [changeEntry, if_neg (Ne.symm apart), ih behind, List.cons_append]

theorem onTop_of_ne_table {setting : Setting} (below : Setting)
    (other : ∀ entries source, setting ≠ .table entries source) : onTop setting below = setting := by
  cases setting with
  | table entries source => exact absurd rfl (other entries source)
  | _ => rw [onTop]; exact nofun

/-- Entries with keys of their own are put behind those that are there. -/
theorem entriesOver_of_distinct (distinct : ((base ++ entries).map (·.1)).Nodup) :
    entriesOver entries (.table base source) =
      .table (base ++ entries.map fun entry => (entry.1, onTop entry.2 .absent)) source := by
  induction entries generalizing base with
  | nil => rw [entriesOver, List.map_nil, List.append_nil]
  | cons entry rest ih =>
      obtain ⟨key, value⟩ := entry
      rw [List.map_append, List.map_cons] at distinct
      have new : key ∉ base.map (·.1) := fun held =>
        (List.nodup_append.1 distinct).2.2 key held key List.mem_cons_self rfl
      rw [entriesOver, changeKey, changeEntry_of_not_mem new, ih, List.map_cons, List.append_assoc,
        List.singleton_append]
      rwa [List.append_assoc, List.map_append]

/-! ### Paths -/

/-- The path that a key of a file is. -/
def pathOf (key : String) : List SettingStep :=
  (readPath? key.toList).getD [.key key]

/-- Only nothing is read as no steps. -/
theorem takeSteps_eq_nil {fuel : Nat} {text : List Char} (none : takeSteps fuel text = some []) :
    text = [] := by
  rw [takeSteps.eq_def] at none
  split at none
  · rfl
  · cases none
  · obtain ⟨taken, -, none⟩ := Option.bind_eq_some_iff.1 none
    obtain ⟨steps, -, none⟩ := Option.bind_eq_some_iff.1 none
    cases none
  · obtain ⟨taken, -, none⟩ := Option.bind_eq_some_iff.1 none
    obtain ⟨steps, -, none⟩ := Option.bind_eq_some_iff.1 none
    cases none
  · cases none

/-- A path is a key and the steps behind it. -/
theorem readPath?_eq_some {text : List Char} {path : List SettingStep}
    (read : readPath? text = some path) : ∃ head steps rest, takeKey text = some (head, rest) ∧
      takeSteps rest.length rest = some steps ∧ path = .key head :: steps := by
  obtain ⟨⟨head, rest⟩, key, read⟩ := Option.bind_eq_some_iff.1 read
  obtain ⟨steps, more, read⟩ := Option.bind_eq_some_iff.1 read
  exact ⟨head, steps, rest, key, more, (Option.some.inj read).symm⟩

/-- The path of a key begins with a key. -/
theorem exists_pathOf (key : String) : ∃ head steps, pathOf key = .key head :: steps := by
  rw [pathOf]
  cases read : readPath? key.toList with
  | none => exact ⟨key, [], rfl⟩
  | some path =>
      obtain ⟨head, steps, rest, -, -, rfl⟩ := readPath?_eq_some read
      exact ⟨head, steps, rfl⟩

/-- A path of one step is the key itself. -/
theorem eq_of_pathOf {key : String} (single : pathOf key = [.key name]) : key = name := by
  rw [pathOf] at single
  cases read : readPath? key.toList with
  | none =>
      rw [read] at single
      exact SettingStep.key.inj (List.cons.inj single).1
  | some path =>
      rw [read] at single
      obtain ⟨head, steps, rest, taken, more, rfl⟩ := readPath?_eq_some read
      obtain ⟨same, rfl⟩ := List.cons.inj single
      obtain rfl := SettingStep.key.inj same
      obtain rfl := takeSteps_eq_nil more
      rw [takeKey] at taken
      split at taken
      case isTrue => cases taken
      case isFalse =>
        obtain ⟨named, none⟩ := Prod.mk.inj (Option.some.inj taken)
        have whole := List.takeWhile_append_dropWhile (p := isKeyChar) (l := key.toList)
        rw [none, List.append_nil] at whole
        rw [← named, whole, String.ofList_toList]

/-- Putting a value into a table changes the entry at the head of its path. -/
theorem put_table {key head : String} {steps : List SettingStep} {value : Setting}
    (path : pathOf key = .key head :: steps) :
    put (.table base source) key value =
      .table (changeEntry head (change steps (onTop value)) base) source := by
  rw [put, ← pathOf, path, change, changeKey]

/-- The setting under a key of a table. -/
def under? (name : String) : Setting → Option Setting
  | .table entries _ => valueOf? name entries
  | _ => none

theorem exists_putAll (base entries : List (String × Setting)) (source : Option String) :
    ∃ after, putAll entries (.table base source) = .table after source := by
  induction entries generalizing base with
  | nil => exact ⟨base, rfl⟩
  | cons entry rest ih =>
      obtain ⟨head, steps, path⟩ := exists_pathOf entry.1
      rw [putAll, List.foldl_cons, put_table path]
      exact ih _

/-- Settings whose paths start at other keys leave what is under a key. -/
theorem under?_putAll_of_forall_ne
    (apart : ∀ entry ∈ entries, ∀ steps, pathOf entry.1 ≠ .key name :: steps) :
    (putAll entries (.table base source)).under? name = valueOf? name base := by
  induction entries generalizing base with
  | nil => rfl
  | cons entry rest ih =>
      rw [List.forall_mem_cons] at apart
      obtain ⟨head, steps, path⟩ := exists_pathOf entry.1
      have other : name ≠ head := fun same => apart.1 steps (same ▸ path)
      rw [putAll, List.foldl_cons, put_table path, ← putAll, ih apart.2,
        valueOf?_changeEntry_of_ne other]

/-- What is under a key of a file is what is put there, if no path leads into it. -/
theorem under?_putAll (plain : pathOf name = [.key name]) (distinct : (entries.map (·.1)).Nodup)
    (direct : ∀ entry ∈ entries, ∀ step steps, pathOf entry.1 ≠ .key name :: step :: steps)
    (free : valueOf? name base = none) :
    (putAll entries (.table base source)).under? name =
      (valueOf? name entries).map (onTop · .absent) := by
  induction entries generalizing base with
  | nil => exact free
  | cons entry rest ih =>
      obtain ⟨key, value⟩ := entry
      obtain ⟨new, distinct⟩ := List.nodup_cons.1 distinct
      rw [List.forall_mem_cons] at direct
      obtain ⟨head, steps, path⟩ := exists_pathOf key
      rw [putAll, List.foldl_cons, put_table path, ← putAll, valueOf?_cons]
      by_cases here : head = name
      · subst here
        -- Only this entry leads to the key, as all others have other keys.
        obtain rfl : steps = [] := by
          cases steps with
          | nil => rfl
          | cons step steps => exact absurd path (direct.1 step steps)
        obtain rfl := eq_of_pathOf path
        rw [if_pos rfl, under?_putAll_of_forall_ne, valueOf?_changeEntry_self, free, change,
          Option.getD_none, Option.map_some]
        intro other member steps there
        cases steps with
        | nil => exact new (List.mem_map.2 ⟨other, member, eq_of_pathOf there⟩)
        | cons step steps => exact direct.2 other member step steps there
      · have elsewhere : key ≠ name := by
          rintro rfl
          rw [plain] at path
          exact here (SettingStep.key.inj (List.cons.inj path).1).symm
        rw [if_neg elsewhere, ih distinct direct.2]
        rw [valueOf?_changeEntry_of_ne (Ne.symm here), free]

/-! ### Settings of a file -/

/-- The settings of a table are made entry by entry. -/
theorem ofTomlEntries_eq_map (datesAreTexts : Bool) (source : Option String)
    (entries : List (String × Toml.Value)) : ofTomlEntries datesAreTexts source entries =
      entries.map fun entry => (entry.1, ofToml datesAreTexts source entry.2) := by
  induction entries with
  | nil => rw [ofTomlEntries, List.map_nil]
  | cons entry rest ih => rw [ofTomlEntries, ih, List.map_cons]

/-- The setting of a name is made from the value of that name. -/
theorem valueOf?_ofTomlEntries (datesAreTexts : Bool) (source : Option String) (name : String)
    (entries : List (String × Toml.Value)) :
    valueOf? name (ofTomlEntries datesAreTexts source entries) =
      (valueOf? name entries).map (ofToml datesAreTexts source) := by
  rw [ofTomlEntries_eq_map, valueOf?, valueOf?, List.find?_map, Option.map_map, Option.map_map]
  rfl

/-- The settings have the names of the values. -/
theorem keys_ofTomlEntries (datesAreTexts : Bool) (source : Option String)
    (entries : List (String × Toml.Value)) :
    (ofTomlEntries datesAreTexts source entries).map (·.1) = entries.map (·.1) := by
  rw [ofTomlEntries_eq_map, List.map_map]
  rfl

mutual

/-- A value without a date, read on its own, is restated by the value read as a layer. -/
theorem restates_ofToml (source : Option String) :
    ∀ value : Toml.Value, (ofToml false none value).Restates (ofToml true source value)
  | .string _ => by
    rw [ofToml, ofToml]
    exact .text
  | .integer _ => by
    rw [ofToml, ofToml]
    exact .integer
  | .float _ => by
    rw [ofToml, ofToml]
    exact .float
  | .boolean _ => by
    rw [ofToml, ofToml]
    exact .flag
  | .moment _ => by
    rw [ofToml, ofToml]
    exact .moment
  | .array items => by
    rw [ofToml, ofToml]
    exact .list (restates_ofTomlItems source items)
  | .table entries => by
    rw [ofToml, ofToml]
    exact .table (restates_ofTomlEntries source entries)

/-- Items read on their own are restated by those read as a layer. -/
theorem restates_ofTomlItems (source : Option String) : ∀ items : List Toml.Value,
    List.Forall₂ Restates (ofTomlItems false none items) (ofTomlItems true source items)
  | [] => by
    rw [ofTomlItems, ofTomlItems]
    exact .nil
  | item :: rest => by
    rw [ofTomlItems, ofTomlItems]
    exact .cons (restates_ofToml source item) (restates_ofTomlItems source rest)

/-- Entries read on their own are restated by those read as a layer. -/
theorem restates_ofTomlEntries (source : Option String) : ∀ entries : List (String × Toml.Value),
    Entrywise Restates (ofTomlEntries false none entries) (ofTomlEntries true source entries)
  | [] => by
    rw [ofTomlEntries, ofTomlEntries]
    exact .nil
  | (key, value) :: rest => by
    rw [ofTomlEntries, ofTomlEntries]
    exact .cons (restates_ofToml source value) (restates_ofTomlEntries source rest)

end

/-- A table of a file that is put where nothing is has its entries, put where nothing is. -/
theorem onTop_ofToml_table (source : Option String) {values : List (String × Toml.Value)}
    (ordered : (Toml.Value.table values).IsOrdered) :
    onTop (ofToml true source (.table values)) .absent =
      .table ((ofTomlEntries true source values).map fun entry => (entry.1, onTop entry.2 .absent)) none := by
  rw [ofToml, onTop]
  · refine entriesOver_of_distinct ?_
    rw [List.nil_append, keys_ofTomlEntries]
    exact ordered.keys_nodup
  · exact nofun

mutual

/-- A value of a file is restated when it is put where nothing is. -/
theorem restates_onTop (source : Option String) : ∀ {value : Toml.Value}, value.IsOrdered →
    (ofToml false none value).Restates (onTop (ofToml true source value) .absent)
  | .table entries, ordered => by
    rw [ofToml, onTop_ofToml_table source ordered]
    exact .table (restates_entriesOnTop source fun entry member => ordered.of_mem member)
  | .string _, _ | .integer _, _ | .float _, _ | .boolean _, _ | .moment _, _ | .array _, _ => by
    rw [onTop_of_ne_table _ (by rw [ofToml]; exact nofun)]
    exact restates_ofToml source _

/-- Entries read on their own are restated by those put on top of nothing. -/
theorem restates_entriesOnTop (source : Option String) : ∀ {entries : List (String × Toml.Value)},
    (∀ entry ∈ entries, entry.2.IsOrdered) → Entrywise Restates (ofTomlEntries false none entries)
      ((ofTomlEntries true source entries).map fun entry => (entry.1, onTop entry.2 .absent))
  | [], _ => by
    rw [ofTomlEntries, ofTomlEntries]
    exact .nil
  | (key, value) :: rest, ordered => by
    rw [List.forall_mem_cons] at ordered
    rw [ofTomlEntries, ofTomlEntries]
    exact .cons (restates_onTop source ordered.1) (restates_entriesOnTop source ordered.2)

end

end Setting

/-! ### Configurations -/

namespace Config

open Setting (Agree Group Restates RestatesUndated typed converted under? pathOf)

variable {entries entries' : List (String × Setting)} {source source' : Option String} {config : Config}

/-- The sections that say something when nothing is in them. -/
def plainSections : List String :=
  ["content", "cache", "metadata"]

/-- The sections of a configuration. -/
def sections : List String :=
  "backends" :: plainSections

/-- The group in a table that is a configuration. -/
def rootGroup (entries : List (String × Setting)) : Group :=
  ⟨"struct Config", ["content", "cache", "metadata", "backends"],
    entries.map fun entry => (entry.1, .key entry.1, entry.2), none⟩

theorem setting?_rootGroup (entries : List (String × Setting)) (name : String) :
    (rootGroup entries).setting? name = valueOf? name entries :=
  Setting.setting?_table name

/-- A configuration that is read with types is read where its sections are restated, if none of those
that may be empty is a date. -/
theorem ofSetting_converted
    (backends : Option.Rel Restates (valueOf? "backends" entries) (valueOf? "backends" entries'))
    (others : ∀ name ∈ plainSections,
      Option.Rel RestatesUndated (valueOf? name entries) (valueOf? name entries'))
    (done : ofSetting typed (.table entries source) = .ok config) :
    ofSetting converted (.table entries' source') = .ok config := by
  simp only [plainSections, List.forall_mem_cons, List.not_mem_nil, false_implies, implies_true,
    and_true, ← setting?_rootGroup] at backends others
  obtain ⟨content, cache, metadata⟩ := others
  obtain ⟨root, made, done⟩ := bind_eq_ok_iff.1 done
  obtain rfl := Except.ok.inj made
  obtain ⟨readBackends, one, done⟩ := bind_eq_ok_iff.1 done
  obtain ⟨readCache, two, done⟩ := bind_eq_ok_iff.1 done
  obtain ⟨readContent, three, done⟩ := bind_eq_ok_iff.1 done
  obtain ⟨readMetadata, four, done⟩ := bind_eq_ok_iff.1 done
  refine bind_eq_ok_iff.2 ⟨_, rfl, ?_⟩
  refine bind_eq_ok_iff.2 ⟨readBackends, Group.agree_read?
    (Setting.agree_readCatalog Backend.agree_ofSetting nofun) backends one, ?_⟩
  refine bind_eq_ok_iff.2 ⟨readCache, Group.agree_read? (Setting.agree_group ?_) cache two, ?_⟩
  · exact fun group group' value same read => Group.agree_read? Setting.agree_text (same _) read
  refine bind_eq_ok_iff.2 ⟨readContent, Group.agree_read? (Setting.agree_group ?_) content three, ?_⟩
  · intro group group' value same read
    obtain ⟨dir, first, read⟩ := bind_eq_ok_iff.1 read
    obtain ⟨extension, second, read⟩ := bind_eq_ok_iff.1 read
    refine bind_eq_ok_iff.2 ⟨dir, Group.agree_read? Setting.agree_text (same _) first, ?_⟩
    exact bind_eq_ok_iff.2 ⟨extension, Group.agree_read? Setting.agree_text (same _) second, read⟩
  refine bind_eq_ok_iff.2 ⟨readMetadata, Group.agree_read? (Setting.agree_group ?_) metadata four, done⟩
  intro group group' value same read
  obtain ⟨strict, first, read⟩ := bind_eq_ok_iff.1 read
  obtain ⟨fields, second, read⟩ := bind_eq_ok_iff.1 read
  refine bind_eq_ok_iff.2 ⟨strict, Group.agree_read? Setting.agree_flag (same _) first, ?_⟩
  exact bind_eq_ok_iff.2 ⟨fields, Group.agree_read?
    (Setting.agree_readList FieldSpec.agree_ofSetting) (same _) second, read⟩

/-- A text is no section. -/
theorem ne_text_of_ofSetting {typing : Setting.Typing}
    (done : ofSetting typing (.table entries source) = .ok config) :
    ∀ name ∈ plainSections, ∀ value from_, valueOf? name entries ≠ some (.text value from_) := by
  simp only [plainSections, List.forall_mem_cons, List.not_mem_nil, false_implies, implies_true,
    and_true, ← setting?_rootGroup]
  obtain ⟨root, made, done⟩ := bind_eq_ok_iff.1 done
  obtain rfl := Except.ok.inj made
  obtain ⟨_, -, done⟩ := bind_eq_ok_iff.1 done
  obtain ⟨_, cache, done⟩ := bind_eq_ok_iff.1 done
  obtain ⟨_, content, done⟩ := bind_eq_ok_iff.1 done
  obtain ⟨_, metadata, -⟩ := bind_eq_ok_iff.1 done
  exact ⟨fun _ _ => Group.ne_text_of_read? content, fun _ _ => Group.ne_text_of_read? cache,
    fun _ _ => Group.ne_text_of_read? metadata⟩

/-- What was read is checked. -/
theorem checked_eq_ok_iff (read : Except SettingError Config) (wrap : SettingError → ConfigError) :
    (match read with
      | .error error => Except.error (wrap error)
      | .ok own => own.checked) = .ok config ↔ read = .ok config ∧ config.validate = .ok () := by
  cases read with
  | error fault => exact ⟨nofun, nofun⟩
  | ok own =>
      dsimp only
      rw [checked]
      constructor
      · intro done
        split at done
        case h_1 valid =>
          obtain rfl := Except.ok.inj done
          exact ⟨rfl, valid⟩
        case h_2 => cases done
      · rintro ⟨same, valid⟩
        obtain rfl := Except.ok.inj same
        rw [valid]

/-- A configuration is parsed when its settings are read and it is valid. -/
theorem parse_eq_ok_iff {path text : String} {values : List (String × Toml.Value)}
    (parsed : Toml.parse text = .ok values) : parse path text = .ok config ↔
      ofSetting typed (.table (Setting.ofTomlEntries false none values) none) = .ok config ∧
        config.validate = .ok () := by
  rw [parse, parsed]
  dsimp only
  rw [Setting.ofToml]
  exact checked_eq_ok_iff _ fun _ => .refused (.unreadable path)

/-- Without variables, a configuration is what the settings of the file are together. -/
theorem ofLayers_eq_ok_iff {fileName text : String} {values : List (String × Toml.Value)}
    {assignments : List (String × String)} (parsed : Toml.parse text = .ok values)
    (unset : ∀ assignment ∈ assignments, settingOf? assignment = none) :
    ofLayers (some (fileName, text)) assignments = .ok config ↔
      ofSetting converted ((Setting.table [] none).putAll
        (Setting.ofTomlEntries true (some fileName) values)) = .ok config ∧
      config.validate = .ok () := by
  have file : fileSettings (some (fileName, text)) =
      .ok (Setting.ofTomlEntries true (some fileName) values) := by
    rw [fileSettings, parsed]
  rw [ofLayers, file, List.filterMap_eq_nil_iff.2 unset]
  refine Iff.trans (checked_eq_ok_iff (ofSetting converted ((Setting.table [] none).putAll
    (Setting.ofTomlEntries true (some fileName) values ++ []))) .setting) ?_
  rw [List.append_nil]

/-- What is a date with a type and a text otherwise is a date of a file. -/
theorem exists_moment_of_onTop {value : Toml.Value} {source : Option String} (ordered : value.IsOrdered)
    (date : (Setting.ofToml false none value).IsMoment)
    (text : ∃ own from_, Setting.onTop (.ofToml true source value) .absent = .text own from_) :
    ∃ moment, value = .moment moment := by
  obtain ⟨own, inner, from_, date⟩ := date
  cases value with
  | moment moment => exact ⟨moment, rfl⟩
  | table entries =>
      obtain ⟨own, from_, text⟩ := text
      rw [Setting.onTop_ofToml_table source ordered] at text
      cases text
  | _ =>
      rw [Setting.ofToml] at date
      cases date

/-- Whether a key of a file is a path of several steps into a section. -/
def leadsInto (key : String) : Bool :=
  match Setting.readPath? key.toList with
  | some (.key part :: _ :: _) => sections.contains part
  | _ => false

/-- A key that leads into no section is not a path into one of them. -/
theorem pathOf_ne_of_leadsInto {key name : String} (direct : leadsInto key = false)
    (listed : name ∈ sections) (step : SettingStep) (steps : List SettingStep) :
    pathOf key ≠ .key name :: step :: steps := by
  intro path
  rw [pathOf] at path
  cases read : Setting.readPath? key.toList with
  | none =>
      rw [read] at path
      cases path
  | some own =>
      rw [read] at path
      obtain rfl : own = _ := path
      rw [leadsInto, read] at direct
      exact Bool.false_ne_true (direct.symm.trans (List.contains_iff_mem.2 listed))

theorem pathOf_section {name : String} (listed : name ∈ sections) : pathOf name = [.key name] := by
  have plain : ∀ name ∈ sections, pathOf name = [.key name] := by decide
  exact plain name listed

/-- The settings that a file gives without variables have its sections. -/
theorem under?_putAll_ofTomlEntries {values : List (String × Toml.Value)} {name : String}
    (ordered : (Toml.Value.table values).IsOrdered)
    (direct : ∀ entry ∈ values, leadsInto entry.1 = false) (listed : name ∈ sections)
    (source : Option String) :
    ((Setting.table [] none).putAll (Setting.ofTomlEntries true source values)).under? name =
      (valueOf? name values).map fun value => Setting.onTop (.ofToml true source value) .absent := by
  rw [Setting.under?_putAll (pathOf_section listed), Setting.valueOf?_ofTomlEntries, Option.map_map]
  · rfl
  · rw [Setting.keys_ofTomlEntries]
    exact ordered.keys_nodup
  · intro entry member
    rw [Setting.ofTomlEntries_eq_map] at member
    obtain ⟨own, inside, rfl⟩ := List.mem_map.1 member
    exact pathOf_ne_of_leadsInto (direct own inside) listed
  · rfl

/-- A configuration that is accepted in the text of a file alone is what the file gives where variables
may be set and none is, unless a section is a date. No key of the file may be a path into a section. -/
theorem ofLayers_eq_parse_iff {path fileName text : String} {values : List (String × Toml.Value)}
    {assignments : List (String × String)} (parsed : Toml.parse text = .ok values)
    (loaded : parse path text = .ok config)
    (unset : ∀ assignment ∈ assignments, settingOf? assignment = none)
    (direct : ∀ entry ∈ values, leadsInto entry.1 = false) :
    ofLayers (some (fileName, text)) assignments = .ok config ↔
      ∀ name ∈ plainSections, ∀ moment, (name, Toml.Value.moment moment) ∉ values := by
  have ordered := Toml.isOrdered_parse parsed
  obtain ⟨typed, valid⟩ := (parse_eq_ok_iff parsed).1 loaded
  obtain ⟨after, stored⟩ := Setting.exists_putAll []
    (Setting.ofTomlEntries true (some fileName) values) none
  have found {name : String} (listed : name ∈ sections) : valueOf? name after =
      (valueOf? name values).map fun value => .onTop (.ofToml true (some fileName) value) .absent := by
    rw [← under?_putAll_ofTomlEntries ordered direct listed, stored, under?]
  rw [ofLayers_eq_ok_iff parsed unset, stored]
  constructor
  · intro done name listed moment member
    refine ne_text_of_ofSetting done.1 name listed moment.text (some fileName) ?_
    rw [found (List.mem_cons_of_mem _ listed), valueOf?_of_mem ordered.keys_nodup member]
    rfl
  · intro undated
    refine ⟨ofSetting_converted ?_ (fun name listed => ?_) typed, valid⟩
    · rw [Setting.valueOf?_ofTomlEntries, found List.mem_cons_self]
      exact rel_map fun value here => Setting.restates_onTop _ (ordered.of_mem (mem_of_valueOf? here))
    · rw [Setting.valueOf?_ofTomlEntries, found (List.mem_cons_of_mem _ listed)]
      refine rel_map fun value here => ?_
      have member := mem_of_valueOf? here
      refine ⟨Setting.restates_onTop _ (ordered.of_mem member), fun date => ?_⟩
      obtain ⟨moment, rfl⟩ := exists_moment_of_onTop (ordered.of_mem member) date.1 date.2
      exact undated name listed moment member

/-- The text of a file with a date and with a section. -/
def notesFile : String :=
  "since = 2020-01-01\n\n[content]\ndir = \"notes\"\n"

/-- A file that names another content directory, read the same beside the variables of a shell. -/
theorem ofLayers_eq_parse_notes : ∃ config, parse "folio.toml" notesFile = .ok config ∧
    config.contentDir = "notes" ∧ settingOf? ("HOME", "/") = none ∧
    ofLayers (some ("folio.toml", notesFile)) [("HOME", "/")] = .ok config := by
  obtain ⟨values, parsed, checks⟩ : ∃ values, Toml.parse notesFile = .ok values ∧
      (values.all fun entry => !leadsInto entry.1 &&
        (entry.1 == "since" || entry.2.typeName != "datetime")) = true :=
    exists_ok_of_any (by decide +kernel)
  obtain ⟨config, loaded, dir⟩ : ∃ config, parse "folio.toml" notesFile = .ok config ∧
      (config.contentDir == "notes") = true := exists_ok_of_any (by decide +kernel)
  have unset : settingOf? ("HOME", "/") = none := by decide +kernel
  simp only [List.all_eq_true, Bool.and_eq_true, Bool.or_eq_true, Bool.not_eq_true',
    beq_iff_eq, bne_iff_ne] at checks
  refine ⟨config, loaded, beq_iff_eq.1 dir, unset, (ofLayers_eq_parse_iff parsed loaded
    (List.forall_mem_singleton.2 unset) fun entry member => (checks entry member).1).2 ?_⟩
  intro name listed moment member
  rcases (checks _ member).2 with rfl | other
  · exact absurd listed (by decide)
  · exact other rfl

/-- The text of a file with a key that is a path. -/
def pathFile : String :=
  "\"content.dir\" = \"notes\"\n"

/-- The text of a file with a date in the place of a section. -/
def dateFile : String :=
  "content = 2020-01-01\n"

/-- A key that is a path is no setting of a file alone, but changes a section where variables may be set;
a date is a section with nothing in it in a file alone, but refused where variables may be set. -/
theorem ofLayers_ne_parse :
    (∃ config layered, parse "folio.toml" pathFile = .ok config ∧ config.contentDir = "data/blog" ∧
      ofLayers (some ("folio.toml", pathFile)) [] = .ok layered ∧ layered.contentDir = "notes") ∧
    ∃ config, parse "folio.toml" dateFile = .ok config ∧
      ∀ layered, ofLayers (some ("folio.toml", dateFile)) [] ≠ .ok layered := by
  constructor
  · obtain ⟨config, loaded, ignored⟩ : ∃ config, parse "folio.toml" pathFile = .ok config ∧
        (config.contentDir == "data/blog") = true := exists_ok_of_any (by decide +kernel)
    obtain ⟨layered, read, taken⟩ : ∃ layered, ofLayers (some ("folio.toml", pathFile)) [] = .ok layered ∧
        (layered.contentDir == "notes") = true := exists_ok_of_any (by decide +kernel)
    exact ⟨config, layered, loaded, beq_iff_eq.1 ignored, read, beq_iff_eq.1 taken⟩
  · obtain ⟨config, loaded, -⟩ : ∃ config, parse "folio.toml" dateFile = .ok config ∧ true = true :=
      exists_ok_of_any (by decide +kernel)
    have refused : (ofLayers (some ("folio.toml", dateFile)) []).toOption = none :=
      Option.isNone_iff_eq_none.1 (by decide +kernel)
    refine ⟨config, loaded, fun layered read => ?_⟩
    rw [read] at refused
    cases refused

end Config

end DocPress
