import Mathlib.Data.List.Forall2
import DocPress.Config.Read
import DocPress.Proofs.Result

/-!
Settings that restate others. A file that is read with its types and the same file that is read into the
settings of several sources do not give the same settings: sources are told apart, and a date is a table
there and a text here. What is read out of the former is read out of the latter, as no reader takes a date.
-/

namespace DocPress

open Json (ShapeError Record)

/-! ### Entries one by one -/

/-- The first value under a name. -/
def valueOf? {α : Type} (name : String) (entries : List (String × α)) : Option α :=
  (entries.find? (·.1 == name)).map (·.2)

section

variable {α β γ : Type} {name : String} {value : α} {entries : List (String × α)}

theorem valueOf?_cons (key : String) (own : α) : valueOf? name ((key, own) :: entries) =
    if key = name then some own else valueOf? name entries := by
  rw [valueOf?, List.find?_cons]
  by_cases here : key = name
  · rw [if_pos here, show (key == name) = true from beq_iff_eq.2 here]
    rfl
  · rw [if_neg here, show (key == name) = false from beq_eq_false_iff_ne.2 here]
    rfl

theorem mem_of_valueOf? (found : valueOf? name entries = some value) : (name, value) ∈ entries := by
  obtain ⟨⟨key, own⟩, here, rfl⟩ := Option.map_eq_some_iff.1 found
  obtain rfl : key = name := by simpa using List.find?_some here
  exact List.mem_of_find?_eq_some here

/-- Among entries of distinct names, each one is found under its own name. -/
theorem valueOf?_of_mem (distinct : (entries.map (·.1)).Nodup) (member : (name, value) ∈ entries) :
    valueOf? name entries = some value := by
  induction entries with
  | nil => cases member
  | cons entry rest ih =>
      obtain ⟨key, own⟩ := entry
      obtain ⟨new, distinct⟩ := List.nodup_cons.1 distinct
      rw [valueOf?_cons]
      rcases List.mem_cons.1 member with same | behind
      · obtain ⟨rfl, rfl⟩ := Prod.mk.inj same
        exact if_pos rfl
      · rw [if_neg, ih distinct behind]
        rintro rfl
        exact new (List.mem_map.2 ⟨_, behind, rfl⟩)

theorem rel_map {related : β → γ → Prop} {found : Option α} {f : α → β} {g : α → γ}
    (each : ∀ value, found = some value → related (f value) (g value)) :
    Option.Rel related (found.map f) (found.map g) := by
  cases found with
  | none => exact .none
  | some value => exact .some (each value rfl)

end

/-- Whether entries have the same names in the same order, and related values. -/
inductive Entrywise {α β : Type} (related : α → β → Prop) :
    List (String × α) → List (String × β) → Prop
  | nil : Entrywise related [] []
  | cons {name : String} {value : α} {value' : β} {rest : List (String × α)}
      {rest' : List (String × β)} (here : related value value') (others : Entrywise related rest rest') :
      Entrywise related ((name, value) :: rest) ((name, value') :: rest')

namespace Entrywise

variable {α β : Type} {related : α → β → Prop} {entries : List (String × α)}
  {entries' : List (String × β)}

theorem find? (each : Entrywise related entries entries') (name : String) :
    Option.Rel (fun entry entry' => related entry.2 entry'.2)
      (entries.find? (·.1 == name)) (entries'.find? (·.1 == name)) := by
  induction each with
  | nil => exact .none
  | @cons own _ _ _ _ here _ ih =>
      rw [List.find?_cons, List.find?_cons]
      cases own == name with
      | true => exact .some here
      | false => exact ih

/-- The values that two related lists of entries have for one name are related. -/
theorem valueOf? (each : Entrywise related entries entries') (name : String) :
    Option.Rel related (DocPress.valueOf? name entries) (DocPress.valueOf? name entries') := by
  rw [DocPress.valueOf?, DocPress.valueOf?]
  have found := each.find? name
  generalize entries.find? (·.1 == name) = entry, entries'.find? (·.1 == name) = entry' at found
  cases found with
  | none => exact .none
  | some here => exact .some here

theorem filter (each : Entrywise related entries entries') (name : String) :
    Entrywise related (entries.filter (·.1 != name)) (entries'.filter (·.1 != name)) := by
  induction each with
  | nil => exact .nil
  | @cons own _ _ _ _ here _ ih =>
      rw [List.filter_cons, List.filter_cons]
      cases own != name with
      | true => exact .cons here ih
      | false => exact ih

theorem zip {items : List α} {items' : List β} (each : List.Forall₂ related items items') :
    ∀ names : List String, Entrywise related (names.zip items) (names.zip items') := by
  induction each with
  | nil =>
      intro names
      rw [List.zip_nil_right, List.zip_nil_right]
      exact .nil
  | cons here _ ih =>
      intro names
      cases names with
      | nil => exact .nil
      | cons name names => exact .cons here (ih names)

theorem values (each : Entrywise related entries entries') :
    List.Forall₂ related (entries.map (·.2)) (entries'.map (·.2)) := by
  induction each with
  | nil => exact .nil
  | cons here _ ih => exact .cons here ih

theorem names (each : Entrywise related entries entries') :
    entries.map (·.1) = entries'.map (·.1) := by
  induction each with
  | nil => rfl
  | cons here _ ih => rw [List.map_cons, List.map_cons, ih]

end Entrywise

/-! ### Settings -/

/-- Whether a second setting is a first one in another place, up to the sources of values and to dates,
which are tables there and texts here. -/
inductive Setting.Restates : Setting → Setting → Prop
  | text {value : String} {source source' : Option String} :
      (Setting.text value source).Restates (.text value source')
  | integer {value : Int} {source source' : Option String} :
      (Setting.integer value source).Restates (.integer value source')
  | float {value : Float} {source source' : Option String} :
      (Setting.float value source).Restates (.float value source')
  | flag {value : Bool} {source source' : Option String} :
      (Setting.flag value source).Restates (.flag value source')
  | moment {value : String} {inner source source' : Option String} :
      (Setting.table [("date-time", .text value inner)] source).Restates (.text value source')
  | list {items items' : List Setting} {source source' : Option String}
      (each : List.Forall₂ Setting.Restates items items') :
      (Setting.list items source).Restates (.list items' source')
  | table {entries entries' : List (String × Setting)} {source source' : Option String}
      (each : Entrywise Setting.Restates entries entries') :
      (Setting.table entries source).Restates (.table entries' source')

namespace Setting

/-- Whether whatever one reader reads in related settings is what another one reads there. -/
def Agree {α : Type} (related : Setting → Setting → Prop)
    (read read' : Setting → Except SettingError α) : Prop :=
  ∀ ⦃setting setting' : Setting⦄ ⦃value : α⦄, related setting setting' →
    read setting = .ok value → read' setting' = .ok value

/-- A text is read the same when it is restated. -/
theorem agree_text : Agree Restates typed.text converted.text := by
  intro setting setting' value restates read
  cases restates with
  | text => exact read
  | _ => cases read

/-- A flag is read the same when it is restated. -/
theorem agree_flag : Agree Restates typed.flag converted.flag := by
  intro setting setting' value restates read
  cases restates with
  | flag => exact read
  | _ => cases read

/-- A keyword is a text, or else the only name in a table over nothing; a date is neither. -/
theorem agree_keyword (type : String) (names : List String) :
    Agree Restates (typed.keyword type names) (converted.keyword type names) := by
  have picks {name value : String} {fault fault' : SettingFault}
      (read : (if names.contains name then .ok name else Setting.fault fault) = .ok value) :
      (if names.contains name then .ok name else Setting.fault fault') = .ok value := by
    split at read
    case isTrue listed => rwa [if_pos listed]
    case isFalse => cases read
  intro setting setting' value restates read
  cases restates with
  | text => exact picks read
  | moment => cases read
  | table each =>
      cases each with
      | nil => cases read
      | cons here others =>
          cases others with
          | cons => cases read
          | nil =>
              simp only [typed] at read
              split at read
              · exact picks read
              · cases read
  | _ => cases read

/-- A choice among texts is read the same when it is restated. -/
theorem agree_pick {α : Type} (type : String) (all : List (String × α)) :
    Agree Restates (pick typed type all) (pick converted type all) := by
  intro setting setting' value restates read
  obtain ⟨word, keyword, found⟩ := bind_eq_ok_iff.1 read
  exact bind_eq_ok_iff.2 ⟨word, agree_keyword type _ restates keyword, found⟩

/-- Settings that restate others are there. -/
theorem agree_readOptional {α : Type} {read read' : Setting → Except SettingError α}
    (agree : Agree Restates read read') :
    Agree Restates (readOptional read) (readOptional read') := by
  intro setting setting' value restates done
  have given : (read setting).map some = .ok value ∧
      readOptional read' setting' = (read' setting').map some := by
    cases restates <;> exact ⟨done, rfl⟩
  obtain ⟨inner, here, rfl⟩ := map_eq_ok_iff.1 given.1
  rw [given.2]
  exact map_eq_ok_iff.2 ⟨inner, agree restates here, rfl⟩

/-! ### Lists and catalogs -/

/-- A list whose items are read the same when restated is read the same. -/
theorem agree_readEach {α : Type} {related : Setting → Setting → Prop}
    {read read' : Setting → Except SettingError α} (agree : Agree related read read')
    {steps steps' : List (SettingStep × Setting)}
    (each : List.Forall₂ related (steps.map (·.2)) (steps'.map (·.2))) {values : List α}
    (done : readEach read steps = .ok values) : readEach read' steps' = .ok values := by
  induction steps generalizing steps' values with
  | nil =>
      obtain rfl := List.map_eq_nil_iff.1 (List.forall₂_nil_left_iff.1 each)
      exact done
  | cons step steps ih =>
      cases steps' with
      | nil => cases each
      | cons step' steps' =>
          obtain ⟨here, others⟩ := List.forall₂_cons.1 each
          obtain ⟨first, one, done⟩ := bind_eq_ok_iff.1 done
          obtain ⟨more, rest, done⟩ := bind_eq_ok_iff.1 done
          refine bind_eq_ok_iff.2 ⟨first, ?_, bind_eq_ok_iff.2 ⟨more, ih others rest, done⟩⟩
          exact mapError_eq_ok_iff.2 (agree here (mapError_eq_ok_iff.1 one))

theorem map_numberedFrom (items : List Setting) :
    ∀ n : Nat, (numberedFrom n items).map (·.2) = items := by
  induction items with
  | nil => exact fun _ => rfl
  | cons item items ih => exact fun n => congrArg (item :: ·) (ih (n + 1))

/-- A reader of items that agrees gives a reader of lists that agrees. -/
theorem agree_readList {α : Type} {read read' : Setting → Except SettingError α}
    (agree : Agree Restates read read') : Agree Restates (readList read) (readList read') := by
  intro setting setting' values restates done
  cases restates with
  | list each =>
      refine agree_readEach agree ?_ done
      rwa [map_numberedFrom, map_numberedFrom]
  | _ => cases done

/-- A reader that takes no text takes no date either. -/
theorem agree_readCatalog {α : Type} {read read' : Setting → Except SettingError α}
    (agree : Agree Restates read read')
    (noText : ∀ {value : String} {source : Option String} {result : α},
      read (.text value source) ≠ .ok result) :
    Agree Restates (readCatalog read) (readCatalog read') := by
  intro setting setting' catalog restates done
  cases restates with
  | moment =>
      obtain ⟨values, each, -⟩ := bind_eq_ok_iff.1 done
      obtain ⟨first, one, -⟩ := bind_eq_ok_iff.1 each
      exact absurd (mapError_eq_ok_iff.1 one) noText
  | table each =>
      obtain ⟨values, read, done⟩ := bind_eq_ok_iff.1 done
      refine bind_eq_ok_iff.2 ⟨values, agree_readEach agree ?_ read, ?_⟩
      · rw [List.map_map, List.map_map]
        exact each.values
      · rwa [← each.names]
  | _ => cases done

/-! ### Groups -/

/-- The setting of a group under a name. -/
def Group.setting? (group : Group) (name : String) : Option Setting :=
  (group.entries.find? (·.1 == name)).map (·.2.2)

/-- An optional setting is read exactly when it is absent or its value is. -/
theorem Group.read?_eq_ok_iff {α : Type} {group : Group} {name : String}
    {read : Setting → Except SettingError α} {value : Option α} :
    group.read? name read = .ok value ↔
      match group.setting? name with
      | some setting => (read setting).map some = .ok value
      | none => value = none := by
  rw [Group.read?, setting?]
  cases group.entries.find? (·.1 == name) with
  | none => exact ⟨fun same => (Except.ok.inj same).symm, fun same => congrArg _ same.symm⟩
  | some entry => simp only [map_eq_ok_iff, mapError_eq_ok_iff, Option.map_some]

/-- What is read in a group is read in another one with a related setting under the name. -/
theorem Group.agree_read? {α : Type} {related : Setting → Setting → Prop}
    {read read' : Setting → Except SettingError α} (agree : Agree related read read')
    {group group' : Group} {name : String}
    (here : Option.Rel related (group.setting? name) (group'.setting? name)) {value : Option α}
    (done : group.read? name read = .ok value) : group'.read? name read' = .ok value := by
  rw [Group.read?_eq_ok_iff] at done ⊢
  revert done
  generalize group.setting? name = setting, group'.setting? name = setting' at here
  intro done
  cases here with
  | none => exact done
  | some related =>
      obtain ⟨inner, read, rfl⟩ := map_eq_ok_iff.1 done
      exact map_eq_ok_iff.2 ⟨inner, agree related read, rfl⟩

/-- A group is not read out of a text. -/
theorem Group.ne_text_of_read? {α : Type} {own : Group} {name title value : String} {names : List String}
    {next : Group → Except SettingError α} {result : Option α} {source : Option String}
    (done : own.read? name (fun setting => group title names setting >>= next) = .ok result) :
    own.setting? name ≠ some (.text value source) := by
  intro here
  rw [Group.read?_eq_ok_iff, here] at done
  cases done

/-- A demanded value is given exactly when it was found. -/
theorem Group.demand_eq_ok_iff {α : Type} {group : Group} {name : String} {found : Option α}
    {value : α} : group.demand name found = .ok value ↔ found = some value := by
  cases found with
  | some own =>
      exact ⟨fun same => congrArg some (Except.ok.inj same),
        fun same => congrArg Except.ok (Option.some.inj same)⟩
  | none =>
      refine ⟨fun same => ?_, nofun⟩
      rw [Group.demand] at same
      split at same <;> cases same

/-- Whether the settings under all names of a group are restated in another one. -/
def Group.Restates (group group' : Group) : Prop :=
  ∀ name, Option.Rel Setting.Restates (group.setting? name) (group'.setting? name)

/-- A table has a setting for a name exactly when one of its entries does. -/
theorem setting?_table {title : String} {names : List String} {entries : List (String × Setting)}
    {length : Option Nat} (name : String) :
    Group.setting? ⟨title, names, entries.map fun entry => (entry.1, .key entry.1, entry.2), length⟩ name =
      valueOf? name entries := by
  rw [Group.setting?, List.find?_map, Option.map_map]
  rfl

/-- A list has the setting of a name at the place of that name. -/
theorem setting?_list {title : String} {names : List String} {items : List Setting}
    {length : Option Nat} (name : String) :
    Group.setting? ⟨title, names, names.zip (numberedFrom 0 items), length⟩ name =
      valueOf? name (names.zip items) := by
  have zipped : names.zip items =
      (names.zip (numberedFrom 0 items)).map fun entry => (entry.1, entry.2.2) := by
    conv_lhs => rw [← map_numberedFrom items 0]
    rw [List.zip_map_right]
    rfl
  rw [Group.setting?, zipped, valueOf?, List.find?_map, Option.map_map]
  rfl

/-- Whether a setting is what a date with a type is. -/
def IsMoment (setting : Setting) : Prop :=
  ∃ value inner source, setting = .table [("date-time", .text value inner)] source

/-- Whether a second setting is a first one in another place, and they are not a date. -/
def RestatesUndated (setting setting' : Setting) : Prop :=
  setting.Restates setting' ∧ ¬(setting.IsMoment ∧ ∃ value source, setting' = .text value source)

/-- The group in a setting that is no date is restated in a setting that restates it. -/
theorem RestatesUndated.group {setting setting' : Setting} {title : String} {names : List String}
    {own : Group} (restates : setting.RestatesUndated setting')
    (made : group title names setting = .ok own) :
    ∃ own', group title names setting' = .ok own' ∧ own.Restates own' := by
  obtain ⟨restates, undated⟩ := restates
  cases restates with
  | moment => exact absurd ⟨⟨_, _, _, rfl⟩, _, _, rfl⟩ undated
  | list each =>
      refine ⟨_, rfl, fun name => ?_⟩
      obtain rfl := Except.ok.inj made
      rw [setting?_list, setting?_list]
      exact (Entrywise.zip each names).valueOf? name
  | table each =>
      refine ⟨_, rfl, fun name => ?_⟩
      obtain rfl := Except.ok.inj made
      rw [setting?_table, setting?_table]
      exact each.valueOf? name
  | _ => cases made

/-- What is read in a group is read where the group is restated. -/
theorem agree_group {α : Type} {title : String} {names : List String}
    {next next' : Group → Except SettingError α}
    (goesOn : ∀ ⦃group group' : Group⦄ ⦃value : α⦄, group.Restates group' →
      next group = .ok value → next' group' = .ok value) :
    Agree RestatesUndated (fun setting => group title names setting >>= next)
      (fun setting => group title names setting >>= next') := by
  intro setting setting' value restates done
  obtain ⟨own, made, done⟩ := bind_eq_ok_iff.1 done
  obtain ⟨own', made', same⟩ := restates.group made
  exact bind_eq_ok_iff.2 ⟨own', made', goesOn same done⟩

/-- Readers that agree on what is no moment agree on everything, if they accept no moment. -/
theorem Agree.of_undated {α : Type} {read read' : Setting → Except SettingError α}
    (agree : Agree RestatesUndated read read')
    (noMoment : ∀ ⦃setting : Setting⦄ ⦃value : α⦄, setting.IsMoment → read setting ≠ .ok value) :
    Agree Restates read read' :=
  fun _ _ _ restates done => agree ⟨restates, fun date => noMoment date.1 done⟩ done

end Setting

open Setting (Agree Group typed converted)

/-- A date has no name. -/
theorem FieldSpec.agree_ofSetting : Agree Setting.Restates (ofSetting typed) (ofSetting converted) := by
  refine Agree.of_undated (Setting.agree_group fun group group' spec same done => ?_) ?_
  · obtain ⟨name, readName, done⟩ := bind_eq_ok_iff.1 done
    obtain ⟨type, readType, done⟩ := bind_eq_ok_iff.1 done
    obtain ⟨required, readRequired, done⟩ := bind_eq_ok_iff.1 done
    obtain ⟨givenName, one, done⟩ := bind_eq_ok_iff.1 done
    obtain ⟨givenType, two, done⟩ := bind_eq_ok_iff.1 done
    refine bind_eq_ok_iff.2 ⟨name, Group.agree_read? Setting.agree_text (same _) readName, ?_⟩
    refine bind_eq_ok_iff.2 ⟨type, Group.agree_read? (Setting.agree_pick _ _) (same _) readType, ?_⟩
    refine bind_eq_ok_iff.2 ⟨required, Group.agree_read? Setting.agree_flag (same _) readRequired, ?_⟩
    rw [Group.demand_eq_ok_iff] at one two
    refine bind_eq_ok_iff.2 ⟨givenName, Group.demand_eq_ok_iff.2 one, ?_⟩
    exact bind_eq_ok_iff.2 ⟨givenType, Group.demand_eq_ok_iff.2 two, done⟩
  · rintro _ spec ⟨value, inner, source, rfl⟩
    exact nofun

/-! ### Options of stages -/

/-- Whether values are those of settings, the second of which restates the first. -/
inductive Json.Restates : Json → Json → Prop
  | of {setting setting' : Setting} (restates : setting.Restates setting') :
      Json.Restates setting.toJson setting'.toJson

namespace Json

/-- Whether whatever is read in a value of settings is read in what restates it. -/
def Keeps {α : Type} (read : Json → Except ShapeError α) : Prop :=
  ∀ ⦃value value' : Json⦄ ⦃result : α⦄, value.Restates value' →
    read value = .ok result → read value' = .ok result

/-- A flag of the options is kept by restating. -/
theorem keeps_readBool : Keeps readBool := by
  rintro _ _ result ⟨restates⟩ done
  cases restates with
  | flag => exact done
  | _ => cases done

/-- A number of the options is kept by restating. -/
theorem keeps_readBelow (bound : Nat) (typeName : String) : Keeps (readBelow bound typeName) := by
  rintro _ _ result ⟨restates⟩ done
  cases restates with
  | integer => exact done
  | _ => cases done

/-- A reader that keeps its results still does when they are converted. -/
theorem Keeps.map {α β : Type} {read : Json → Except ShapeError α} (keeps : Keeps read) (f : α → β) :
    Keeps fun value => (read value).map f := by
  intro value value' result restates done
  obtain ⟨inner, here, rfl⟩ := map_eq_ok_iff.1 done
  exact map_eq_ok_iff.2 ⟨inner, keeps restates here, rfl⟩

theorem Keeps.checked {α : Type} {read : Json → Except ShapeError α} (keeps : Keeps read) :
    Keeps (Json.checked read) :=
  keeps.map _

/-- A field with a default is kept by restating. -/
theorem keeps_defaulted {α : Type} {read : Json → Except ShapeError α} (keeps : Keeps read)
    {name : String} {default result : α} {fields fields' : List (String × Json)}
    (each : Entrywise Restates fields fields') (done : defaulted name default read fields = .ok result) :
    defaulted name default read fields' = .ok result := by
  rw [defaulted] at done ⊢
  have found := each.find? name
  generalize fields.find? (·.1 == name) = field, fields'.find? (·.1 == name) = field' at found done
  cases found with
  | none => exact done
  | some here => exact keeps here done

/-- A check of all fields is kept by restating. -/
theorem keeps_checkFields {readers : List (String × (Json → Except ShapeError Unit))}
    (keeps : ∀ reader ∈ readers, Keeps reader.2) {fields fields' : List (String × Json)}
    (each : Entrywise Restates fields fields') {seen : List String}
    (done : checkFields readers seen fields = .ok ()) : checkFields readers seen fields' = .ok () := by
  induction each generalizing seen with
  | nil => exact done
  | @cons name value value' rest rest' here _ ih =>
      rw [checkFields] at done ⊢
      cases found : readers.find? (·.1 == name) with
      | none =>
          rw [found] at done
          exact ih done
      | some reader =>
          rw [found] at done
          dsimp only at done ⊢
          split at done
          case isTrue => cases done
          case isFalse new =>
            rw [if_neg new]
            obtain ⟨own, read, done⟩ := bind_eq_ok_iff.1 done
            exact bind_eq_ok_iff.2 ⟨own, keeps reader (List.mem_of_find?_eq_some found) here read, ih done⟩

/-- Whether a record has the fields of another one, as they are restated. -/
structure Record.Restates (record record' : Record) : Prop where
  names : record.names = record'.names
  length : record.length = record'.length
  fields : Entrywise Json.Restates record.fields record'.fields

namespace Record.Restates

variable {record record' : Record}

/-- A record that is checked stays checked when it is restated. -/
theorem check (restates : record.Restates record')
    {readers : List (String × (Json → Except ShapeError Unit))}
    (keeps : ∀ reader ∈ readers, Keeps reader.2) (done : record.check readers = .ok ()) :
    record'.check readers = .ok () :=
  keeps_checkFields keeps restates.fields done

/-- A required field of a record is kept by restating. -/
theorem required {α : Type} (restates : record.Restates record') {name : String}
    {read : Json → Except ShapeError α} (keeps : Keeps read) {result : α}
    (done : record.required name read = .ok result) : record'.required name read = .ok result := by
  rw [Record.required, ← restates.length]
  rw [Record.required] at done
  have found := restates.fields.find? name
  generalize record.fields.find? (·.1 == name) = field,
    record'.fields.find? (·.1 == name) = field' at found done
  cases found with
  | none =>
      revert done
      cases record.length <;> exact nofun
  | some here => exact keeps here done

/-- A record of the right length keeps it when it is restated. -/
theorem checkLength (restates : record.Restates record') (done : record.checkLength = .ok ()) :
    record'.checkLength = .ok () := by
  rw [Record.checkLength, atMost, ← restates.length, ← restates.names]
  exact done

end Record.Restates

/-- Restated items become restated values. -/
theorem restates_toJsons {items items' : List Setting}
    (each : List.Forall₂ Setting.Restates items items') :
    List.Forall₂ Restates (Setting.toJsons items) (Setting.toJsons items') := by
  induction each with
  | nil =>
      rw [Setting.toJsons]
      exact .nil
  | cons here _ ih =>
      rw [Setting.toJsons, Setting.toJsons]
      exact .cons ⟨here⟩ ih

/-- Restated entries become restated fields. -/
theorem restates_toJsonFields {entries entries' : List (String × Setting)}
    (each : Entrywise Setting.Restates entries entries') :
    Entrywise Restates (Setting.toJsonFields entries) (Setting.toJsonFields entries') := by
  induction each with
  | nil =>
      rw [Setting.toJsonFields]
      exact .nil
  | cons here _ ih =>
      rw [Setting.toJsonFields, Setting.toJsonFields]
      exact .cons ⟨here⟩ ih

/-- Whether the record in a first value is restated in a second one. -/
def RecordRestates (value value' : Json) : Prop :=
  ∀ ⦃title names record⦄, Record.ofJson title names value = .ok record →
    ∃ record', Record.ofJson title names value' = .ok record' ∧ record.Restates record'

/-- A restated list becomes a restated record. -/
theorem recordRestates_array {items items' : List Setting}
    (each : List.Forall₂ Setting.Restates items items') :
    RecordRestates (.array (Setting.toJsons items)) (.array (Setting.toJsons items')) := by
  intro title names record made
  obtain rfl := Except.ok.inj made
  have items := restates_toJsons each
  exact ⟨_, rfl, rfl, congrArg some items.length_eq, Entrywise.zip items names⟩

/-- A restated table becomes a restated record. -/
theorem recordRestates_object {entries entries' : List (String × Setting)}
    (each : Entrywise Setting.Restates entries entries') :
    RecordRestates (.object (Setting.toJsonFields entries)) (.object (Setting.toJsonFields entries')) := by
  intro title names record made
  obtain rfl := Except.ok.inj made
  exact ⟨_, rfl, rfl, rfl, restates_toJsonFields each⟩

/-- A value that restates another one holds the same record, unless that is a date. -/
theorem Restates.record {value value' : Json} (restates : value.Restates value') :
    (∃ text, value = .object [("date-time", .string text)]) ∨ RecordRestates value value' := by
  obtain ⟨restates⟩ := restates
  cases restates with
  | moment => exact .inl ⟨_, rfl⟩
  | list each => exact .inr (recordRestates_array each)
  | table each => exact .inr (recordRestates_object each)
  | _ => exact .inr nofun

/-- What is read in the fields of a record, once they are checked, is read where it is restated. -/
theorem RecordRestates.keeps {α : Type} {title : String} {names : List String} {value value' : Json}
    {readers : List (String × (Json → Except ShapeError Unit))} {next : Record → Except ShapeError α}
    {result : α} (records : value.RecordRestates value') (checks : ∀ reader ∈ readers, Keeps reader.2)
    (goesOn : ∀ ⦃record record'⦄, record.Restates record' →
      next record = .ok result → next record' = .ok result)
    (done : (Record.ofJson title names value >>= fun record =>
      record.check readers >>= fun _ => next record) = .ok result) :
    (Record.ofJson title names value' >>= fun record =>
      record.check readers >>= fun _ => next record) = .ok result := by
  obtain ⟨record, made, done⟩ := bind_eq_ok_iff.1 done
  obtain ⟨⟨⟩, checked, done⟩ := bind_eq_ok_iff.1 done
  obtain ⟨record', made', same⟩ := records made
  exact bind_eq_ok_iff.2 ⟨record', made', bind_eq_ok_iff.2 ⟨(), same.check checks checked,
    goesOn same done⟩⟩

end Json

/-- A date has no width. -/
theorem ImageSize.keeps_ofJson : Json.Keeps ofJson := by
  intro value value' size restates done
  have keeps : Json.Keeps fun value => (Json.readBelow UInt32.size "u32" value).map UInt32.ofNat :=
    (Json.keeps_readBelow _ _).map _
  rcases restates.record with ⟨text, rfl⟩ | records
  · cases done
  · refine records.keeps (by simpa using keeps.checked) (fun record record' same done => ?_) done
    obtain ⟨width, one, done⟩ := bind_eq_ok_iff.1 done
    obtain ⟨height, two, done⟩ := bind_eq_ok_iff.1 done
    obtain ⟨⟨⟩, short, done⟩ := bind_eq_ok_iff.1 done
    refine bind_eq_ok_iff.2 ⟨width, same.required keeps one, ?_⟩
    refine bind_eq_ok_iff.2 ⟨height, same.required keeps two, ?_⟩
    exact bind_eq_ok_iff.2 ⟨(), same.checkLength short, done⟩

namespace Stage

/-- A date is no catalog of sizes. -/
theorem keeps_readSizes : Json.Keeps readSizes := by
  have sizes {fields fields' : List (String × Json)} {entries : List (String × ImageSize)}
      (each : Entrywise Json.Restates fields fields')
      (done : fields.mapM (fun field => return (field.1, ← ImageSize.ofJson field.2)) =
        (.ok entries : Except ShapeError _)) :
      fields'.mapM (fun field => return (field.1, ← ImageSize.ofJson field.2)) =
        (.ok entries : Except ShapeError _) := by
    induction each generalizing entries with
    | nil => exact done
    | cons here _ ih =>
        rw [List.mapM_cons] at done ⊢
        obtain ⟨first, one, done⟩ := bind_eq_ok_iff.1 done
        obtain ⟨size, read, one⟩ := bind_eq_ok_iff.1 one
        obtain ⟨more, rest, done⟩ := bind_eq_ok_iff.1 done
        refine bind_eq_ok_iff.2 ⟨first, ?_, bind_eq_ok_iff.2 ⟨more, ih rest, done⟩⟩
        exact bind_eq_ok_iff.2 ⟨size, ImageSize.keeps_ofJson here read, one⟩
  rintro _ _ catalog ⟨restates⟩ done
  cases restates with
  | moment => cases done
  | table each =>
      obtain ⟨entries, read, done⟩ := bind_eq_ok_iff.1 done
      exact bind_eq_ok_iff.2 ⟨entries, sizes (Json.restates_toJsonFields each) read, done⟩
  | _ => cases done

/-- The stage of a name has the same options where they are restated. -/
theorem keeps_ofOptions {name : String} {options options' : Json} {stage : Stage}
    (records : options.RecordRestates options') (done : ofOptions name options = .ok stage) :
    ofOptions name options' = .ok stage := by
  rw [ofOptions.eq_def] at done ⊢
  have bool := Json.keeps_readBool
  split at done
  case h_1 =>
    have length := Json.keeps_readBelow UInt64.size "usize"
    have checks := And.intro bool.checked length.checked
    refine records.keeps (by simpa using checks) (fun record record' same done => ?_) done
    obtain ⟨inlineNotes, one, done⟩ := bind_eq_ok_iff.1 done
    obtain ⟨inlineShort, two, done⟩ := bind_eq_ok_iff.1 done
    obtain ⟨shortLength, three, done⟩ := bind_eq_ok_iff.1 done
    obtain ⟨⟨⟩, short, done⟩ := bind_eq_ok_iff.1 done
    refine bind_eq_ok_iff.2 ⟨inlineNotes, Json.keeps_defaulted bool same.fields one, ?_⟩
    refine bind_eq_ok_iff.2 ⟨inlineShort, Json.keeps_defaulted bool same.fields two, ?_⟩
    refine bind_eq_ok_iff.2 ⟨shortLength, Json.keeps_defaulted length same.fields three, ?_⟩
    exact bind_eq_ok_iff.2 ⟨(), same.checkLength short, done⟩
  case h_2 =>
    refine records.keeps (by simpa using keeps_readSizes.checked) (fun record record' same done => ?_) done
    obtain ⟨sizes, one, done⟩ := bind_eq_ok_iff.1 done
    obtain ⟨⟨⟩, short, done⟩ := bind_eq_ok_iff.1 done
    refine bind_eq_ok_iff.2 ⟨sizes, Json.keeps_defaulted keeps_readSizes same.fields one, ?_⟩
    exact bind_eq_ok_iff.2 ⟨(), same.checkLength short, done⟩
  case h_3 =>
    refine records.keeps (by simpa using bool.checked) (fun record record' same done => ?_) done
    obtain ⟨strict, one, done⟩ := bind_eq_ok_iff.1 done
    obtain ⟨⟨⟩, short, done⟩ := bind_eq_ok_iff.1 done
    refine bind_eq_ok_iff.2 ⟨strict, Json.keeps_defaulted bool same.fields one, ?_⟩
    exact bind_eq_ok_iff.2 ⟨(), same.checkLength short, done⟩
  case h_4 =>
    obtain ⟨record, made, done⟩ := bind_eq_ok_iff.1 done
    obtain ⟨⟨⟩, short, done⟩ := bind_eq_ok_iff.1 done
    obtain ⟨record', made', same⟩ := records made
    exact bind_eq_ok_iff.2 ⟨record', made', bind_eq_ok_iff.2 ⟨(), same.checkLength short, done⟩⟩

/-- A stage is a table with its name, or a list that starts with it; a date is neither. -/
theorem agree_ofSetting : Agree Setting.Restates ofSetting ofSetting := by
  intro setting setting' stage restates done
  cases restates with
  | moment => cases done
  | list each =>
      cases each with
      | nil => cases done
      | cons here others =>
          cases here with
          | text =>
              rw [ofSetting] at done ⊢
              obtain ⟨name, read, done⟩ := bind_eq_ok_iff.1 done
              refine bind_eq_ok_iff.2 ⟨name, read, ?_⟩
              dsimp only at done ⊢
              split at done
              case h_1 own made =>
                rw [keeps_ofOptions (Json.recordRestates_array others) made]
                exact done
              case h_2 => cases done
          | _ => cases done
  | @table entries entries' _ _ each =>
      have records := Json.recordRestates_object (each.filter "stage")
      have found := each.find? "stage"
      rw [ofSetting] at done ⊢
      generalize entries.find? (·.1 == "stage") = entry,
        entries'.find? (·.1 == "stage") = entry' at found done
      cases found with
      | none => cases done
      | @some entry entry' here =>
          obtain ⟨key, value⟩ := entry
          obtain ⟨key', value'⟩ := entry'
          cases here with
          | text =>
              obtain ⟨name, read, done⟩ := bind_eq_ok_iff.1 done
              refine bind_eq_ok_iff.2 ⟨name, read, ?_⟩
              dsimp only at done ⊢
              split at done
              case h_1 own made =>
                rw [keeps_ofOptions records made]
                exact done
              case h_2 => cases done
          | _ => cases done
  | _ => cases done

end Stage

/-! ### Backends -/

/-- A date has no strategy. -/
theorem Backend.agree_ofSetting : Agree Setting.Restates (ofSetting typed) (ofSetting converted) := by
  have stages := Setting.agree_readList Stage.agree_ofSetting
  have flag := Setting.agree_readOptional Setting.agree_flag
  refine Agree.of_undated (Setting.agree_group fun group group' backend same done => ?_) ?_
  · obtain ⟨strategy, readStrategy, done⟩ := bind_eq_ok_iff.1 done
    obtain ⟨strict, readStrict, done⟩ := bind_eq_ok_iff.1 done
    obtain ⟨pre, readPre, done⟩ := bind_eq_ok_iff.1 done
    obtain ⟨post, readPost, done⟩ := bind_eq_ok_iff.1 done
    obtain ⟨given, one, done⟩ := bind_eq_ok_iff.1 done
    refine bind_eq_ok_iff.2 ⟨strategy,
      Group.agree_read? (Setting.agree_pick _ _) (same _) readStrategy, ?_⟩
    refine bind_eq_ok_iff.2 ⟨strict, Group.agree_read? flag (same _) readStrict, ?_⟩
    refine bind_eq_ok_iff.2 ⟨pre, Group.agree_read? stages (same _) readPre, ?_⟩
    refine bind_eq_ok_iff.2 ⟨post, Group.agree_read? stages (same _) readPost, ?_⟩
    exact bind_eq_ok_iff.2 ⟨given, Group.demand_eq_ok_iff.2 (Group.demand_eq_ok_iff.1 one), done⟩
  · rintro _ backend ⟨value, inner, source, rfl⟩
    exact nofun

end DocPress
