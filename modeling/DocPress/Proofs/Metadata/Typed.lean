import DocPress.Fields
import DocPress.Metadata.Header
import DocPress.Proofs.Result

/-!
The types of metadata that is read from headers. A schema tells which fields are dates: those that it
declares as dates hold nothing else, and no other field holds one. Fields are set under new names, one
after the other. A strict schema only refuses: it accepts a source exactly when the lenient one does and
every field that is read is declared, and what is read is then the same. The readers of YAML and of TOML
do not come into it, since both give fields without types.
-/

namespace DocPress

/-! ### Fields -/

namespace Fields

variable {α : Type} {name : String} {value : α} {fields : Fields α}

/-- Fields are told by their entries. -/
theorem ext_entries {left right : Fields α} (same : left.entries = right.entries) : left = right := by
  cases left
  cases right
  cases same
  rfl

theorem set_of_not_mem {entries : List (String × α)} (absent : name ∉ entries.map (·.1)) :
    set name value entries = entries ++ [(name, value)] := by
  induction entries with
  | nil => rfl
  | cons entry rest ih =>
      rw [List.map_cons, List.mem_cons, not_or] at absent
      rw [set, if_neg (Ne.symm absent.1), ih absent.2, List.cons_append]

/-- A new name comes last. -/
theorem entries_insert_of_not_mem (absent : name ∉ fields.keys) :
    (fields.insert name value).entries = fields.entries ++ [(name, value)] :=
  set_of_not_mem absent

/-- What is there after setting a field: that field, and fields that were there before. -/
theorem mem_set {entry : String × α} {entries : List (String × α)}
    (member : entry ∈ set name value entries) : entry = (name, value) ∨ entry ∈ entries := by
  induction entries with
  | nil => exact .inl (List.mem_singleton.1 member)
  | cons first rest ih =>
      rw [set] at member
      split at member
      · exact (List.mem_cons.1 member).imp_right (List.mem_cons_of_mem first)
      · rcases List.mem_cons.1 member with same | behind
        · exact .inr (same ▸ List.mem_cons_self)
        · exact (ih behind).imp_right (List.mem_cons_of_mem first)

theorem mem_insert {entry : String × α} (member : entry ∈ (fields.insert name value).entries) :
    entry = (name, value) ∨ entry ∈ fields.entries :=
  mem_set member

theorem not_mem_keys_erase (name : String) (fields : Fields α) : name ∉ (fields.erase name).keys := by
  intro member
  obtain ⟨entry, kept, same⟩ := List.mem_map.1 member
  have other := (List.mem_filter.1 kept).2
  rw [same] at other
  simp at other

/-- A field that is set at the end comes behind all others. -/
theorem entries_append (name : String) (value : α) (fields : Fields α) :
    (fields.append name value).entries =
      fields.entries.filter (·.1 != name) ++ [(name, value)] :=
  entries_insert_of_not_mem (not_mem_keys_erase name fields)

theorem mem_keys_set_iff {other : String} {entries : List (String × α)} :
    other ∈ (set name value entries).map (·.1) ↔ other = name ∨ other ∈ entries.map (·.1) := by
  induction entries with
  | nil => simp [set]
  | cons entry rest ih =>
      rw [set]
      split
      case isTrue same =>
        rw [List.map_cons, List.map_cons, List.mem_cons, List.mem_cons, same, or_self_left]
      case isFalse => rw [List.map_cons, List.map_cons, List.mem_cons, List.mem_cons, ih, or_left_comm]

theorem mem_keys_insert {other : String} :
    other ∈ (fields.insert name value).keys ↔ other = name ∨ other ∈ fields.keys :=
  mem_keys_set_iff

theorem contains_iff : fields.contains name = true ↔ name ∈ fields.keys := by
  rw [contains, List.contains_iff_mem]

theorem contains_eq_false_iff : fields.contains name = false ↔ name ∉ fields.keys := by
  rw [Bool.eq_false_iff, ne_eq, contains_iff]

end Fields

/-! ### Types -/

/-- The type of a value. -/
def MetaValue.type : MetaValue → FieldType
  | .text _ => .string
  | .date _ => .date
  | .flag _ => .boolean
  | .list _ => .list

namespace Schema

variable {schema : Schema} {name : String} {raw : RawValue} {value : MetaValue}

/-- Whether a value may stand under a name: it has the declared type, and without a declaration it is
no date. -/
def Accepts (schema : Schema) (name : String) (value : MetaValue) : Prop :=
  match schema.field? name with
  | some spec => value.type = spec.type
  | none => value.type ≠ .date

/-- The values of metadata have the types that the schema asks for. -/
def Describes (schema : Schema) (metadata : Metadata) : Prop :=
  ∀ entry ∈ metadata.entries, schema.Accepts entry.1 entry.2

theorem type_untyped_ne_date (raw : RawValue) : raw.untyped.type ≠ .date := by
  cases raw <;> simp [RawValue.untyped, MetaValue.type]

/-- A value that is given its declared type has that type. -/
theorem type_of_typed {spec : FieldSpec} (typed : Schema.typed spec name raw = .ok value) :
    value.type = spec.type := by
  obtain ⟨own, type, required⟩ := spec
  cases raw with
  | text text =>
      cases type with
      | string | list => cases typed; rfl
      | date =>
          simp only [Schema.typed] at typed
          split at typed
          · cases typed; rfl
          · cases typed
      | boolean =>
          simp only [Schema.typed] at typed
          split at typed
          · cases typed; rfl
          · split at typed
            · cases typed; rfl
            · cases typed
  | flag flag =>
      cases type with
      | string | boolean => cases typed; rfl
      | date | list => cases typed
  | list items =>
      cases type with
      | list => cases typed; rfl
      | string | date | boolean => cases typed

/-- What a value is made to be is accepted. -/
theorem accepts_of_coerce (coerced : schema.coerce name raw = .ok value) :
    schema.Accepts name value := by
  rw [coerce] at coerced
  rw [Accepts]
  cases declared : schema.field? name with
  | some spec =>
      rw [declared] at coerced
      exact type_of_typed coerced
  | none =>
      rw [declared] at coerced
      dsimp only at coerced ⊢
      split at coerced
      · cases coerced
      · cases coerced
        exact type_untyped_ne_date raw

/-- Every value of metadata is one that the schema has given its type. -/
def Gives (schema : Schema) (metadata : Metadata) : Prop :=
  ∀ entry ∈ metadata.entries, ∃ raw, schema.coerce entry.1 raw = .ok entry.2

theorem gives_empty : schema.Gives .empty := by
  intro entry member
  exact absurd member List.not_mem_nil

/-- Inserting what a value was made to be gives what the schema wants. -/
theorem Gives.insert {metadata : Metadata} (known : schema.Gives metadata)
    (coerced : schema.coerce name raw = .ok value) : schema.Gives (metadata.insert name value) := by
  intro entry member
  rcases Fields.mem_insert member with rfl | old
  · exact ⟨raw, coerced⟩
  · exact known entry old

/-! ### Strict and lenient schemas -/

/-- A value that is not refused does not depend on whether undeclared fields are. -/
theorem coerce_agree {strict lax : Schema} {name : String} {raw : RawValue}
    {value other : MetaValue} (same : strict.fields = lax.fields)
    (first : strict.coerce name raw = .ok value) (second : lax.coerce name raw = .ok other) :
    value = other := by
  rw [coerce, field?, same] at first
  rw [coerce, field?] at second
  cases declared : lax.fields.get? name with
  | some spec =>
      rw [declared] at first second
      exact Except.ok.inj (first.symm.trans second)
  | none =>
      rw [declared] at first second
      dsimp only at first second
      split at first
      · cases first
      · split at second
        · cases second
        · exact Except.ok.inj (first.symm.trans second)

/-- The schema of the same fields that refuses undeclared ones or does not. -/
def withStrict (strict : Bool) (schema : Schema) : Schema :=
  { schema with strict }

/-- Whether a schema declares all of the names. -/
def DeclaresAll (schema : Schema) (names : List String) : Prop :=
  ∀ name ∈ names, (schema.field? name).isSome = true

instance (schema : Schema) (names : List String) : Decidable (schema.DeclaresAll names) :=
  inferInstanceAs (Decidable (∀ name ∈ names, _))

/-- A value is accepted under a strict schema when it is under the lenient one and its name is declared. -/
theorem coerce_strict_iff :
    (schema.withStrict true).coerce name raw = .ok value ↔
      (schema.withStrict false).coerce name raw = .ok value ∧ (schema.field? name).isSome = true := by
  have strict : (schema.withStrict true).field? name = schema.field? name := rfl
  have lenient : (schema.withStrict false).field? name = schema.field? name := rfl
  rw [coerce, coerce, strict, lenient]
  cases schema.field? name with
  | some spec => simp
  | none => simp [withStrict]

theorem declaresAll_keys_insert {metadata : Metadata} :
    schema.DeclaresAll (metadata.insert name value).keys ↔
      (schema.field? name).isSome = true ∧ schema.DeclaresAll metadata.keys := by
  simp only [DeclaresAll, Fields.mem_keys_insert, forall_eq_or_imp]

end Schema

/-! ### Fields of headers -/

namespace Header

variable {schema : Schema} {header : Header}

/-- Fields are read one after the other, each with its type. -/
theorem coerceFields_cons_eq_ok_iff {key : String} {raw : RawValue} {fields : List (String × RawValue)}
    {start metadata : Metadata} :
    header.coerceFields schema ((key, raw) :: fields) start = .ok metadata ↔
      ∃ value, schema.coerce key raw = .ok value ∧
        header.coerceFields schema fields (start.insert key value) = .ok metadata := by
  rw [coerceFields]
  cases schema.coerce key raw with
  | error fault => simp
  | ok value => simp

/-- The metadata of a header is what the schema gives, if that in front of it was. -/
theorem gives_coerceFields {fields : List (String × RawValue)} :
    ∀ {start metadata : Metadata}, schema.Gives start →
      header.coerceFields schema fields start = .ok metadata → schema.Gives metadata := by
  induction fields with
  | nil =>
      intro start metadata known read
      cases read
      exact known
  | cons field fields ih =>
      intro start metadata known read
      obtain ⟨value, coerced, behind⟩ := coerceFields_cons_eq_ok_iff.1 read
      exact ih (known.insert coerced) behind

/-- The metadata of a header does not depend on whether undeclared fields are refused. -/
theorem coerceFields_agree {strict lax : Schema} (same : strict.fields = lax.fields)
    {fields : List (String × RawValue)} :
    ∀ {start metadata other : Metadata}, header.coerceFields strict fields start = .ok metadata →
      header.coerceFields lax fields start = .ok other → metadata = other := by
  induction fields with
  | nil =>
      intro start metadata other first second
      exact Except.ok.inj (first.symm.trans second)
  | cons field fields ih =>
      intro start metadata other first second
      obtain ⟨value, one, first⟩ := coerceFields_cons_eq_ok_iff.1 first
      obtain ⟨value', two, second⟩ := coerceFields_cons_eq_ok_iff.1 second
      obtain rfl := Schema.coerce_agree same one two
      exact ih first second

/-- The fields that are there stay when others are read. -/
theorem declaresAll_of_coerceFields {other : Schema} {fields : List (String × RawValue)} :
    ∀ {start metadata : Metadata}, header.coerceFields schema fields start = .ok metadata →
      other.DeclaresAll metadata.keys → other.DeclaresAll start.keys := by
  induction fields with
  | nil =>
      intro start metadata read declared
      cases read
      exact declared
  | cons field fields ih =>
      intro start metadata read declared
      obtain ⟨value, -, behind⟩ := coerceFields_cons_eq_ok_iff.1 read
      exact (Schema.declaresAll_keys_insert.1 (ih behind declared)).2

/-- Fields are accepted under a strict schema when they are under the lenient one and all that there is
in the end is declared. -/
theorem coerceFields_strict_iff {fields : List (String × RawValue)} :
    ∀ {start metadata : Metadata}, schema.DeclaresAll start.keys →
      (header.coerceFields (schema.withStrict true) fields start = .ok metadata ↔
        header.coerceFields (schema.withStrict false) fields start = .ok metadata ∧
          schema.DeclaresAll metadata.keys) := by
  induction fields with
  | nil =>
      intro start metadata declared
      constructor
      · intro read
        cases read
        exact ⟨rfl, declared⟩
      · exact fun read => read.1
  | cons field fields ih =>
      obtain ⟨key, raw⟩ := field
      intro start metadata declared
      rw [coerceFields_cons_eq_ok_iff, coerceFields_cons_eq_ok_iff]
      constructor
      · rintro ⟨value, coerced, behind⟩
        obtain ⟨accepted, known⟩ := Schema.coerce_strict_iff.1 coerced
        obtain ⟨read, all⟩ := (ih (Schema.declaresAll_keys_insert.2 ⟨known, declared⟩)).1 behind
        exact ⟨⟨value, accepted, read⟩, all⟩
      · rintro ⟨⟨value, accepted, read⟩, all⟩
        have here := Schema.declaresAll_keys_insert.1 (declaresAll_of_coerceFields read all)
        exact ⟨value, Schema.coerce_strict_iff.2 ⟨accepted, here.1⟩,
          (ih (Schema.declaresAll_keys_insert.2 ⟨here.1, declared⟩)).2 ⟨read, all⟩⟩

/-- A strict schema reads what a lenient one does, if it declares all keys. -/
theorem metadata_strict_iff {metadata : Metadata} :
    header.metadata (schema.withStrict true) = .ok metadata ↔
      header.metadata (schema.withStrict false) = .ok metadata ∧ schema.DeclaresAll metadata.keys := by
  have start : schema.DeclaresAll (.empty : Metadata).keys :=
    fun name member => absurd member List.not_mem_nil
  rw [Header.metadata, Header.metadata, bind_eq_ok_iff, bind_eq_ok_iff]
  simp only [coerceFields_strict_iff start]
  exact ⟨fun ⟨fields, read, typed, all⟩ => ⟨⟨fields, read, typed⟩, all⟩,
    fun ⟨⟨fields, read, typed⟩, all⟩ => ⟨fields, read, typed, all⟩⟩

end Header

/-! ### Sources -/

variable {schema : Schema} {source : String} {extracted : Extracted}

/-- A source that can be read has no header, and is its body, or it has one that can be read. -/
theorem extract_eq_ok_iff :
    extract schema source = .ok extracted ↔
      Header.split source.toList = .ok none ∧ extracted = ⟨.empty, source, 1⟩ ∨
      ∃ header metadata, Header.split source.toList = .ok (some header) ∧
        header.metadata schema = .ok metadata ∧
          extracted = ⟨metadata, String.ofList header.body, header.closingLine⟩ := by
  rw [extract, bind_eq_ok_iff]
  constructor
  · rintro ⟨found, split, rest⟩
    cases found with
    | none => exact .inl ⟨split, (pure_eq_ok_iff.1 rest).symm⟩
    | some header =>
        obtain ⟨metadata, read, same⟩ := bind_eq_ok_iff.1 rest
        exact .inr ⟨header, metadata, split, read, (pure_eq_ok_iff.1 same).symm⟩
  · rintro (⟨split, rfl⟩ | ⟨header, metadata, split, read, rfl⟩)
    · exact ⟨none, split, rfl⟩
    · exact ⟨some header, split, bind_eq_ok_iff.2 ⟨metadata, read, rfl⟩⟩

/-- The metadata that is read from a source is what the schema gives. -/
theorem gives_extract (read : extract schema source = .ok extracted) :
    schema.Gives extracted.metadata := by
  obtain ⟨-, rfl⟩ | ⟨header, metadata, -, typed, rfl⟩ := extract_eq_ok_iff.1 read
  · exact Schema.gives_empty
  · obtain ⟨fields, -, typed⟩ := bind_eq_ok_iff.1 typed
    exact Header.gives_coerceFields Schema.gives_empty typed

/-- The metadata that is read from a source has the types that the schema asks for. -/
theorem describes_extract (read : extract schema source = .ok extracted) :
    schema.Describes extracted.metadata := by
  intro entry member
  obtain ⟨raw, coerced⟩ := gives_extract read entry member
  exact Schema.accepts_of_coerce coerced

/-- What is read from a source does not depend on whether undeclared fields are refused. -/
theorem extract_agree {strict lax : Schema} (same : strict.fields = lax.fields) {other : Extracted}
    (first : extract strict source = .ok extracted) (second : extract lax source = .ok other) :
    extracted = other := by
  obtain ⟨split, rfl⟩ | ⟨header, metadata, split, typed, rfl⟩ := extract_eq_ok_iff.1 first
  · obtain ⟨-, rfl⟩ | ⟨header, metadata, split', -, -⟩ := extract_eq_ok_iff.1 second
    · rfl
    · cases split.symm.trans split'
  · obtain ⟨split', -⟩ | ⟨header', metadata', split', typed', rfl⟩ := extract_eq_ok_iff.1 second
    · cases split.symm.trans split'
    · obtain rfl := Option.some.inj (Except.ok.inj (split.symm.trans split'))
      obtain ⟨fields, read, typed⟩ := bind_eq_ok_iff.1 typed
      obtain ⟨fields', read', typed'⟩ := bind_eq_ok_iff.1 typed'
      obtain rfl := Except.ok.inj (read.symm.trans read')
      obtain rfl := Header.coerceFields_agree same typed typed'
      rfl

/-- What is read from a source has the types that the schema asks for: that of its declaration under a
declared name, and any but that of dates under another. A strict schema reads the same as the lenient one
from the sources in which that finds declared fields alone, and nothing from all others. -/
theorem extract_typed_and_strict (schema : Schema) (source : String) (extracted : Extracted) :
    (extract schema source = .ok extracted →
      ∀ entry ∈ extracted.metadata.entries,
        (∀ spec, schema.field? entry.1 = some spec → entry.2.type = spec.type) ∧
          (schema.field? entry.1 = none → entry.2.type ≠ .date)) ∧
    (extract (schema.withStrict true) source = .ok extracted ↔
      extract (schema.withStrict false) source = .ok extracted ∧
        schema.DeclaresAll extracted.metadata.keys) := by
  refine ⟨fun read entry member => ?_, ?_⟩
  · have accepts := describes_extract read entry member
    rw [Schema.Accepts] at accepts
    refine ⟨fun spec declared => ?_, fun undeclared => ?_⟩
    · rwa [declared] at accepts
    · rwa [undeclared] at accepts
  · rw [extract_eq_ok_iff, extract_eq_ok_iff]
    constructor
    · rintro (⟨split, rfl⟩ | ⟨header, metadata, split, read, rfl⟩)
      · exact ⟨.inl ⟨split, rfl⟩, fun name member => absurd member List.not_mem_nil⟩
      · obtain ⟨read, all⟩ := Header.metadata_strict_iff.1 read
        exact ⟨.inr ⟨header, metadata, split, read, rfl⟩, all⟩
    · rintro ⟨⟨split, rfl⟩ | ⟨header, metadata, split, read, rfl⟩, all⟩
      · exact .inl ⟨split, rfl⟩
      · exact .inr ⟨header, metadata, split, Header.metadata_strict_iff.2 ⟨read, all⟩, rfl⟩

/-- A post with a flag for its title and a word for its tags. -/
def taggedPost : String :=
  "---\ntitle: true\ndate: 2024-05-01\ntags: lean\n---\nText"

/-- A post with a date under a name that posts do not have. -/
def seenPost : String :=
  "+++\ntitle = \"T\"\nseen = 2024-05-01\n+++\n"

set_option maxRecDepth 10000 in
/-- Under both schemas of posts the flag is a title and the word a list, and the lenient one alone reads a
post with another field, whose date is a text. -/
theorem extract_typed_and_strict_posts :
    (∃ extracted, extract .blog taggedPost = .ok extracted ∧
      (∀ entry ∈ extracted.metadata.entries, ∀ spec, Schema.blog.field? entry.1 = some spec →
        entry.2.type = spec.type) ∧
      extract (Schema.blog.withStrict true) taggedPost = .ok extracted) ∧
    ∃ extracted, extract .blog seenPost = .ok extracted ∧
      (∀ entry ∈ extracted.metadata.entries, Schema.blog.field? entry.1 = none →
        entry.2.type ≠ .date) ∧
      extract (Schema.blog.withStrict true) seenPost ≠ .ok extracted := by
  constructor
  · obtain ⟨extracted, read, all⟩ := @exists_ok_of_any _ _ (extract .blog taggedPost)
      (fun extracted => decide (Schema.blog.DeclaresAll extracted.metadata.keys)) (by decide +kernel)
    obtain ⟨typed, strict⟩ := extract_typed_and_strict .blog taggedPost extracted
    exact ⟨extracted, read, fun entry member => (typed read entry member).1,
      strict.2 ⟨read, of_decide_eq_true all⟩⟩
  · obtain ⟨extracted, read, other⟩ := @exists_ok_of_any _ _ (extract .blog seenPost)
      (fun extracted => decide (¬Schema.blog.DeclaresAll extracted.metadata.keys)) (by decide +kernel)
    obtain ⟨typed, strict⟩ := extract_typed_and_strict .blog seenPost extracted
    exact ⟨extracted, read, fun entry member => (typed read entry member).2,
      fun same => of_decide_eq_true other (strict.1 same).2⟩

end DocPress
