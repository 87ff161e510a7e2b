import DocPress.Metadata.Json
import DocPress.Proofs.Date.Text
import DocPress.Proofs.Metadata.Typed
import DocPress.Proofs.Result

/-!
Metadata in records. A record does not say which of its texts are dates, so that reading goes by the
schema: metadata comes back from its record exactly when dates stand under the names that are declared
as dates, texts do not, and the dates can be read from their written form.
-/

namespace DocPress

namespace MetaValue

/-- Whether a value is no date with a year that is written with a sign. -/
def HasPlainYear : MetaValue → Prop
  | .date instant => instant.HasPlainYear
  | .text _ | .flag _ | .list _ => True

instance : DecidablePred HasPlainYear := fun value =>
  match value with
  | .date instant => inferInstanceAs (Decidable instant.HasPlainYear)
  | .text _ | .flag _ | .list _ => inferInstanceAs (Decidable True)

end MetaValue

namespace Schema

/-- The type that a name is declared with. -/
def type? (schema : Schema) (name : String) : Option FieldType :=
  (schema.field? name).map (·.type)

/-- Whether a value comes back from the record that it is written to. -/
def Recovers (schema : Schema) (name : String) : MetaValue → Prop
  | .text _ => schema.type? name ≠ some .date
  | .date date => schema.type? name = some .date ∧ date.HasPlainYear
  | .flag _ | .list _ => True

/-- A value with a type that the schema asks for comes back unless it is a date with a year that is
written with a sign. -/
theorem Accepts.recovers_iff {schema : Schema} {name : String} {value : MetaValue}
    (accepts : schema.Accepts name value) :
    schema.Recovers name value ↔ value.HasPlainYear := by
  rw [Accepts] at accepts
  cases declared : schema.field? name with
  | none =>
      rw [declared] at accepts
      cases value with
      | date date => exact absurd rfl accepts
      | text text => simp [Recovers, MetaValue.HasPlainYear, type?, declared]
      | flag _ | list _ => simp [Recovers, MetaValue.HasPlainYear]
  | some spec =>
      rw [declared] at accepts
      replace accepts : value.type = spec.type := accepts
      cases value with
      | date date | text text =>
          simp [Recovers, MetaValue.HasPlainYear, type?, declared, ← accepts, MetaValue.type]
      | flag _ | list _ => simp [Recovers, MetaValue.HasPlainYear]

end Schema

namespace Metadata

variable {schema : Schema} {name : String} {value : MetaValue}

/-- A list of texts is read as the texts. -/
theorem readField_ofTexts (schema : Schema) (name : String) (items : List String) :
    readField schema name (.ofTexts items) = .ok (some (.list items)) := by
  have texts : (items.map Json.string).mapM Json.text? = some items := by
    induction items with
    | nil => rfl
    | cons item items ih =>
        rw [List.map_cons, List.mapM_cons, ih]
        rfl
  rw [Json.ofTexts, readField, texts]

/-- What a text in a record is read as. -/
theorem readField_string (schema : Schema) (name text : String) :
    readField schema name (.string text) =
      if schema.type? name = some .date then
        match Instant.parse? text with
        | some date => .ok (some (.date date))
        | none => .error (.invalidDate name text)
      else .ok (some (.text text)) := by
  rw [readField, Schema.type?]
  cases schema.field? name with
  | none => rfl
  | some spec =>
      obtain ⟨own, type, required⟩ := spec
      cases type <;> rfl

/-- A value is read back from a record exactly when it is one that comes back. -/
theorem readField_toJson_iff :
    readField schema name value.toJson = .ok (some value) ↔ schema.Recovers name value := by
  cases value with
  | text text =>
      rw [MetaValue.toJson, readField_string, Schema.Recovers]
      split
      · next declared =>
          simp only [declared, ne_eq, not_true_eq_false, iff_false]
          split <;> simp
      · next other => simp [other]
  | date date =>
      rw [MetaValue.toJson, readField_string, Schema.Recovers, Instant.parse?_format]
      by_cases declared : schema.type? name = some .date
      · by_cases plain : date.HasPlainYear
        · simp [declared, plain]
        · simp [declared, plain]
      · simp [declared]
  | flag flag => simp [MetaValue.toJson, readField, Schema.Recovers]
  | list items => simp [MetaValue.toJson, readField_ofTexts, Schema.Recovers]

/-- What is in a record for a value is never nothing. -/
theorem readField_toJson_ne_none : readField schema name value.toJson ≠ .ok none := by
  cases value with
  | text text | date date =>
      rw [MetaValue.toJson, readField_string]
      split
      · split <;> simp
      · simp
  | flag flag => simp [MetaValue.toJson, readField]
  | list items => simp [MetaValue.toJson, readField_ofTexts]

/-- A field as it comes back from a record. -/
def readBack (schema : Schema) (entry : String × MetaValue) :
    Except RecordFault (String × MetaValue) :=
  (readField schema entry.1 entry.2.toJson).map fun value => (entry.1, value.getD entry.2)

theorem readBack_eq_self_iff {entry : String × MetaValue} :
    readBack schema entry = .ok entry ↔ schema.Recovers entry.1 entry.2 := by
  obtain ⟨name, value⟩ := entry
  rw [← readField_toJson_iff, readBack, map_eq_ok_iff]
  constructor
  · rintro ⟨found, here, same⟩
    cases found with
    | none => exact absurd here readField_toJson_ne_none
    | some found =>
        obtain rfl : found = value := (Prod.mk.inj same).2
        exact here
  · intro here
    exact ⟨some value, here, rfl⟩

/-- A list comes out of a step for each of its items as it was exactly when each item does. -/
theorem mapM_eq_self_iff {ε α : Type} {step : α → Except ε α} {items : List α} :
    items.mapM step = .ok items ↔ ∀ item ∈ items, step item = .ok item := by
  induction items with
  | nil => simp [pure, Except.pure]
  | cons item items ih =>
      rw [List.mapM_cons, List.forall_mem_cons, ← ih, bind_eq_ok_iff]
      simp only [bind_eq_ok_iff, pure_eq_ok_iff, List.cons.injEq]
      constructor
      · rintro ⟨first, here, others, behind, rfl, rfl⟩
        exact ⟨here, behind⟩
      · rintro ⟨here, behind⟩
        exact ⟨item, here, items, behind, rfl, rfl⟩

variable {skip : List String}

/-- Fields of new names that are not skipped are put one behind the other, as they come back. -/
theorem entries_readFields (schema : Schema) {entries : List (String × MetaValue)}
    (kept : ∀ entry ∈ entries, entry.1 ∉ skip) :
    ∀ start : Metadata, ((start.entries ++ entries).map (·.1)).Nodup →
      (readFields schema skip (entries.map fun entry => (entry.1, entry.2.toJson)) start).map
          Fields.entries =
        (entries.mapM (readBack schema)).map (start.entries ++ ·) := by
  induction entries with
  | nil =>
      intro start _
      simp [readFields, Except.map, pure, Except.pure]
  | cons entry entries ih =>
      intro start distinct
      obtain ⟨name, value⟩ := entry
      have own : skip.contains name = false := by
        simpa using kept _ List.mem_cons_self
      have new : name ∉ start.keys := by
        intro member
        rw [List.map_append, List.nodup_append] at distinct
        exact distinct.2.2 name member name (by simp) rfl
      rw [List.map_cons, readFields, own, if_neg (by simp), List.mapM_cons, readBack]
      cases here : readField schema name value.toJson with
      | error fault => rfl
      | ok found =>
          cases found with
          | none => exact absurd here readField_toJson_ne_none
          | some found =>
              have put : (start.insert name found).entries = start.entries ++ [(name, found)] :=
                Fields.entries_insert_of_not_mem new
              have behind := ih (fun entry member => kept entry (List.mem_cons_of_mem _ member))
                (start.insert name found) (by simpa [put] using distinct)
              refine behind.trans ?_
              rw [put]
              cases entries.mapM (readBack schema) with
              | error fault => rfl
              | ok others => simp [Except.map, bind, Except.bind, pure, Except.pure]

theorem readFields_append (front behind : List (String × Json)) (start : Metadata) :
    readFields schema skip (front ++ behind) start =
      readFields schema skip front start >>= readFields schema skip behind := by
  induction front generalizing start with
  | nil => rfl
  | cons field front ih =>
      obtain ⟨name, value⟩ := field
      rw [List.cons_append, readFields, readFields]
      split
      · exact ih start
      · cases readField schema name value with
        | error fault => rfl
        | ok found =>
            cases found with
            | none => exact ih start
            | some found => exact ih _

/-- Metadata comes back from a record, beside a field of another name, exactly when each of its fields
does. -/
theorem ofJsonFields_iff {metadata : Metadata} {other : String} (apart : other ∉ metadata.keys)
    (content : Json) :
    ofJsonFields schema [other] (metadata.toJsonFields ++ [(other, content)]) = .ok metadata ↔
      ∀ entry ∈ metadata.entries, schema.Recovers entry.1 entry.2 := by
  have kept : ∀ entry ∈ metadata.entries, entry.1 ∉ [other] := by
    intro entry member same
    rw [List.mem_singleton] at same
    exact apart (same ▸ List.mem_map_of_mem member)
  have last (read : Metadata) : readFields schema [other] [(other, content)] read = .ok read := by
    simp [readFields]
  have found := entries_readFields schema kept .empty metadata.distinct
  rw [ofJsonFields, readFields_append, bind_eq_ok_iff]
  simp only [last, Except.ok.injEq, exists_eq_right, ← readBack_eq_self_iff]
  rw [← mapM_eq_self_iff]
  constructor
  · intro read
    rw [toJsonFields] at read
    rw [read] at found
    obtain ⟨entries, each, same⟩ := map_eq_ok_iff.1 found.symm
    exact same ▸ each
  · intro each
    rw [each] at found
    obtain ⟨read, done, same⟩ := map_eq_ok_iff.1 found
    rw [toJsonFields, done, Fields.ext_entries same]

end Metadata

end DocPress
