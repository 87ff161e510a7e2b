import DocPress.Proofs.Metadata.Record
import DocPress.Proofs.Text
import DocPress.Proofs.Yaml.Parse

/-!
Metadata written as a header. What a schema has given is written so that the same schema reads it back,
but for dates with a year that is written with a sign, and for headers whose last line is not ended.
-/

namespace DocPress

/-! ### Lines of headers -/

namespace Header

variable {format : HeaderFormat} {lines : List (List Char)} {entries : List (String × Yaml.Flat)}

theorem not_isDelimiter {line : List Char} (unmarked : ¬Yaml.dashes <+: line) :
    HeaderFormat.yaml.isDelimiter line = false := by
  refine decide_eq_false fun same => unmarked ?_
  rw [show Yaml.dashes = Text.trimEnd line from same.symm]
  exact Text.dropEndWhile_isPrefix _ _

/-- The lines in front of the first delimiter. -/
theorem splitLines?_append (inner : ∀ line ∈ lines, format.isDelimiter line = false)
    {closing : List Char} (closes : format.isDelimiter closing = true) (behind : List (List Char)) :
    splitLines? format (lines ++ closing :: behind) = some (lines, behind) := by
  induction lines with
  | nil => rw [List.nil_append, splitLines?, if_pos closes]
  | cons line more ih =>
      obtain ⟨here, others⟩ := List.forall_mem_cons.1 inner
      rw [List.cons_append, splitLines?, here, if_neg Bool.false_ne_true, ih others]
      rfl

theorem splitLines?_eq_none (inner : ∀ line ∈ lines, format.isDelimiter line = false) :
    splitLines? format lines = none := by
  induction lines with
  | nil => rfl
  | cons line more ih =>
      obtain ⟨here, others⟩ := List.forall_mem_cons.1 inner
      rw [splitLines?, here, if_neg Bool.false_ne_true, ih others]
      rfl

/-- A written map between delimiters. -/
def enclosed (entries : List (String × Yaml.Flat)) : List Char :=
  "---\n".toList ++ (Yaml.mapChars entries ++ "---\n".toList)

theorem split_enclosed : split (enclosed entries) =
    match splitLines? .yaml (Text.linesWithEnds (Yaml.mapChars entries ++ "---\n".toList)) with
    | none => .error ⟨1, .unclosed "---"⟩
    | some (header, body) => .ok (some ⟨.yaml, header.flatten, header.length + 2, body.flatten⟩) := by
  have lines (rest : List Char) : Text.linesWithEnds ("---\n".toList ++ rest) =
      "---\n".toList :: Text.linesWithEnds rest := Text.linesWithEnds_append (.inr rfl) rest
  have noMark : Text.withoutMark (enclosed entries) = enclosed entries := rfl
  have opens : HeaderFormat.ofLine? "---\n".toList = some .yaml := by decide
  rw [split, noMark, enclosed, lines]
  dsimp only
  rw [opens]
  rfl

/-- A written map whose last line is ended is the text of its header. -/
theorem split_enclosed_closed (ends : Yaml.endsLine entries = true) :
    ∃ line, split (enclosed entries) = .ok (some ⟨.yaml, Yaml.mapChars entries, line, []⟩) := by
  have ended : Yaml.mapChars entries = [] ∨ (Yaml.mapChars entries).getLast? = some '\n' := by
    cases entries with
    | nil => exact .inl rfl
    | cons entry more => exact .inr ((Yaml.getLast?_mapChars (List.cons_ne_nil _ _)).2 ends)
  have unmarked : Yaml.IsUnmarked true (Yaml.mapChars entries) := by
    rw [← List.append_nil (Yaml.mapChars entries)]
    exact Yaml.isUnmarked_mapChars trivial
  have inner : ∀ line ∈ Text.linesWithEnds (Yaml.mapChars entries),
      HeaderFormat.yaml.isDelimiter line = false := fun line member =>
    not_isDelimiter (unmarked.lines line member)
  have closes : HeaderFormat.yaml.isDelimiter "---\n".toList = true := by decide
  refine ⟨(Text.linesWithEnds (Yaml.mapChars entries)).length + 2, ?_⟩
  rw [split_enclosed, Text.linesWithEnds_append ended,
    show Text.linesWithEnds "---\n".toList = ["---\n".toList] from rfl,
    splitLines?_append inner closes]
  dsimp only
  rw [Text.flatten_linesWithEnds]
  rfl

/-- Behind a last line that is not ended the closing delimiter is none. -/
theorem split_enclosed_open (open' : Yaml.endsLine entries = false) :
    split (enclosed entries) = .error ⟨1, .unclosed "---"⟩ := by
  have unmarked : Yaml.IsUnmarked true (Yaml.mapChars entries ++ "---\n".toList) := by
    refine Yaml.isUnmarked_mapChars ?_
    rw [open']
    exact ⟨fun no => (by cases no), fun no => (by cases no), fun no => (by cases no),
      fun no => (by cases no), trivial⟩
  rw [split_enclosed, splitLines?_eq_none fun line member => not_isDelimiter (unmarked.lines line member)]

/-! ### Fields -/

/-- The value that a value of a flat map is read as. -/
def rawOf : Yaml.Flat → RawValue
  | .text value => .text value
  | .flag value => .flag value
  | .list items => .list items

theorem ofYamlValue_toValue (key : String) (value : Yaml.Flat) :
    ofYamlValue key value.toValue = .ok (some (rawOf value)) := by
  cases value with
  | text | flag => rfl
  | list items =>
      have texts : (items.map Yaml.Value.string).mapM yamlScalar? = some items := by
        induction items with
        | nil => rfl
        | cons item items ih =>
            rw [List.map_cons, List.mapM_cons, ih]
            rfl
      rw [Yaml.Flat.toValue, ofYamlValue, texts]
      rfl

theorem ofYamlEntries_toValue (header : Header) (entries : List (String × Yaml.Flat)) :
    header.ofYamlEntries (entries.map fun entry => (.string entry.1, entry.2.toValue)) =
      .ok (entries.map fun entry => (entry.1, rawOf entry.2)) := by
  induction entries with
  | nil => rfl
  | cons entry more ih =>
      rw [List.map_cons, ofYamlEntries]
      simp only [yamlKey?, ofYamlValue_toValue, ih]
      rfl

/-- A written map is not blank: there is a colon in it. -/
theorem isBlank_mapChars (filled : entries ≠ []) : (Yaml.mapChars entries).all Text.isBlank = false := by
  cases entries with
  | nil => exact absurd rfl filled
  | cons entry more =>
      have colon : ':' ∈ Yaml.mapChars (entry :: more) := by
        rw [Yaml.mapChars, List.flatMap_cons, Yaml.entryChars_eq]
        exact List.mem_append_left _
          (List.mem_append_left _ (List.mem_of_getLast? (Yaml.getLast?_keyChars entry.1)))
      rw [List.all_eq_false]
      exact ⟨':', colon, by decide⟩

/-- The fields of a header that holds a written map. -/
theorem fields_mapChars (distinct : (entries.map (·.1)).Nodup) (line : Nat) (body : List Char) :
    fields ⟨.yaml, Yaml.mapChars entries, line, body⟩ =
      .ok (entries.map fun entry => (entry.1, rawOf entry.2)) := by
  rw [fields, readYaml]
  dsimp only
  cases entries with
  | nil => rfl
  | cons entry more =>
      rw [isBlank_mapChars (List.cons_ne_nil _ _), if_neg Bool.false_ne_true,
        Yaml.parse_mapChars (List.cons_ne_nil _ _) distinct]
      exact ofYamlEntries_toValue _ _

/-- Fields that are given their types go through in order. -/
theorem exists_coerceFields {schema : Schema} {header : Header} {fields : List (String × MetaValue)}
    {raw : String × MetaValue → RawValue}
    (typed : ∀ field ∈ fields, schema.coerce field.1 (raw field) = .ok field.2) :
    ∀ {start : Metadata}, ((start.entries ++ fields).map (·.1)).Nodup →
      ∃ metadata, header.coerceFields schema (fields.map fun field => (field.1, raw field)) start =
        .ok metadata ∧ metadata.entries = start.entries ++ fields := by
  induction fields with
  | nil =>
      intro start _
      exact ⟨start, rfl, (List.append_nil _).symm⟩
  | cons field more ih =>
      intro start distinct
      obtain ⟨here, others⟩ := List.forall_mem_cons.1 typed
      have absent : field.1 ∉ start.keys := by
        rw [List.map_append, List.nodup_append] at distinct
        exact fun member => distinct.2.2 field.1 member field.1 (by simp) rfl
      have entries := @Fields.entries_insert_of_not_mem _ field.1 field.2 start absent
      obtain ⟨metadata, read, whole⟩ := @ih others (start.insert field.1 field.2) (by simpa [entries] using distinct)
      refine ⟨metadata, ?_, by simp [whole, entries]⟩
      rw [List.map_cons, coerceFields, here]
      exact read

/-- Where fields go through, each one is given a type. -/
theorem coerce_of_coerceFields {schema : Schema} {header : Header} {fields : List (String × RawValue)}
    {start metadata : Metadata} (read : header.coerceFields schema fields start = .ok metadata) :
    ∀ field ∈ fields, ∃ value, schema.coerce field.1 field.2 = .ok value := by
  induction fields generalizing start with
  | nil => exact fun _ no => absurd no List.not_mem_nil
  | cons field more ih =>
      obtain ⟨key, raw⟩ := field
      rw [coerceFields] at read
      cases typed : schema.coerce key raw with
      | error fault => rw [typed] at read; cases read
      | ok value =>
          rw [typed] at read
          exact List.forall_mem_cons.2 ⟨⟨value, typed⟩, ih read⟩

end Header

/-! ### Types of written values -/

namespace Schema

variable {schema : Schema} {name : String} {raw : RawValue} {value : MetaValue}

/-- A value that a declared type has been given to has it again as it is written. -/
theorem typed_toFlat {spec : FieldSpec} (given : typed spec name raw = .ok value)
    (plain : value.HasPlainYear) : typed spec name (Header.rawOf value.toFlat) = .ok value := by
  have same := type_of_typed given
  obtain ⟨own, type, required⟩ := spec
  obtain rfl : value.type = type := same
  cases value with
  | text | flag | list => rfl
  | date date =>
      have read : Instant.parse? date.format = some date := by
        rw [Instant.parse?_format]
        exact if_pos plain
      simp [typed, MetaValue.type, MetaValue.toFlat, Header.rawOf, read]

/-- What a schema has given comes back from its written form, unless it is a date with a year that is
written with a sign. -/
theorem coerce_toFlat (given : schema.coerce name raw = .ok value) (plain : value.HasPlainYear) :
    schema.coerce name (Header.rawOf value.toFlat) = .ok value := by
  rw [coerce] at given ⊢
  cases declared : schema.field? name with
  | some spec =>
      rw [declared] at given
      exact typed_toFlat given plain
  | none =>
      rw [declared] at given
      dsimp only at given ⊢
      split at given
      case isTrue => cases given
      case isFalse lax =>
          rw [if_neg lax]
          obtain rfl := Except.ok.inj given
          cases raw <;> rfl

/-- Such a date is refused. -/
theorem hasPlainYear_of_coerce {other : MetaValue} (given : schema.coerce name raw = .ok value)
    (read : schema.coerce name (Header.rawOf value.toFlat) = .ok other) : value.HasPlainYear := by
  cases value with
  | text | flag | list => trivial
  | date date =>
      have accepts := accepts_of_coerce given
      rw [Accepts] at accepts
      rw [coerce] at read
      cases declared : schema.field? name with
      | none =>
          rw [declared] at accepts
          exact absurd rfl accepts
      | some spec =>
          obtain ⟨own, type, required⟩ := spec
          rw [declared] at accepts read
          obtain rfl : FieldType.date = type := accepts
          change DocPress.Instant.HasPlainYear date
          by_contra sign
          simp [typed, MetaValue.toFlat, Header.rawOf, Instant.parse?_format, sign] at read

end Schema

/-! ### Headers of metadata -/

namespace Metadata

/-- The entries of metadata as they are written. -/
def flatEntries (metadata : Metadata) : List (String × Yaml.Flat) :=
  metadata.entries.map fun entry => (entry.1, entry.2.toFlat)

/-- Whether the last line of metadata is ended by a line feed where it is written: the last text in it
is not a block that ends in a line end of another kind. -/
def endsLine (metadata : Metadata) : Bool :=
  metadata.entries.getLast?.all fun entry => entry.2.toFlat.endsLine

theorem endsLine_flatEntries (metadata : Metadata) :
    Yaml.endsLine metadata.flatEntries = metadata.endsLine := by
  rw [Yaml.endsLine, flatEntries, List.getLast?_map, endsLine]
  cases metadata.entries.getLast? <;> rfl

theorem toList_toHeader (metadata : Metadata) :
    metadata.toHeader.toList = Header.enclosed metadata.flatEntries := by
  have map : (Yaml.writeMap metadata.flatEntries).toList = Yaml.mapChars metadata.flatEntries :=
    String.toList_ofList
  rw [toHeader, String.toList_append, String.toList_append, ← flatEntries, map, List.append_assoc]
  rfl

end Metadata

variable {schema : Schema}

/-- What a header of metadata is read as, if its last line is ended. -/
theorem extract_toHeader_of_endsLine {metadata : Metadata} (ends : metadata.endsLine = true) :
    ∃ header : Header, extract schema metadata.toHeader =
      (header.coerceFields schema
        (metadata.entries.map fun entry => (entry.1, Header.rawOf entry.2.toFlat)) .empty).map
          fun read => ⟨read, "", header.closingLine⟩ := by
  rw [← Metadata.endsLine_flatEntries] at ends
  obtain ⟨line, split⟩ := Header.split_enclosed_closed ends
  have distinct : (metadata.flatEntries.map (·.1)).Nodup := by
    have keys : metadata.flatEntries.map (·.1) = metadata.entries.map (·.1) := by
      simp [Metadata.flatEntries]
    rw [keys]
    exact metadata.distinct
  have fields := Header.fields_mapChars distinct line []
  refine ⟨⟨.yaml, Yaml.mapChars metadata.flatEntries, line, []⟩, ?_⟩
  have raws : metadata.flatEntries.map (fun entry => (entry.1, Header.rawOf entry.2)) =
      metadata.entries.map fun entry => (entry.1, Header.rawOf entry.2.toFlat) := by
    simp [Metadata.flatEntries]
  rw [extract, Metadata.toList_toHeader, split]
  dsimp only [bind, Except.bind]
  rw [Header.metadata, fields, raws]
  dsimp only [bind, Except.bind]
  cases Header.coerceFields _ _ _ _ <;> rfl

/-- Metadata that is read from a source is read back from its header, with the same fields in the same
order, exactly when its dates have years of four digits and its last line is ended. -/
theorem extract_toHeader_iff {source : String} {extracted : Extracted}
    (read : extract schema source = .ok extracted) :
    (extract schema extracted.metadata.toHeader).map (·.metadata) = .ok extracted.metadata ↔
      (∀ entry ∈ extracted.metadata.entries, entry.2.HasPlainYear) ∧
        extracted.metadata.endsLine = true := by
  have given := gives_extract read
  cases ends : extracted.metadata.endsLine with
  | false =>
      -- Behind a line that is not ended the closing delimiter is no line of its own.
      have split := Header.split_enclosed_open
        ((Metadata.endsLine_flatEntries extracted.metadata).trans ends)
      have refused : extract schema extracted.metadata.toHeader = .error ⟨1, .unclosed "---"⟩ := by
        rw [extract, Metadata.toList_toHeader, split]
        rfl
      rw [refused]
      simp [Except.map]
  | true =>
      obtain ⟨header, back⟩ := @extract_toHeader_of_endsLine schema _ ends
      rw [back, and_iff_left rfl]
      constructor
      · intro same entry member
        obtain ⟨raw, coerced⟩ := given entry member
        obtain ⟨again, whole, -⟩ := map_eq_ok_iff.1 same
        obtain ⟨other, through, -⟩ := map_eq_ok_iff.1 whole
        obtain ⟨value, typed⟩ := Header.coerce_of_coerceFields through
          (entry.1, Header.rawOf entry.2.toFlat) (List.mem_map_of_mem member)
        exact Schema.hasPlainYear_of_coerce coerced typed
      · intro plain
        have typed : ∀ entry ∈ extracted.metadata.entries,
            schema.coerce entry.1 (Header.rawOf entry.2.toFlat) = .ok entry.2 := fun entry member => by
          obtain ⟨raw, coerced⟩ := given entry member
          exact Schema.coerce_toFlat coerced (plain entry member)
        obtain ⟨metadata, through, entries⟩ :=
          @Header.exists_coerceFields schema header _ _ typed .empty extracted.metadata.distinct
        rw [through, Fields.ext_entries (show metadata.entries = extracted.metadata.entries from entries)]
        rfl

/-- A post of a title, a date and a note. -/
def notedPost (date note : String) : String :=
  "---\ntitle: T\ndate: \"" ++ date ++ "\"\nnote: \"" ++ note ++ "\"\n---\nx\n"

set_option maxRecDepth 10000 in
/-- A post with a date of this millennium and a note of two lines keeps its metadata. -/
theorem extract_toHeader_notedPost :
    ∃ extracted, extract .blog (notedPost "2023-01-01" "a\\nb") = .ok extracted ∧
      (extract .blog extracted.metadata.toHeader).map (·.metadata) = .ok extracted.metadata := by
  obtain ⟨extracted, read, rewritable⟩ := @exists_ok_of_any _ _ (extract .blog (notedPost "2023-01-01" "a\\nb"))
    (fun extracted => decide ((∀ entry ∈ extracted.metadata.entries, entry.2.HasPlainYear) ∧
      extracted.metadata.endsLine = true)) (by decide +kernel)
  exact ⟨extracted, read, (extract_toHeader_iff read).2 (of_decide_eq_true rewritable)⟩

/-- Whether metadata is not what is read from its header. -/
def isLostAsHeader (metadata : Metadata) : Bool :=
  (extract .blog metadata.toHeader).toOption.map (·.metadata) != some metadata

theorem exists_extract_toHeader_ne {source : String}
    (lost : (extract .blog source).toOption.any (fun extracted => isLostAsHeader extracted.metadata) = true) :
    ∃ extracted, extract .blog source = .ok extracted ∧
      (extract .blog extracted.metadata.toHeader).map (·.metadata) ≠ .ok extracted.metadata := by
  obtain ⟨extracted, read, lost⟩ := exists_ok_of_any lost
  refine ⟨extracted, read, fun same => ?_⟩
  obtain ⟨back, read', own⟩ := map_eq_ok_iff.1 same
  rw [isLostAsHeader, read'] at lost
  simp [Except.toOption, own] at lost

set_option maxRecDepth 10000 in
/-- A date after the year 9999 and a note that ends in a line separator are each lost. -/
theorem extract_toHeader_ne :
    (∃ extracted, extract .blog (notedPost "+12345-01-01" "a\\nb") = .ok extracted ∧
      (extract .blog extracted.metadata.toHeader).map (·.metadata) ≠ .ok extracted.metadata) ∧
    (∃ extracted, extract .blog (notedPost "2023-01-01" "a\\nb\\L") = .ok extracted ∧
      (extract .blog extracted.metadata.toHeader).map (·.metadata) ≠ .ok extracted.metadata) :=
  ⟨exists_extract_toHeader_ne (by decide +kernel), exists_extract_toHeader_ne (by decide +kernel)⟩

end DocPress
