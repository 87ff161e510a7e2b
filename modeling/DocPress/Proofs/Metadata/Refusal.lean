import DocPress.Proofs.Metadata.Header
import DocPress.Proofs.Yaml.Stops

/-!
Where headers start and end, why they are refused, and at which line. A source is divided into the line
that opens its header, the header, the first line behind it that closes it, and the body, and nothing is
lost in between.

A header is refused because the reader of the format stops, because it is no map of texts, or because the
value of one of its fields is refused; that is all, and each of them comes with a line of its own. That is
one of the lines of the header or the line that closes it, unless the reader of YAML stops behind more
lines than the document has there: it also ends lines at carriage returns and at the separators of
Unicode, and documents do not.
-/

namespace DocPress

/-! ### Fields that are refused -/

/-- The field whose value is refused. -/
def MetadataFault.field? : MetadataFault → Option String
  | .unknownField name | .mismatch name _ _ | .invalidDate name _ | .nestedList name
  | .unsupportedValue name => some name
  | .missingField _ | .notMapping | .keyNotText | .unclosed _ | .unreadable _ => none

/-- A value that a schema refuses is refused as that of its field. -/
theorem Schema.field?_of_coerce {schema : Schema} {name : String} {raw : RawValue}
    {fault : MetadataFault} (refused : schema.coerce name raw = .error fault) :
    fault.field? = some name := by
  rw [coerce] at refused
  split at refused
  case _ spec _ =>
    obtain ⟨own, type, required⟩ := spec
    rw [typed.eq_def] at refused
    cases raw <;> cases type <;> dsimp only at refused <;> (repeat' split at refused) <;>
      cases refused <;> rfl
  case _ => split at refused <;> cases refused; rfl

/-! ### Parts of sources -/

/-- A line opens a header exactly when it is a delimiter but for blanks at its end. -/
theorem HeaderFormat.ofLine?_eq_some_iff {line : List Char} {format : HeaderFormat} :
    ofLine? line = some format ↔ Text.trimEnd line = format.delimiter.toList := by
  rw [ofLine?, List.find?_cons, List.find?_singleton]
  by_cases yaml : Text.trimEnd line = HeaderFormat.yaml.delimiter.toList
  · rw [isDelimiter, decide_eq_true yaml, yaml]
    dsimp only
    cases format <;> decide
  · rw [isDelimiter, decide_eq_false yaml]
    dsimp only
    by_cases toml : Text.trimEnd line = HeaderFormat.toml.delimiter.toList
    · rw [isDelimiter, decide_eq_true toml, if_pos rfl, toml]
      cases format <;> decide
    · rw [isDelimiter, decide_eq_false toml, if_neg Bool.false_ne_true]
      cases format <;> simp [yaml, toml]

/-- A line opens no header when it is no delimiter. -/
theorem HeaderFormat.ofLine?_eq_none_iff {line : List Char} :
    ofLine? line = none ↔ ∀ format : HeaderFormat, Text.trimEnd line ≠ format.delimiter.toList := by
  rw [Option.eq_none_iff_forall_ne_some]
  exact forall_congr' fun format => not_congr ofLine?_eq_some_iff

namespace Header

variable {source : List Char} {header : Header} {format : HeaderFormat}
  {lines front behind : List (List Char)}

/-- How a text is divided by the header that it opens with: the opening line, the header, the first line
behind that equals its delimiter, and the body, to the character and line by line. -/
structure Divides (header : Header) (text opening closing : List Char) : Prop where
  whole : text = opening ++ header.text ++ closing ++ header.body
  lines : Text.linesWithEnds text = opening ::
    (Text.linesWithEnds header.text ++ closing :: Text.linesWithEnds header.body)
  opens : Text.trimEnd opening = header.format.delimiter.toList
  inner : ∀ line ∈ Text.linesWithEnds header.text,
    Text.trimEnd line ≠ header.format.delimiter.toList
  closes : Text.trimEnd closing = header.format.delimiter.toList
  closingLine : header.closingLine = 2 + (Text.linesWithEnds header.text).length

/-- Lines are not split when none of them is the delimiter. -/
theorem splitLines?_eq_none_iff : splitLines? format lines = none ↔
    ∀ line ∈ lines, Text.trimEnd line ≠ format.delimiter.toList := by
  induction lines with
  | nil => simp [splitLines?]
  | cons line more ih =>
      rw [splitLines?, List.forall_mem_cons]
      split
      case isTrue closes => simp [of_decide_eq_true closes]
      case isFalse other =>
        have inner : Text.trimEnd line ≠ format.delimiter.toList :=
          fun same => other (decide_eq_true same)
        rw [Option.map_eq_none_iff, ih, and_iff_right inner]

/-- What lies in front of the first delimiter among lines. -/
theorem exists_of_splitLines? (parts : splitLines? format lines = some (front, behind)) :
    ∃ closing, lines = front ++ closing :: behind ∧
      Text.trimEnd closing = format.delimiter.toList ∧
      ∀ line ∈ front, Text.trimEnd line ≠ format.delimiter.toList := by
  induction lines generalizing front with
  | nil => cases parts
  | cons line more ih =>
      rw [splitLines?] at parts
      split at parts
      case isTrue closes =>
        cases parts
        exact ⟨line, rfl, of_decide_eq_true closes, by simp⟩
      case isFalse other =>
        obtain ⟨⟨first, rest⟩, found, same⟩ := Option.map_eq_some_iff.1 parts
        cases same
        obtain ⟨closing, rfl, closes, inner⟩ := ih found
        exact ⟨closing, rfl, closes,
          List.forall_mem_cons.2 ⟨fun same => other (decide_eq_true same), inner⟩⟩

/-- A source has no header exactly when it is empty or its first line is no delimiter. -/
theorem split_eq_none_iff : split source = .ok none ↔
    Text.withoutMark source = [] ∨ ∃ opening later,
      Text.linesWithEnds (Text.withoutMark source) = opening :: later ∧
        ∀ format : HeaderFormat, Text.trimEnd opening ≠ format.delimiter.toList := by
  have whole := Text.flatten_linesWithEnds (Text.withoutMark source)
  rw [split]
  cases lines : Text.linesWithEnds (Text.withoutMark source) with
  | nil =>
      rw [lines] at whole
      simp [← whole]
  | cons opening later =>
      rw [lines] at whole
      have filled : Text.withoutMark source ≠ [] := by
        intro empty
        rw [empty] at lines
        cases lines
      simp only [filled, false_or, List.cons.injEq]
      cases opens : HeaderFormat.ofLine? opening with
      | none => simpa using HeaderFormat.ofLine?_eq_none_iff.1 opens
      | some format =>
          have same := HeaderFormat.ofLine?_eq_some_iff.1 opens
          dsimp only
          constructor
          · intro split
            cases found : splitLines? format later <;> rw [found] at split <;> cases split
          · rintro ⟨_, _, ⟨rfl, rfl⟩, none⟩
            exact absurd same (none format)

/-- A source is refused, at its first line, exactly when that is a delimiter and no later line is. -/
theorem split_eq_error_iff {error : MetadataError} : split source = .error error ↔
    ∃ (format : HeaderFormat) (opening : List Char) (later : List (List Char)),
      Text.linesWithEnds (Text.withoutMark source) = opening :: later ∧
        Text.trimEnd opening = format.delimiter.toList ∧
        (∀ line ∈ later, Text.trimEnd line ≠ format.delimiter.toList) ∧
        error = ⟨1, .unclosed format.delimiter⟩ := by
  rw [split]
  cases lines : Text.linesWithEnds (Text.withoutMark source) with
  | nil => simp
  | cons opening later =>
      simp only [List.cons.injEq]
      cases opens : HeaderFormat.ofLine? opening with
      | none =>
          constructor
          · intro no
            cases no
          · rintro ⟨format, _, _, ⟨rfl, rfl⟩, same, -⟩
            exact absurd same (HeaderFormat.ofLine?_eq_none_iff.1 opens format)
      | some format =>
          have same := HeaderFormat.ofLine?_eq_some_iff.1 opens
          dsimp only
          constructor
          · intro split
            cases found : splitLines? format later with
            | none =>
                rw [found] at split
                cases split
                exact ⟨format, _, _, ⟨rfl, rfl⟩, same, splitLines?_eq_none_iff.1 found, rfl⟩
            | some parts => rw [found] at split; cases split
          · rintro ⟨format', _, _, ⟨rfl, rfl⟩, same', inner, rfl⟩
            have formats : some format' = some format :=
              (HeaderFormat.ofLine?_eq_some_iff.2 same').symm.trans opens
            cases formats
            rw [splitLines?_eq_none_iff.2 inner]

/-- A header divides the source that it is split off. -/
theorem divides_of_split (found : split source = .ok (some header)) :
    ∃ opening closing, header.Divides (Text.withoutMark source) opening closing := by
  have whole := Text.flatten_linesWithEnds (Text.withoutMark source)
  rw [split] at found
  cases lines : Text.linesWithEnds (Text.withoutMark source) with
  | nil => rw [lines] at found; cases found
  | cons opening later =>
      rw [lines] at found
      dsimp only at found
      cases opens : HeaderFormat.ofLine? opening with
      | none => rw [opens] at found; cases found
      | some format =>
          rw [opens] at found
          dsimp only at found
          cases cut : splitLines? format later with
          | none => rw [cut] at found; cases found
          | some parts =>
              obtain ⟨front, behind⟩ := parts
              rw [cut] at found
              cases found
              obtain ⟨closing, rfl, closes, inner⟩ := exists_of_splitLines? cut
              obtain ⟨-, more, -⟩ := Text.linesWithEnds_of_cons lines
              obtain ⟨header, rest⟩ := Text.linesWithEnds_flatten more
              obtain ⟨-, body, -⟩ := Text.linesWithEnds_of_cons rest
              refine ⟨opening, closing, ?_, ?_, HeaderFormat.ofLine?_eq_some_iff.1 opens, ?_, closes, ?_⟩
              · rw [← whole, lines]
                simp
              · rw [lines, header, body]
              · rwa [header]
              · rw [header, Nat.add_comm]

/-! ### Reasons -/

variable {key : String} {fault : MetadataFault} {error : MetadataError}

/-- The keys of a map of YAML that are texts. -/
def keysOf (entries : List (Yaml.Value × Yaml.Value)) : List String :=
  entries.filterMap fun entry => yamlKey? entry.1

theorem keysOf_cons {name value : Yaml.Value} (named : yamlKey? name = some key)
    (rest : List (Yaml.Value × Yaml.Value)) : keysOf ((name, value) :: rest) = key :: keysOf rest := by
  rw [keysOf, List.filterMap_cons]
  simp only [named, keysOf]

theorem keysOf_subset_cons (entry : Yaml.Value × Yaml.Value) (rest : List (Yaml.Value × Yaml.Value)) :
    keysOf rest ⊆ keysOf (entry :: rest) := by
  rw [keysOf, keysOf, List.filterMap_cons]
  split
  · exact List.Subset.refl _
  · exact List.subset_cons_self _ _

/-- The keys of the fields that the reader of its format finds in a header. -/
def keys (header : Header) : List String :=
  match header.format with
  | .yaml =>
    match Yaml.parse (String.ofList header.text) with
    | .ok (.mapping entries) => keysOf entries
    | _ => []
  | .toml =>
    match Toml.parse (String.ofList header.text) with
    | .ok entries => entries.map (·.1)
    | .error _ => []

/-- How a header is refused, and at which line of the document. -/
inductive Refuses (header : Header) : MetadataError → Prop where
  | yaml {error : Yaml.ReadError} (format : header.format = .yaml)
      (stops : Yaml.parse (String.ofList header.text) = .error error) :
      header.Refuses
        ⟨firstLine + (error.mark?.map (·.line)).getD 0, .unreadable error.message⟩
  | toml {fault : Toml.Fault} (format : header.format = .toml)
      (stops : Toml.parse (String.ofList header.text) = .error fault) :
      header.Refuses ⟨firstLine + fault.linesBefore header.text, .unreadable fault.message⟩
  | notMapping {value : Yaml.Value} (read : Yaml.parse (String.ofList header.text) = .ok value) :
      header.Refuses ⟨firstLine, .notMapping⟩
  | keyNotText {value : Yaml.Value} (read : Yaml.parse (String.ofList header.text) = .ok value) :
      header.Refuses ⟨firstLine, .keyNotText⟩
  | field {key : String} {fault : MetadataFault} (member : key ∈ header.keys)
      (about : fault.field? = some key) : header.Refuses ⟨header.keyLine key, fault⟩

/-- The value of a field is refused in the name of the field. -/
theorem field?_ofYamlValue {value : Yaml.Value} (refused : ofYamlValue key value = .error fault) :
    fault.field? = some key := by
  rw [ofYamlValue.eq_def] at refused
  split at refused <;> (try split at refused) <;> cases refused <;> rfl

/-- The value of a field is refused in the name of the field. -/
theorem field?_ofTomlValue {value : Toml.Value} (refused : ofTomlValue key value = .error fault) :
    fault.field? = some key := by
  rw [ofTomlValue.eq_def] at refused
  split at refused <;> (try split at refused) <;> cases refused <;> rfl

/-- A map of YAML is refused for a key that is no text or for the value of one of its keys. -/
theorem of_ofYamlEntries_eq_error {entries : List (Yaml.Value × Yaml.Value)}
    (refused : header.ofYamlEntries entries = .error error) :
    error = ⟨firstLine, .keyNotText⟩ ∨
      ∃ key ∈ keysOf entries, ∃ fault : MetadataFault,
        fault.field? = some key ∧ error = ⟨header.keyLine key, fault⟩ := by
  induction entries with
  | nil => cases refused
  | cons entry rest ih =>
      have later (refused : header.ofYamlEntries rest = .error error) :
          error = ⟨firstLine, .keyNotText⟩ ∨
            ∃ key ∈ keysOf (entry :: rest), ∃ fault : MetadataFault,
              fault.field? = some key ∧ error = ⟨header.keyLine key, fault⟩ := by
        refine (ih refused).imp_right ?_
        rintro ⟨key, member, about⟩
        exact ⟨key, keysOf_subset_cons entry rest member, about⟩
      obtain ⟨name, value⟩ := entry
      rw [ofYamlEntries] at refused
      split at refused
      case _ => exact .inl (Except.error.inj refused).symm
      case _ key named =>
        split at refused
        case _ fault bad =>
          refine .inr ⟨key, ?_, fault, field?_ofYamlValue bad, (Except.error.inj refused).symm⟩
          rw [keysOf_cons named]
          exact List.mem_cons_self
        case _ => exact later refused
        case _ =>
          rcases bind_eq_error_iff.1 refused with refused | ⟨_, -, none⟩
          · exact later refused
          · cases none

/-- The fields of a map of YAML are among its keys. -/
theorem mem_of_ofYamlEntries_eq_ok {entries : List (Yaml.Value × Yaml.Value)}
    {fields : List (String × RawValue)} (read : header.ofYamlEntries entries = .ok fields) :
    ∀ field ∈ fields, field.1 ∈ keysOf entries := by
  induction entries generalizing fields with
  | nil =>
      cases read
      exact fun _ no => absurd no List.not_mem_nil
  | cons entry rest ih =>
      obtain ⟨name, value⟩ := entry
      rw [ofYamlEntries] at read
      split at read
      case _ => cases read
      case _ key named =>
        rw [keysOf_cons named]
        split at read
        case _ => cases read
        case _ => exact fun field member => List.mem_cons_of_mem _ (ih read field member)
        case _ =>
          obtain ⟨others, behind, read⟩ := bind_eq_ok_iff.1 read
          obtain rfl := pure_eq_ok_iff.1 read
          exact List.forall_mem_cons.2 ⟨List.mem_cons_self, fun field member =>
            List.mem_cons_of_mem _ (ih behind field member)⟩

/-- A header whose fields are refused is refused for the same. -/
theorem refuses_of_fields (refused : header.fields = .error error) : header.Refuses error := by
  rw [fields] at refused
  -- Each failure of a reader is matched with the reason that is told for it.
  cases format : header.format with
  | yaml =>
      rw [format] at refused
      dsimp only at refused
      rw [readYaml] at refused
      split at refused
      case isTrue => cases refused
      case isFalse =>
        split at refused
        case _ fault stops => exact Except.error.inj refused ▸ .yaml format stops
        case _ entries read =>
          rcases of_ofYamlEntries_eq_error refused with rfl | ⟨key, member, fault, about, rfl⟩
          · exact .keyNotText read
          · refine .field ?_ about
            rw [keys, format]
            dsimp only
            rwa [read]
        case _ value _ read => exact Except.error.inj refused ▸ .notMapping read
  | toml =>
      rw [format] at refused
      dsimp only at refused
      rw [readToml] at refused
      split at refused
      case _ fault stops => exact Except.error.inj refused ▸ .toml format stops
      case _ entries read =>
        obtain ⟨⟨key, value⟩, member, refused⟩ := exists_of_mapM_eq_error refused
        dsimp only at refused
        split at refused
        case _ => cases refused
        case _ fault bad =>
          refine Except.error.inj refused ▸ .field ?_ (field?_ofTomlValue bad)
          rw [keys, format]
          dsimp only
          rw [read]
          exact List.mem_map_of_mem member

/-- The fields of a header have keys of the header. -/
theorem mem_keys_of_fields {fields : List (String × RawValue)} (read : header.fields = .ok fields) :
    ∀ field ∈ fields, field.1 ∈ header.keys := by
  rw [Header.fields] at read
  rw [keys]
  cases format : header.format with
  | yaml =>
      rw [format] at read
      dsimp only at read ⊢
      rw [readYaml] at read
      split at read
      case isTrue =>
        cases read
        exact fun _ no => absurd no List.not_mem_nil
      case isFalse =>
        split at read
        case _ => cases read
        case _ entries found =>
          rw [found]
          exact mem_of_ofYamlEntries_eq_ok read
        case _ => cases read
  | toml =>
      rw [format] at read
      dsimp only at read ⊢
      rw [readToml] at read
      split at read
      case _ => cases read
      case _ entries found =>
        rw [found]
        intro field member
        obtain ⟨⟨key, value⟩, inside, step⟩ := exists_of_mapM_eq_ok read field member
        dsimp only at step
        split at step
        case _ =>
          cases step
          exact List.mem_map_of_mem inside
        case _ => cases step

/-- A field that a schema refuses is refused at the line of its key. -/
theorem of_coerceFields_eq_error {schema : Schema} {fields : List (String × RawValue)}
    {start : Metadata} (refused : header.coerceFields schema fields start = .error error) :
    ∃ field ∈ fields, ∃ fault : MetadataFault,
      fault.field? = some field.1 ∧ error = ⟨header.keyLine field.1, fault⟩ := by
  induction fields generalizing start with
  | nil => cases refused
  | cons field rest ih =>
      obtain ⟨key, raw⟩ := field
      rw [coerceFields] at refused
      split at refused
      case _ fault bad =>
        exact ⟨_, List.mem_cons_self, fault, Schema.field?_of_coerce bad,
          (Except.error.inj refused).symm⟩
      case _ =>
        obtain ⟨field, member, about⟩ := ih refused
        exact ⟨field, List.mem_cons_of_mem _ member, about⟩

/-- Headers are refused in no other way. -/
theorem refuses_of_metadata {schema : Schema} (refused : header.metadata schema = .error error) :
    header.Refuses error := by
  rw [metadata] at refused
  rcases bind_eq_error_iff.1 refused with unread | ⟨fields, read, refused⟩
  · exact refuses_of_fields unread
  · obtain ⟨field, member, fault, about, rfl⟩ := of_coerceFields_eq_error refused
    exact .field (mem_keys_of_fields read field member) about

/-! ### Lines -/

/-- The place where the reader of YAML stops, if it does, is behind no more lines than the header has in
the document. -/
def StopsInside (header : Header) : Prop :=
  header.format = .yaml → ∀ fault mark, Yaml.parse (String.ofList header.text) = .error fault →
    fault.mark? = some mark → mark.line ≤ (Text.linesWithEnds header.text).length

/-- The line of a key is none before the first. -/
theorem le_keyLine (header : Header) (key : String) : firstLine ≤ header.keyLine key := by
  rw [keyLine]
  split
  · exact Nat.le_add_right _ _
  · exact Nat.le_refl _

/-- The line of a key is not behind the last line of the header. -/
theorem keyLine_le (header : Header) (key : String) :
    header.keyLine key ≤ firstLine + (Text.linesWithEnds header.text).length := by
  rw [keyLine]
  split
  case _ index found =>
    obtain ⟨inside, -⟩ := List.findIdx?_eq_some_iff_getElem.1 found
    rw [Text.lines, List.length_map] at inside
    omega
  case _ => exact Nat.le_add_right _ _

/-- A fault lies in one of the lines. -/
theorem linesBefore_le (text : List Char) (fault : Toml.Fault) :
    fault.linesBefore text ≤ (Text.linesWithEnds text).length :=
  calc fault.linesBefore text
    _ ≤ text.count '\n' := (List.take_sublist _ _).count_le _
    _ ≤ _ := Text.count_le_length_linesWithEnds text

/-- No refusal is told of a line before the first. -/
theorem Refuses.le_line (refuses : header.Refuses error) : firstLine ≤ error.line := by
  cases refuses with
  | yaml | toml => exact Nat.le_add_right _ _
  | notMapping | keyNotText => exact Nat.le_refl _
  | field => exact header.le_keyLine _

/-- A text that is read stops inside itself. -/
theorem stopsInside_of_ok {value : Yaml.Value}
    (read : Yaml.parse (String.ofList header.text) = .ok value) : header.StopsInside := by
  intro _ fault mark stops
  rw [read] at stops
  cases stops

theorem stopsInside_of_mem_keys {key : String} (member : key ∈ header.keys) : header.StopsInside := by
  intro format fault mark stops
  rw [keys, format] at member
  dsimp only at member
  rw [stops] at member
  cases member

/-- A header is refused at one of its lines or at the line behind them exactly when the reader of YAML
does not stop behind more lines. -/
theorem Refuses.line_le_iff (refuses : header.Refuses error) :
    error.line ≤ firstLine + (Text.linesWithEnds header.text).length ↔ header.StopsInside := by
  cases refuses with
  | @yaml error format stops =>
      constructor
      · intro bounded _ fault mark stops' place
        obtain rfl := Except.error.inj (stops.symm.trans stops')
        rw [place] at bounded
        exact Nat.le_of_add_le_add_left bounded
      · intro inside
        refine Nat.add_le_add_left ?_ _
        cases place : error.mark? with
        | none => exact Nat.zero_le _
        | some mark => exact inside format error mark stops place
  | @toml fault format stops =>
      refine iff_of_true (Nat.add_le_add_left (linesBefore_le header.text fault) _) fun yaml => ?_
      rw [format] at yaml
      cases yaml
  | notMapping read | keyNotText read =>
      exact iff_of_true (Nat.le_add_right _ _) (stopsInside_of_ok read)
  | field member _ => exact iff_of_true (header.keyLine_le _) (stopsInside_of_mem_keys member)

end Header

/-! ### Refused sources -/

/-- A source with a header is refused because its header is. -/
theorem refuses_of_extract {schema : Schema} {source : String} {header : Header}
    {error : MetadataError} (split : Header.split source.toList = .ok (some header))
    (refused : extract schema source = .error error) : header.Refuses error := by
  rw [extract, split] at refused
  rcases bind_eq_error_iff.1 refused with no | ⟨_, found, refused⟩
  · cases no
  · cases found
    rcases bind_eq_error_iff.1 refused with refused | ⟨_, -, no⟩
    · exact Header.refuses_of_metadata refused
    · cases no

/-- Whether the lines of a text end at line feeds only, in the eyes of the reader of YAML too: a carriage
return stands in front of a line feed, and there are no separators of Unicode. -/
def Text.HasPlainEnds : List Char → Prop
  | [] => True
  | c :: rest =>
    (Yaml.isBreak c = true → c = '\n' ∨ c = '\r' ∧ rest.head? = some '\n') ∧ HasPlainEnds rest

instance Text.decidableHasPlainEnds : DecidablePred Text.HasPlainEnds
  | [] => inferInstanceAs (Decidable True)
  | _ :: rest =>
    have := decidableHasPlainEnds rest
    inferInstanceAs (Decidable (_ ∧ _))

namespace Text.HasPlainEnds

variable {text rest : List Char} {c : Char}

/-- Where line ends are plain only a line feed ends a line. -/
theorem eq_of_endsLineAt (plain : HasPlainEnds (c :: rest)) (ends : Yaml.endsLineAt c rest = true) :
    c = '\n' := by
  rw [Yaml.endsLineAt, Bool.and_eq_true] at ends
  obtain ⟨lineEnd, single⟩ := ends
  rcases plain.1 lineEnd with feed | pair
  · exact feed
  · rw [← Bool.decide_and, decide_eq_true pair] at single
    cases single

/-- The reader of YAML counts no more lines in a text with plain ends than there are in the document. A
column other than the first one stands for a line that has begun. -/
theorem linesFrom_le (plain : HasPlainEnds text) (column : Nat) :
    Yaml.linesFrom column text ≤ max (min column 1) (linesWithEnds text).length := by
  induction text generalizing column with
  | nil =>
      rw [Yaml.linesFrom]
      split <;> omega
  | cons c rest ih =>
      rw [Yaml.linesFrom, linesWithEnds]
      split
      case isTrue ends =>
        have behind := ih plain.2 0
        rw [if_pos (plain.eq_of_endsLineAt ends), List.length_cons]
        omega
      case isFalse =>
        have behind := ih plain.2 (column + 1)
        split
        case isTrue =>
          rw [List.length_cons]
          omega
        case isFalse =>
          cases more : linesWithEnds rest with
          | nil =>
              rw [more, List.length_nil] at behind
              rw [List.length_singleton]
              omega
          | cons line lines =>
              rw [more, List.length_cons] at behind
              rw [List.length_cons]
              omega

end Text.HasPlainEnds

/-- In a header whose lines end plainly the reader of YAML stops at one of them or behind the last one. -/
theorem Header.stopsInside_of_hasPlainEnds {header : Header} (plain : Text.HasPlainEnds header.text) :
    header.StopsInside := by
  intro _ fault mark stops place
  have counted := plain.linesFrom_le 0
  have inside := Yaml.line_le_of_parse stops place
  rw [String.toList_ofList] at inside
  omega

/-- A source without a header, one that does not close its header, and one with a header are told apart by
their lines, and the header divides the source to the character. When that is refused, it is at one of its
lines or at the line that closes it, exactly if the reader of YAML does not stop behind more lines; it
never does if all lines end plainly. -/
theorem split_and_refusal (source : String) :
    (Header.split source.toList = .ok none ↔
      Text.withoutMark source.toList = [] ∨ ∃ opening later,
        Text.linesWithEnds (Text.withoutMark source.toList) = opening :: later ∧
          ∀ format : HeaderFormat, Text.trimEnd opening ≠ format.delimiter.toList) ∧
    (∀ error, Header.split source.toList = .error error ↔
      ∃ (format : HeaderFormat) (opening : List Char) (later : List (List Char)),
        Text.linesWithEnds (Text.withoutMark source.toList) = opening :: later ∧
          Text.trimEnd opening = format.delimiter.toList ∧
          (∀ line ∈ later, Text.trimEnd line ≠ format.delimiter.toList) ∧
          error = ⟨1, .unclosed format.delimiter⟩) ∧
    ∀ header, Header.split source.toList = .ok (some header) →
      (∃ opening closing, header.Divides (Text.withoutMark source.toList) opening closing) ∧
      ∀ schema error, extract schema source = .error error →
        1 ≤ error.line ∧ (error.line ≤ header.closingLine ↔ header.StopsInside) ∧
          (Text.HasPlainEnds header.text → error.line ≤ header.closingLine) := by
  refine ⟨Header.split_eq_none_iff, fun _ => Header.split_eq_error_iff, fun header split => ?_⟩
  obtain ⟨opening, closing, divides⟩ := Header.divides_of_split split
  refine ⟨⟨opening, closing, divides⟩, fun schema error refused => ?_⟩
  have refuses := refuses_of_extract split refused
  have closes : error.line ≤ header.closingLine ↔ header.StopsInside := by
    rw [divides.closingLine]
    exact refuses.line_le_iff
  have first : 2 ≤ error.line := refuses.le_line
  exact ⟨by omega, closes, fun plain => closes.2 (Header.stopsInside_of_hasPlainEnds plain)⟩

set_option maxRecDepth 10000 in
/-- A date is refused at its line, in a header whose lines end in carriage returns and line feeds. -/
theorem split_and_refusal_dated :
    Header.split "---\r\ntitle: T\r\ndate: soon\r\n---\r\nText".toList =
        .ok (some ⟨.yaml, "title: T\r\ndate: soon\r\n".toList, 4, "Text".toList⟩) ∧
      Text.HasPlainEnds "title: T\r\ndate: soon\r\n".toList ∧
      extract .blog "---\r\ntitle: T\r\ndate: soon\r\n---\r\nText" =
        .error ⟨3, .invalidDate "date" "soon"⟩ ∧
      1 ≤ 3 ∧ 3 ≤ 4 := by
  have split : Header.split "---\r\ntitle: T\r\ndate: soon\r\n---\r\nText".toList =
      .ok (some ⟨.yaml, "title: T\r\ndate: soon\r\n".toList, 4, "Text".toList⟩) := rfl
  have plain : Text.HasPlainEnds "title: T\r\ndate: soon\r\n".toList := by decide +kernel
  have refused : extract .blog "---\r\ntitle: T\r\ndate: soon\r\n---\r\nText" =
      .error ⟨3, .invalidDate "date" "soon"⟩ := by decide +kernel
  obtain ⟨-, lines⟩ := (split_and_refusal _).2.2 _ split
  obtain ⟨first, -, closes⟩ := lines _ _ refused
  exact ⟨split, plain, refused, first, closes plain⟩

set_option maxRecDepth 10000 in
/-- Behind carriage returns that end no lines of the document, an alias is refused at a line behind the
header. -/
theorem split_and_refusal_behind :
    Header.split "---\na: 1\r\r\r\rb: *x\n---\n".toList =
        .ok (some ⟨.yaml, "a: 1\r\r\r\rb: *x\n".toList, 3, []⟩) ∧
      (extract .blog "---\na: 1\r\r\r\rb: *x\n---\n").mapError (·.line) = .error 6 ∧ ¬6 ≤ 3 :=
  ⟨rfl, by decide +kernel, by decide⟩

end DocPress
