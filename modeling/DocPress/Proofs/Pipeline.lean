import DocPress.Pipeline
import DocPress.Proofs.Result
import DocPress.Proofs.Text

/-!
Pipelines of accepted configurations, and what a run of a pipeline goes through.
-/

namespace DocPress

/-! ### Pipelines of configurations -/

/-- The stages of a backend belong to the phases that they are in. -/
structure Backend.IsPlaced (backend : Backend) : Prop where
  pre : ∀ stage ∈ backend.pre, stage.phase = .pre
  post : ∀ stage ∈ backend.post, stage.phase = .post

theorem find?_phase_eq_none {phase : Phase} {stages : List Stage} :
    stages.find? (·.phase != phase) = none ↔ ∀ stage ∈ stages, stage.phase = phase := by
  simp

theorem Backend.misplaced?_eq_none_iff {backend : Backend} :
    backend.misplaced? = none ↔ backend.IsPlaced := by
  rw [misplaced?, Option.or_eq_none_iff, Option.map_eq_none_iff, Option.map_eq_none_iff,
    find?_phase_eq_none, find?_phase_eq_none]
  exact ⟨fun both => ⟨both.1, both.2⟩, fun placed => ⟨placed.pre, placed.post⟩⟩

theorem Config.validateBackends_eq_ok_iff {entries : List (String × Backend)} :
    validateBackends entries = .ok () ↔ ∀ entry ∈ entries, entry.2.IsPlaced := by
  induction entries with
  | nil => simp [validateBackends]
  | cons entry rest ih =>
      obtain ⟨name, backend⟩ := entry
      rw [validateBackends, List.forall_mem_cons, ← ih, ← Backend.misplaced?_eq_none_iff]
      cases backend.misplaced? with
      | none => simp
      | some found => simp

/-- The backends of an accepted configuration have their stages in their phases. -/
theorem Config.isPlaced_of_validate {config : Config} {name : String} {backend : Backend}
    (valid : config.validate = .ok ()) (known : config.backend name = .ok backend) :
    backend.IsPlaced := by
  have placed : validateBackends config.backends.entries = .ok () := by
    rw [validate] at valid
    split at valid
    · cases valid
    · split at valid
      · cases valid
      · exact valid
  rw [Config.backend] at known
  cases found : config.backends.get? name with
  | none => rw [found] at known; cases known
  | some other =>
      rw [found] at known
      cases known
      rw [Catalog.get?, Option.map_eq_some_iff] at found
      obtain ⟨entry, first, rfl⟩ := found
      exact validateBackends_eq_ok_iff.1 placed entry (List.mem_of_find?_eq_some first)

theorem Chain.ofStages_eq_ok {phase : Phase} {stages : List Stage}
    (placed : ∀ stage ∈ stages, stage.phase = phase) :
    Chain.ofStages phase stages = .ok ⟨phase, stages, placed⟩ := by
  rw [ofStages]
  split
  · next found => rw [find?_phase_eq_none.2 placed] at found; cases found
  · rfl

/-! ### Headers in front of bodies -/

namespace Header

variable {format : HeaderFormat} {lines : List (List Char)} {front : List Char} {header : Header}

theorem splitLines?_append_of_some {parts : List (List Char) × List (List Char)}
    (found : splitLines? format lines = some parts) (more : List (List Char)) :
    splitLines? format (lines ++ more) = some (parts.1, parts.2 ++ more) := by
  induction lines generalizing parts with
  | nil => cases found
  | cons line rest ih =>
      rw [splitLines?] at found
      rw [List.cons_append, splitLines?]
      split at found
      · next closes =>
          cases found
          rw [if_pos closes]
      · next inner =>
          obtain ⟨parts, below, rfl⟩ := Option.map_eq_some_iff.1 found
          rw [if_neg inner, ih below]
          rfl

theorem withoutMark_append (some_front : front ≠ []) (body : List Char) :
    Text.withoutMark (front ++ body) = Text.withoutMark front ++ body := by
  cases front with
  | nil => contradiction
  | cons c rest =>
      rw [List.cons_append, Text.withoutMark, Text.withoutMark]
      split <;> rfl

/-- A header that is closed before a body is read apart from it. -/
theorem split_append (ended : front.getLast? = some '\n') (closed : split front = .ok (some header))
    (body : List Char) :
    split (front ++ body) = .ok (some { header with body := header.body ++ body }) := by
  have some_front : front ≠ [] := by
    rintro rfl
    cases ended
  have last : Text.withoutMark front = [] ∨ (Text.withoutMark front).getLast? = some '\n' := by
    obtain ⟨c, rest, rfl⟩ := List.exists_cons_of_ne_nil some_front
    rw [Text.withoutMark]
    split
    · cases rest with
      | nil => exact .inl rfl
      | cons d rest => exact .inr (by rwa [List.getLast?_cons_cons] at ended)
    · exact .inr ended
  rw [split] at closed
  rw [split, withoutMark_append some_front, Text.linesWithEnds_append last]
  cases whole : Text.linesWithEnds (Text.withoutMark front) with
  | nil => rw [whole] at closed; cases closed
  | cons opening lines =>
      simp only [whole] at closed
      rw [List.cons_append]
      dsimp only
      cases opens : HeaderFormat.ofLine? opening with
      | none => rw [opens] at closed; cases closed
      | some format =>
          simp only [opens] at closed
          cases found : splitLines? format lines with
          | none => rw [found] at closed; cases closed
          | some parts =>
              rw [found] at closed
              cases closed
              simp [splitLines?_append_of_some found, Text.flatten_linesWithEnds]

example : (split "---\na: 1\n---\nx\n".toList).toOption.join.map (·.body) = some "x\n".toList := by
  decide +kernel

/-- The metadata of a header do not depend on the body behind it. -/
theorem metadata_withBody (schema : Schema) (body : List Char) :
    metadata schema { header with body } = metadata schema header := by
  have entries (entries : List (Yaml.Value × Yaml.Value)) :
      ofYamlEntries { header with body } entries = ofYamlEntries header entries := by
    induction entries with
    | nil => rfl
    | cons entry rest ih =>
        rw [ofYamlEntries, ofYamlEntries, ih]
        rfl
  have coerced (fields : List (String × RawValue)) (done : Metadata) :
      coerceFields schema { header with body } fields done = coerceFields schema header fields done := by
    induction fields generalizing done with
    | nil => rfl
    | cons field rest ih =>
        rw [coerceFields, coerceFields]
        cases schema.coerce field.1 field.2 with
        | error fault => rfl
        | ok value => exact ih _
  have yaml : readYaml { header with body } = readYaml header := by
    simp only [readYaml, entries]
  have fields : fields { header with body } = fields header := by
    rw [Header.fields, Header.fields, yaml]
    rfl
  simp only [metadata, fields, coerced]

end Header

theorem extract_append (schema : Schema) {front : String} {header : Header}
    (ended : front.toList.getLast? = some '\n') (closed : Header.split front.toList = .ok (some header))
    (body : String) :
    extract schema (front ++ body) =
      (extract schema front).map fun read => { read with body := read.body ++ body } := by
  rw [extract, extract, String.toList_append, Header.split_append ended closed, closed]
  dsimp only [bind, Except.bind]
  rw [Header.metadata_withBody]
  cases header.metadata schema with
  | error fault => rfl
  | ok metadata => simp [Except.map, pure, Except.pure]

namespace Pipeline

/-- A closed header is read alike in front of every body. -/
theorem readHeader_append (pipeline : Pipeline) (identifier : String) {front : String} {header : Header}
    (ended : front.toList.getLast? = some '\n') (closed : Header.split front.toList = .ok (some header))
    (body : String) :
    pipeline.readHeader ⟨identifier, front ++ body⟩ =
      (pipeline.readHeader ⟨identifier, front⟩).map fun read => (read.1, read.2.1 ++ body, read.2.2) := by
  rw [readHeader, readHeader, extract_append _ ended closed]
  cases extract pipeline.schema front with
  | error fault => rfl
  | ok read =>
      dsimp only [Except.map, bind, Except.bind]
      cases pipeline.schema.validate read.metadata read.headerEndLine with
      | error fault => rfl
      | ok _ => rfl

/-- The pipeline of a backend with its stages in their phases. -/
def ofBackend (config : Config) (name : String) (backend : Backend) (placed : backend.IsPlaced) :
    Pipeline where
  backend := name
  schema := config.schemaFor backend
  pre := ⟨.pre, backend.pre, placed.pre⟩
  post := ⟨.post, backend.post, placed.post⟩
  strategy := backend.strategy
  pre_phase := rfl
  post_phase := rfl

/-- Each backend of an accepted configuration has a pipeline. -/
theorem ofConfig_eq_ok {config : Config} {name : String} {backend : Backend}
    (known : config.backend name = .ok backend) (placed : backend.IsPlaced) :
    ofConfig config name = .ok (ofBackend config name backend placed) := by
  have pre := Chain.ofStages_eq_ok placed.pre
  have post := Chain.ofStages_eq_ok placed.post
  simp only [ofConfig, known, bind, Except.bind, pre, post]
  rfl

/-! ### Runs -/

variable {pipeline : Pipeline} {document : Document}

/-- What is read from the header of a document: its metadata with the slug of the document at the end,
and the body behind it. -/
theorem readHeader_eq_ok {metadata : Metadata} {body : String} {warnings : List Diagnostic}
    (read : pipeline.readHeader document = .ok (metadata, body, warnings)) :
    ∃ extracted, extract pipeline.schema document.source = .ok extracted ∧
      metadata = extracted.metadata.append "slug"
        (.text (String.ofList (deriveSlug document.identifier.toList))) ∧
      body = extracted.body := by
  rw [readHeader, bind_eq_ok_iff] at read
  obtain ⟨extracted, found, read⟩ := read
  rw [bind_eq_ok_iff] at read
  obtain ⟨-, -, read⟩ := read
  obtain ⟨rfl, rfl, -⟩ : _ ∧ _ ∧ _ := by simpa [pure_eq_ok_iff] using read
  exact ⟨extracted, found, rfl, rfl⟩

/-- What a run that succeeds goes through: the header, the body, and the code of the page. -/
theorem run_eq_ok_iff {compiled : Compiled} :
    pipeline.run document = .ok compiled ↔
      ∃ metadata body warnings tree more artifact,
        pipeline.readHeader document = .ok (metadata, body, warnings) ∧
        pipeline.readBody body = .ok (tree, more) ∧
        Artifact.compile pipeline.strategy document.identifier metadata tree = .ok artifact ∧
        compiled = ⟨artifact, (warnings ++ more).map (·.forDocument document.identifier)⟩ := by
  rw [run]
  simp only [bind_eq_ok_iff, mapError_eq_ok_iff, pure_eq_ok_iff, Prod.exists]
  constructor
  · rintro ⟨metadata, body, warnings, header, tree, more, page, artifact, code, rfl⟩
    exact ⟨metadata, body, warnings, tree, more, artifact, header, page, code, rfl⟩
  · rintro ⟨metadata, body, warnings, tree, more, artifact, header, page, code, rfl⟩
    exact ⟨metadata, body, warnings, header, tree, more, page, artifact, code, rfl⟩

/-- What an artifact is made of. -/
theorem run_eq_ok {compiled : Compiled} (done : pipeline.run document = .ok compiled) :
    ∃ extracted code, extract pipeline.schema document.source = .ok extracted ∧
      compiled.artifact = ⟨document.identifier, extracted.metadata.append "slug"
        (.text (String.ofList (deriveSlug document.identifier.toList))), pipeline.strategy, code⟩ := by
  obtain ⟨metadata, body, warnings, tree, more, artifact, header, -, made, rfl⟩ :=
    run_eq_ok_iff.1 done
  obtain ⟨extracted, found, rfl, -⟩ := readHeader_eq_ok header
  rw [Artifact.compile, map_eq_ok_iff] at made
  obtain ⟨code, -, rfl⟩ := made
  exact ⟨extracted, code, found, rfl⟩

end Pipeline

end DocPress
