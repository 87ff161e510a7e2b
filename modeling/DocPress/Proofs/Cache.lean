import DocPress.Build
import DocPress.Proofs.FileTree
import DocPress.Proofs.Json.Read
import DocPress.Proofs.Metadata.Record
import DocPress.Proofs.Pipeline

/-!
Reading an artifact back from the cache that it was put into. The file of an artifact holds its
metadata as a record, so the artifact comes back exactly when its metadata does: a slug is a text,
which is lost under a name that is declared as a date, and dates are lost when their year is written
with a sign.
-/

namespace DocPress

/-! ### Values in records -/

theorem MetaValue.isReadable_toJson (value : MetaValue) : value.toJson.IsReadable := by
  cases value with
  | text _ | date _ | flag _ => trivial
  | list items => simp [toJson, Json.ofTexts, Json.IsReadable, Json.areReadable_iff]

theorem MetaValue.hasDistinctKeys_toJson (value : MetaValue) : value.toJson.HasDistinctKeys := by
  cases value with
  | text _ | date _ | flag _ => trivial
  | list items => simp [toJson, Json.ofTexts, Json.HasDistinctKeys, Json.haveDistinctKeys_iff]

theorem depthAll_map_string (items : List String) : Json.depthAll (items.map .string) = 0 := by
  induction items with
  | nil => rfl
  | cons item items ih => simp [Json.depthAll, Json.depth, ih]

/-- A list of texts is the deepest value. -/
theorem MetaValue.depth_toJson_le (value : MetaValue) : value.toJson.depth ≤ 1 := by
  cases value with
  | text _ | date _ | flag _ => exact Nat.zero_le 1
  | list items => simp [toJson, Json.ofTexts, Json.depth, depthAll_map_string]

namespace Cache

variable {cache : Cache} {artifact : Artifact} {files after : FileTree} {path : List Char}

/-- The fields in the file of an artifact. -/
def recordFields (artifact : Artifact) : List (String × Json) :=
  artifact.metadata.toJsonFields ++ [(codeField, .string artifact.code)]

theorem forall_mem_recordFields {p : Json → Prop} (value : ∀ value : MetaValue, p value.toJson)
    (text : ∀ text, p (.string text)) : ∀ field ∈ recordFields artifact, p field.2 := by
  intro field member
  rcases List.mem_append.1 member with own | code
  · obtain ⟨entry, -, rfl⟩ := List.mem_map.1 own
    exact value entry.2
  · rw [List.mem_singleton.1 code]
    exact text artifact.code

theorem nodup_recordFields (free : codeField ∉ artifact.metadata.keys) :
    ((recordFields artifact).map (·.1)).Nodup := by
  have keys : (recordFields artifact).map (·.1) = artifact.metadata.keys ++ [codeField] := by
    simp [recordFields, Metadata.toJsonFields, Fields.keys]
  rw [keys, List.nodup_append]
  refine ⟨artifact.metadata.distinct, by simp, fun name member other code same => ?_⟩
  rw [List.mem_singleton.1 code] at same
  exact free (same ▸ member)

/-- The record of an artifact is read from its text. -/
theorem parse_record (free : codeField ∉ artifact.metadata.keys) :
    Json.parse (record artifact).write = .ok (.object (recordFields artifact)) := by
  change Json.parse (Json.object (recordFields artifact)).write = _
  refine Json.parse_write ?readable ?distinct ?shallow
  case readable =>
    exact Json.areReadableFields_iff.2
      (forall_mem_recordFields MetaValue.isReadable_toJson fun _ => trivial)
  case distinct =>
    exact ⟨nodup_recordFields free, Json.fieldsHaveDistinctKeys_iff.2
      (forall_mem_recordFields MetaValue.hasDistinctKeys_toJson fun _ => trivial)⟩
  case shallow =>
    have deepest : Json.depthFields (recordFields artifact) ≤ 1 := Json.depthFields_le
      (forall_mem_recordFields (p := fun value => value.depth ≤ 1) MetaValue.depth_toJson_le
        fun _ => Nat.zero_le 1)
    rw [Json.depth, Json.usualDepth]
    omega

/-- The code is found in the record behind the metadata. -/
theorem field?_code (free : codeField ∉ artifact.metadata.keys) :
    (Json.object (recordFields artifact)).field? codeField = some (.string artifact.code) := by
  have none : artifact.metadata.toJsonFields.find? (·.1 == codeField) = none := by
    rw [List.find?_eq_none]
    rintro field member same
    obtain ⟨entry, own, rfl⟩ := List.mem_map.1 member
    exact free (eq_of_beq same ▸ List.mem_map_of_mem own)
  rw [Json.field?, recordFields, List.find?_append, none]
  simp

/-- What is read from the file of an artifact: its code, and what comes back of its metadata. -/
theorem readRecord_record (schema : Schema) (free : codeField ∉ artifact.metadata.keys) :
    readRecord schema (.text (record artifact).write) =
      (((Metadata.ofJsonFields schema [codeField] (recordFields artifact)).mapError
        RecordError.metadata).map fun metadata => (metadata, artifact.code)) := by
  rw [readRecord, parseContent, parse_record free]
  simp only [Except.mapError, bind, Except.bind, field?_code free, Option.bind, Json.text?]
  cases Metadata.ofJsonFields schema [codeField] (recordFields artifact) <;> rfl

/-! ### Files -/

/-- What putting an artifact into a cache does: a file at the path of the artifact holds its
record. -/
theorem write_eq_ok (written : cache.write artifact files = (after, .ok path)) :
    codeField ∉ artifact.metadata.keys ∧ cache.entryPath artifact.identifier = .ok path ∧
      after.read path = .ok (.text (record artifact).write) := by
  rw [write] at written
  split at written
  · cases written
  · next free =>
      cases known : cache.entryPath artifact.identifier with
      | error fault => rw [known] at written; cases written
      | ok entry =>
          rw [known] at written
          simp only at written
          rcases made : files.makeDirectories (Path.parent entry) with ⟨way, outcome⟩
          simp only [made] at written
          cases outcome with
          | error fault => cases written
          | ok _ =>
              cases placed : way.place entry (.text (record artifact).write) with
              | error fault => simp only [placed] at written; cases written
              | ok tree =>
                  simp only [placed] at written
                  cases written
                  exact ⟨Fields.contains_eq_false_iff.1 (Bool.eq_false_iff.2 free), rfl,
                    FileTree.read_place placed⟩

/-- An artifact comes back from the cache that it was put into exactly when the cache is for artifacts
of its strategy and the schema of the cache recovers each field of its metadata. -/
theorem read_write_iff (written : cache.write artifact files = (after, .ok path)) :
    cache.read after artifact.identifier = .ok artifact ↔
      cache.strategy = artifact.strategy ∧
        ∀ entry ∈ artifact.metadata.entries, cache.schema.Recovers entry.1 entry.2 := by
  obtain ⟨free, known, stored⟩ := write_eq_ok written
  rw [← Metadata.ofJsonFields_iff free (.string artifact.code), read, known]
  simp only [bind, Except.bind, stored, readRecord_record cache.schema free, recordFields]
  cases Metadata.ofJsonFields cache.schema [codeField]
      (artifact.metadata.toJsonFields ++ [(codeField, Json.string artifact.code)]) with
  | error fault => simp [Except.mapError, Except.map]
  | ok metadata =>
      obtain ⟨identifier, own, strategy, code⟩ := artifact
      simp only [Except.mapError, Except.map, pure, Except.pure, Except.ok.injEq, Artifact.mk.injEq,
        true_and, and_true]
      exact and_comm

end Cache

/-! ### Published documents -/

namespace Pipeline

variable {pipeline : Pipeline} {cache : Cache} {document : Document} {files after : FileTree}
  {compiled : Compiled}

/-- What is published is what a run gives, and it is in the cache. -/
theorem publish_some_eq_ok
    (published : pipeline.publish (some cache) document files = (after, .ok compiled)) :
    pipeline.run document = .ok compiled ∧
      ∃ path, cache.write compiled.artifact files = (after, .ok path) := by
  cases done : pipeline.run document with
  | error error => simp only [publish, done] at published; cases published
  | ok result =>
      simp only [publish, done] at published
      rcases written : cache.write result.artifact files with ⟨tree, outcome⟩
      simp only [written] at published
      cases outcome with
      | error error => cases published
      | ok path =>
          cases published
          exact ⟨rfl, path, written⟩

/-- The fields of an artifact come back from the cache when its slug is not declared as a date and
no date needs a sign for its year. -/
theorem recovers_run_iff (done : pipeline.run document = .ok compiled) :
    (∀ entry ∈ compiled.artifact.metadata.entries, pipeline.schema.Recovers entry.1 entry.2) ↔
      pipeline.schema.type? "slug" ≠ some .date ∧
        ∀ entry ∈ compiled.artifact.metadata.entries, entry.2.HasPlainYear := by
  obtain ⟨extracted, code, read, same⟩ := run_eq_ok done
  have described := describes_extract read
  rw [same]
  simp only [Fields.entries_append, List.forall_mem_append, List.forall_mem_singleton]
  have own : ∀ entry ∈ extracted.metadata.entries.filter (·.1 != "slug"),
      pipeline.schema.Recovers entry.1 entry.2 ↔ entry.2.HasPlainYear :=
    fun entry member => (described entry (List.mem_filter.1 member |>.1)).recovers_iff
  rw [forall₂_congr own]
  simp [Schema.Recovers, MetaValue.HasPlainYear, and_comm]

/-- An artifact that is published is read back from its cache as it is, unless its slug is declared
as a date or one of its dates has a year that is written with a sign. -/
theorem read_publish_iff (root : String)
    (published : pipeline.publish (some (.ofPipeline root pipeline)) document files =
      (after, .ok compiled)) :
    (Cache.ofPipeline root pipeline).read after compiled.artifact.identifier =
        .ok compiled.artifact ↔
      pipeline.schema.type? "slug" ≠ some .date ∧
        ∀ entry ∈ compiled.artifact.metadata.entries, entry.2.HasPlainYear := by
  obtain ⟨done, path, written⟩ := publish_some_eq_ok published
  obtain ⟨extracted, code, -, same⟩ := run_eq_ok done
  have strategy : (Cache.ofPipeline root pipeline).strategy = compiled.artifact.strategy := by
    rw [same]
    rfl
  rw [Cache.read_write_iff written, ← recovers_run_iff done, strategy]
  exact and_iff_right rfl

end Pipeline

namespace Config

variable {config : Config} {name root : String} {backend : Backend} {pipeline : Pipeline}

/-- What the backends of an accepted configuration publish: each has a pipeline, and an artifact that
this pipeline puts into its cache is read back as it is exactly when the slug is not declared as a
date and no date of the artifact has a year that is written with a sign. -/
theorem reads_published_iff (root : String) (valid : config.validate = .ok ())
    (known : config.backend name = .ok backend) :
    ∃ pipeline, Pipeline.ofConfig config name = .ok pipeline ∧
      ∀ document files after compiled,
        pipeline.publish (some (.ofPipeline root pipeline)) document files =
            (after, .ok compiled) →
          ((Cache.ofPipeline root pipeline).read after compiled.artifact.identifier =
              .ok compiled.artifact ↔
            (config.schemaFor backend).type? "slug" ≠ some .date ∧
              ∀ entry ∈ compiled.artifact.metadata.entries, entry.2.HasPlainYear) := by
  have placed := isPlaced_of_validate valid known
  refine ⟨_, Pipeline.ofConfig_eq_ok known placed, fun document files after compiled published => ?_⟩
  exact Pipeline.read_publish_iff root published

/-! ### A site with one backend -/

/-- A site with one backend that declares fields. -/
def oneBackend (fields : List FieldSpec) : Config :=
  { fields, backends := .ofList [("b", .standard .precompiled)] }

/-- The pipeline of the backend. -/
def onePipeline (fields : List FieldSpec) : Pipeline :=
  .ofBackend (oneBackend fields) "b" (.standard .precompiled)
    (Backend.misplaced?_eq_none_iff.1 (by decide))

theorem ofConfig_oneBackend (fields : List FieldSpec) :
    Pipeline.ofConfig (oneBackend fields) "b" = .ok (onePipeline fields) :=
  Pipeline.ofConfig_eq_ok rfl _

/-- A post of a title and a date. -/
def datedPost (date : String) : Document :=
  ⟨"p", "---\ntitle: T\ndate: \"" ++ date ++ "\"\n---\nx\n"⟩

/-- What the backend does with a post, if a check of what is published succeeds. -/
theorem exists_published (fields : List FieldSpec) (post : Document)
    (check : FileTree → Compiled → Bool)
    (checked :
      let outcome := (onePipeline fields).publish
        (some (.ofPipeline "cache" (onePipeline fields))) post .empty
      outcome.2.toOption.any (check outcome.1) = true) :
    ∃ after compiled,
      (onePipeline fields).publish (some (.ofPipeline "cache" (onePipeline fields))) post .empty =
        (after, .ok compiled) ∧ check after compiled = true := by
  revert checked
  generalize (onePipeline fields).publish (some (.ofPipeline "cache" (onePipeline fields))) post
    .empty = outcome
  intro checked
  obtain ⟨after, result⟩ := outcome
  cases result with
  | error error => cases checked
  | ok compiled => exact ⟨after, compiled, rfl, checked⟩

set_option maxRecDepth 10000 in
/-- A post with an ordinary date is read back from the cache. -/
theorem reads_published_datedPost :
    ∃ pipeline after compiled, Pipeline.ofConfig (oneBackend []) "b" = .ok pipeline ∧
      pipeline.publish (some (.ofPipeline "cache" pipeline)) (datedPost "2023-01-01") .empty =
        (after, .ok compiled) ∧
      (Cache.ofPipeline "cache" pipeline).read after compiled.artifact.identifier =
        .ok compiled.artifact := by
  have valid : (oneBackend []).validate = .ok () := by decide
  have known : (oneBackend []).backend "b" = .ok (.standard .precompiled) := rfl
  obtain ⟨pipeline, made, reads⟩ := reads_published_iff "cache" valid known
  obtain rfl : onePipeline [] = pipeline := by
    simpa [made] using (ofConfig_oneBackend []).symm
  obtain ⟨after, compiled, published, plain⟩ := exists_published [] (datedPost "2023-01-01")
    (fun _ compiled => decide (∀ entry ∈ compiled.artifact.metadata.entries, entry.2.HasPlainYear))
    (by decide +kernel)
  exact ⟨_, after, compiled, made, published,
    (reads _ _ _ _ published).2 ⟨by decide, of_decide_eq_true plain⟩⟩

/-- Whether the artifact of a post is not what is read from the cache. -/
def isLost (fields : List FieldSpec) (after : FileTree) (compiled : Compiled) : Bool :=
  ((Cache.ofPipeline "cache" (onePipeline fields)).read after
    compiled.artifact.identifier).toOption != some compiled.artifact

theorem read_ne_of_isLost {fields : List FieldSpec} {after : FileTree} {compiled : Compiled}
    (lost : isLost fields after compiled = true) :
    (Cache.ofPipeline "cache" (onePipeline fields)).read after compiled.artifact.identifier ≠
      .ok compiled.artifact := by
  intro same
  rw [isLost, same] at lost
  simp [Except.toOption] at lost

set_option maxRecDepth 10000 in
/-- Where the slug is declared as a date, a post is not read back. -/
theorem reads_published_slugDate_ne :
    let fields : List FieldSpec := [⟨"slug", .date, false⟩]
    ∃ pipeline after compiled, (oneBackend fields).validate = .ok () ∧
      Pipeline.ofConfig (oneBackend fields) "b" = .ok pipeline ∧
      pipeline.publish (some (.ofPipeline "cache" pipeline)) (datedPost "2023-01-01") .empty =
        (after, .ok compiled) ∧
      (Cache.ofPipeline "cache" pipeline).read after compiled.artifact.identifier ≠
        .ok compiled.artifact := by
  intro fields
  obtain ⟨after, compiled, published, lost⟩ :=
    exists_published fields (datedPost "2023-01-01") (isLost fields) (by decide +kernel)
  exact ⟨_, after, compiled, by decide, ofConfig_oneBackend fields, published,
    read_ne_of_isLost lost⟩

set_option maxRecDepth 10000 in
/-- A post with a date after the year 9999 is not read back. -/
theorem reads_published_signedYear_ne :
    ∃ pipeline after compiled, (oneBackend []).validate = .ok () ∧
      Pipeline.ofConfig (oneBackend []) "b" = .ok pipeline ∧
      pipeline.publish (some (.ofPipeline "cache" pipeline)) (datedPost "+12345-01-01") .empty =
        (after, .ok compiled) ∧
      (Cache.ofPipeline "cache" pipeline).read after compiled.artifact.identifier ≠
        .ok compiled.artifact := by
  obtain ⟨after, compiled, published, lost⟩ :=
    exists_published [] (datedPost "+12345-01-01") (isLost []) (by decide +kernel)
  exact ⟨_, after, compiled, by decide, ofConfig_oneBackend [], published, read_ne_of_isLost lost⟩

end Config

end DocPress
