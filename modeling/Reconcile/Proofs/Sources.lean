import Reconcile.Proofs.Conclusion
import Reconcile.Proofs.Document.Members
import Reconcile.Proofs.Fallible
import Reconcile.Proofs.Json.ReadBack

namespace Reconcile

namespace MappingSource

/-- Why the mapping at a path cannot be used. -/
inductive Unusable (files : Files) (path : String) : ConfigurationError → Prop
  | notRead {cause : ReadError} (failed : files.read none path .mapping = .error cause) :
      Unusable files path (.mappingNotRead path cause)
  | invalid {value : Value} {cause : Mapping.DecodeError}
      (read : files.read none path .mapping = .ok value)
      (failed : Mapping.decode value = .error cause) :
      Unusable files path (.mappingInvalid path cause)

variable {files : Files} {path pipeline name : String} {mapping : Mapping}

theorem readMapping_eq_error_iff (files : Files) (path : String) (cause : ConfigurationError) :
    readMapping files path = .error cause ↔ Unusable files path cause := by
  constructor
  · intro failed
    rw [readMapping] at failed
    cases read : files.read none path .mapping with
    | error fault =>
      rw [read] at failed
      cases failed
      exact .notRead read
    | ok value =>
      simp only [read, Except.mapError, Fallible.ok_bind] at failed
      cases decoded : Mapping.decode value with
      | error fault =>
        rw [decoded] at failed
        cases failed
        exact .invalid read decoded
      | ok mapping =>
        rw [decoded] at failed
        cases failed
  · intro unusable
    cases unusable with
    | notRead failed => simp [readMapping, failed, Except.mapError]
    | invalid read failed => simp [readMapping, read, failed, Except.mapError]

theorem readMapping_of_json {value : Value} (isJson : Format.ofPath? path = some .json)
    (found : files.lookup path = .ok (.file (Text.Utf8.encode value.json.toList)))
    (formed : value.WellFormed) (within : value.Within 127)
    (decoded : Mapping.decode value = .ok mapping) : readMapping files path = .ok mapping := by
  have read : files.read none path .mapping = .ok value := by
    simp [Files.read, Files.readAs, Format.resolve, isJson, found, Entry.content, Format.read,
      Json.read_json formed within, Except.mapError]
  simp [readMapping, read, decoded, Except.mapError]

theorem directives_file_of_read (read : readMapping files path = .ok mapping) (pipeline : String) :
    (file path).directives files pipeline = (memory mapping).directives files pipeline := by
  simp only [directives, load, read, Fallible.ok_bind]
  cases defined : mapping.directives? pipeline <;> simp [defined]

theorem directives_file_of_unusable {cause : ConfigurationError}
    (unusable : Unusable files path cause) (pipeline : String) :
    (file path).directives files pipeline = .error cause := by
  simp [directives, load, (readMapping_eq_error_iff _ _ _).mpr unusable]

theorem directives_memory_of_missing (missing : mapping.directives? pipeline = none)
    (files : Files) :
    (memory mapping).directives files pipeline = .error (.missingPipeline pipeline) := by
  simp [directives, load, missing]

theorem directives_memory_of_defined {defined : List Directive}
    (found : mapping.directives? pipeline = some defined) (files : Files) :
    (memory mapping).directives files pipeline = .ok defined := by
  simp [directives, load, found]

theorem fileName?_of_mem (registered : (pipeline, name) ∈ pipelineFiles) :
    fileName? pipeline = some name :=
  (Value.lookup_eq_some_iff_mem (by decide) pipeline name).mpr registered

theorem directives_directory_of_mem (registered : (pipeline, name) ∈ pipelineFiles)
    (files : Files) (directory : String) :
    (MappingSource.directory directory).directives files pipeline =
      (file (joinPath directory name)).directives files pipeline := by
  simp only [directives, load, filePath, fileName?_of_mem registered]
  rfl

theorem directives_directory_of_not_mem (outside : pipeline ∉ pipelineFiles.map (·.1))
    (files : Files) (directory : String) :
    (MappingSource.directory directory).directives files pipeline =
      .error (.unknownPipeline pipeline) := by
  have unknown : fileName? pipeline = none := Value.lookup_eq_none outside
  simp only [directives, load, filePath, unknown]
  rfl

end MappingSource

namespace Engine

variable {files : Files} {request : Request}

theorem SameRun.of_directives {mappings others : MappingSource} (policy : Policy)
    (same : mappings.directives files request.pipeline =
      others.directives files request.pipeline) :
    SameRun { mappings, policy } { mappings := others, policy } files request := by
  apply SameRun.of_verdicts
  · simp only [verdicts, same]
  · simp only [summary, verdicts, same]

/-- A run that ends at its mapping and tells no channel of it. -/
structure Aborts (engine : Engine) (files : Files) (request : Request)
    (cause : ConfigurationError) : Prop where
  evaluate_eq : engine.evaluate files request = .error (.aborted (.configuration cause))
  execute_eq : ∀ channel,
    engine.execute files request channel = (.error (.configuration cause), channel)

theorem Aborts.of_directives {engine : Engine} {cause : ConfigurationError}
    (failed : engine.mappings.directives files request.pipeline = .error cause) :
    engine.Aborts files request cause := by
  have single : engine.verdicts files request = [.fatal (.configuration cause)] := by
    simp only [verdicts, failed]
  constructor
  · rw [evaluate_eq_aborted_iff, single]
    rfl
  · intro channel
    rw [Engine.execute_eq, single]
    simp [messages, single, Verdict.firstFatal?, Verdict.taken, Verdict.fatal?]

/-- How the runs of a request are related over all places that a mapping may come from. -/
structure SourcesAgree (policy : Policy) (files : Files) (request : Request) : Prop where
  file : ∀ mapping path, MappingSource.readMapping files path = .ok mapping →
    SameRun ⟨.memory mapping, policy⟩ ⟨.file path, policy⟩ files request
  directory : ∀ mapping directory name,
    (request.pipeline, name) ∈ MappingSource.pipelineFiles →
    MappingSource.readMapping files (MappingSource.joinPath directory name) = .ok mapping →
    SameRun ⟨.memory mapping, policy⟩ ⟨.directory directory, policy⟩ files request
  missing : ∀ mapping, mapping.directives? request.pipeline = none →
    Aborts ⟨.memory mapping, policy⟩ files request (.missingPipeline request.pipeline)
  unknown : ∀ directory, request.pipeline ∉ MappingSource.pipelineFiles.map (·.1) →
    Aborts ⟨.directory directory, policy⟩ files request (.unknownPipeline request.pipeline)
  unusable_file : ∀ path cause, MappingSource.Unusable files path cause →
    Aborts ⟨.file path, policy⟩ files request cause
  unusable_directory : ∀ directory name cause,
    (request.pipeline, name) ∈ MappingSource.pipelineFiles →
    MappingSource.Unusable files (MappingSource.joinPath directory name) cause →
    Aborts ⟨.directory directory, policy⟩ files request cause

/-- Where a mapping comes from makes no difference to a run, whatever the documents are. -/
theorem mapping_sources_agree (policy : Policy) (files : Files) (request : Request) :
    SourcesAgree policy files request where
  file mapping path read :=
    .of_directives policy (MappingSource.directives_file_of_read read request.pipeline).symm
  directory mapping directory name registered read := by
    have atFile := MappingSource.directives_directory_of_mem registered files directory
    rw [MappingSource.directives_file_of_read read] at atFile
    exact .of_directives policy atFile.symm
  missing mapping missing := .of_directives (MappingSource.directives_memory_of_missing missing files)
  unknown directory outside :=
    .of_directives (MappingSource.directives_directory_of_not_mem outside files directory)
  unusable_file path cause unusable :=
    .of_directives (MappingSource.directives_file_of_unusable unusable request.pipeline)
  unusable_directory directory name cause registered unusable := by
    have atFile := MappingSource.directives_directory_of_mem registered files directory
    rw [MappingSource.directives_file_of_unusable unusable] at atFile
    exact .of_directives atFile

end Engine

def pricesDocument : Value :=
  .object [("mapping", .object [("pricebook", .array [.object [
    ("method", .string "sameFile"), ("rules", .object [("ruleName", .string "equalValue")])]])])]

def pricesMapping : Mapping where
  pipelines := [("pricebook", [{
    method := .sameFile
    source := none
    target := none
    rules := .single .equal
    transforms := [] }])]

def pricesFiles : Files where
  lookup path :=
    if path = "maps/pricebook_rules_mapping.json" then
      .ok (.file (Text.Utf8.encode pricesDocument.json.toList))
    else .error .notFound

def pricesRequest : Request where
  pipeline := "pricebook"
  source := .string "a b"
  target := .string "ab"

theorem pricesFiles_read :
    MappingSource.readMapping pricesFiles "maps/pricebook_rules_mapping.json" =
      .ok pricesMapping := by
  have isJson : Format.ofPath? "maps/pricebook_rules_mapping.json" = some .json := by decide
  have formed : pricesDocument.WellFormed := by
    simp [pricesDocument, Value.WellFormed, Value.MembersWellFormed, Value.ItemsWellFormed]
  have within : pricesDocument.Within 127 := by simp [pricesDocument]
  have found : pricesFiles.lookup "maps/pricebook_rules_mapping.json" =
      .ok (.file (Text.Utf8.encode pricesDocument.json.toList)) := by
    simp [pricesFiles]
  exact MappingSource.readMapping_of_json isJson found formed within rfl

theorem pricesFiles_sources_agree :
    Engine.SameRun ⟨.memory pricesMapping, .collectAll⟩
        ⟨.file "maps/pricebook_rules_mapping.json", .collectAll⟩ pricesFiles pricesRequest ∧
      Engine.SameRun ⟨.memory pricesMapping, .collectAll⟩ ⟨.directory "maps", .collectAll⟩
        pricesFiles pricesRequest := by
  have agree := Engine.mapping_sources_agree .collectAll pricesFiles pricesRequest
  have registered : ("pricebook", "pricebook_rules_mapping.json") ∈ MappingSource.pipelineFiles := by
    decide
  exact ⟨agree.file _ _ pricesFiles_read,
    agree.directory pricesMapping "maps" _ registered pricesFiles_read⟩

end Reconcile
