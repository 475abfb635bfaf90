import Reconcile.Fault

namespace Reconcile

inductive MappingSource
  | memory (mapping : Mapping)
  | file (path : String)
  | directory (path : String)

namespace MappingSource

def defaultDirectory : String := "tests/rules-mapping"

def pipelineFiles : List (String × String) :=
  [("pricebook", "pricebook_rules_mapping.json"),
   ("storelist", "storelist_rules_mapping.json"),
   ("inventoryList", "inventory_rules_mapping.json"),
   ("autoreservationallocation", "autoreservationallocation_rules_mapping.json")]

def fileName? (pipeline : String) : Option String := pipelineFiles.lookup pipeline

def joinPath (directory file : String) : String :=
  let chars := directory.toList
  if chars.isEmpty || chars.getLast? == some '/' then directory ++ file
  else directory ++ "/" ++ file

def filePath (directory pipeline : String) : Except ConfigurationError String :=
  match fileName? pipeline with
  | some name => .ok (joinPath directory name)
  | none => .error (.unknownPipeline pipeline)

def readMapping (files : Files) (path : String) : Except ConfigurationError Mapping := do
  let value ← (files.read none path .mapping).mapError (.mappingNotRead path)
  (Mapping.decode value).mapError (.mappingInvalid path)

/-- The mapping for a pipeline. Only one in memory is known to define it. -/
def load (source : MappingSource) (files : Files) (pipeline : String) :
    Except ConfigurationError Mapping :=
  match source with
  | .memory mapping =>
    match mapping.directives? pipeline with
    | some _ => .ok mapping
    | none => .error (.missingPipeline pipeline)
  | .file path => readMapping files path
  | .directory path => do readMapping files (← filePath path pipeline)

def directives (source : MappingSource) (files : Files) (pipeline : String) :
    Except ConfigurationError (List Directive) := do
  match (← source.load files pipeline).directives? pipeline with
  | some directives => .ok directives
  | none => .error (.missingPipeline pipeline)

end MappingSource

end Reconcile
