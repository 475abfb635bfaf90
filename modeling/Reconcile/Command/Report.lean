import Reconcile.Command.Run

namespace Reconcile.Command

inductive Name
  | run
  | hours
deriving DecidableEq, Repr

def Name.text : Name → String
  | run => "run"
  | hours => "hours"

def Name.steps : Name → List String
  | run =>
    ["load_source", "load_target", "resolve_mapping", "extract_values", "apply_transformations",
     "compare_values"]
  | hours => ["split_segments", "expand_day_ranges", "convert_12h_to_24h"]

def Name.guarantees : Name → List String
  | run =>
    ["mapping_read_per_run", "directives_in_mapping_order", "transforms_in_mapping_key_order",
     "first_failure_reported"]
  | hours => ["fixed_week_order", "no_wraparound_day_ranges"]

inductive Origin
  | argument
  | path (path : String) (format : Option String)
deriving DecidableEq, Repr

structure Input where
  label : String
  origin : Origin
deriving DecidableEq, Repr

def Input.toValue (input : Input) : Value :=
  let source (name : String) : String × Value := ("source", .string name)
  .object (("label", .string input.label) :: match input.origin with
    | .argument => [source "argument"]
    | .path path format =>
      source "path" :: ("path", .string path)
        :: (format.map fun name => ("format", Value.string name)).toList)

structure Report where
  command : Name
  inputs : List Input
deriving DecidableEq, Repr

def Report.toValue (report : Report) : Value :=
  let texts (items : List String) : Value := .array (items.map .string)
  .object [
    ("command", .string report.command.text),
    ("input", .object [("sources", .array (report.inputs.map Input.toValue))]),
    ("steps", texts report.command.steps),
    ("deterministic_guards", texts report.command.guarantees)]

def Input.document (role : Role) (given : Option Format) (path : String) : Input where
  label := role.name
  origin := .path path ((Format.resolve given path role).toOption.map Format.name)

def Input.mappings : MappingSource → Input
  | .memory _ => { label := "mapping", origin := .argument }
  | .file path => .document .mapping none path
  | .directory path => { label := "mapping_dir", origin := .path path none }

def Report.ofRun (options : RunOptions) : Report where
  command := .run
  inputs := [
    { label := "pipeline", origin := .argument },
    .mappings options.mappings,
    .document .source options.sourceFormat options.source,
    .document .target options.targetFormat options.target]

def Report.ofHours : Report where
  command := .hours
  inputs := [{ label := "text", origin := .argument }]

end Reconcile.Command
