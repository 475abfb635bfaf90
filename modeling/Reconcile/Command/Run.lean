import Reconcile.Command.Response
import Reconcile.Document.Json.Serializer
import Reconcile.Engine.Run

namespace Reconcile.Command

structure RunOptions where
  pipeline : String
  source : String
  target : String
  sourceFormat : Option Format := none
  targetFormat : Option Format := none
  mappings : MappingSource
  policy : Policy := .failFast

/-- The documents that the options name. A fault of the source is told before one of the target. -/
def RunOptions.request (options : RunOptions) (files : Files) : Except ReadError Request := do
  let source ← files.read options.sourceFormat options.source .source
  let target ← files.read options.targetFormat options.target .target
  return { pipeline := options.pipeline, source, target }

/-- Whether a fault is one of the input and not of the comparison. -/
def isInputFault : Fault → Bool
  | .configuration _ => true
  | .extraction _ => true
  | _ => false

def faultMembers (fault : Fault) : List (String × Value) :=
  [("kind", .string fault.label), ("message", .string fault.message)]

def comparisonFailed (pipeline : String) (failure : Failure) (aborted : Bool) : Response where
  exit := .comparisonFailed
  payload := .object [
    ("pipeline", .string pipeline),
    ("status", .string Status.failed.name),
    ("aborted", .bool aborted),
    ("failure_count", .number (.int failure.faults.length)),
    ("failures", .array (failure.faults.map fun fault => .object (faultMembers fault)))]

def failureResponse (pipeline : String) (failure : Failure) : Response :=
  match failure with
  | .aborted fault =>
    if isInputFault fault then
      { exit := .inputError, payload := .object (errorMember :: faultMembers fault) }
    else comparisonFailed pipeline failure true
  | .reported .. => comparisonFailed pipeline failure false

def run (files : Files) (options : RunOptions) (serializer : Serializer := .json) : Response :=
  match options.request files with
  | .error cause => .inputError cause.message
  | .ok request =>
    let engine : Engine := { mappings := options.mappings, policy := options.policy }
    match engine.evaluate files request with
    | .ok summary =>
      match serializer.value summary.toValue with
      | .ok payload => { exit := .success, payload }
      | .error _ => .internalError "failed to serialize run summary"
    | .error failure => failureResponse options.pipeline failure

end Reconcile.Command
