import Reconcile.Engine.Progress
import Reconcile.Mapping.Source

namespace Reconcile

inductive Failure
  | aborted (fault : Fault)
  /-- It went on to its end, and these faults were reported. -/
  | reported (faults : List Fault)

namespace Failure

def faults : Failure → List Fault
  | aborted fault => [fault]
  | reported faults => faults

def cause? (failure : Failure) : Option Fault := failure.faults.head?

def message : Failure → String
  | aborted fault => fault.message
  | reported [] => "failures reported"
  | reported [first] => first.message
  | reported (first :: rest) =>
    (rest.length + 1).repr ++ " failures reported; first: " ++ first.message

end Failure

structure Engine where
  mappings : MappingSource
  policy : Policy

structure Request where
  pipeline : String
  source : Value
  target : Value

namespace Engine

def runDirectives (policy : Policy) (request : Request) (directives : List Directive)
    (progress : Progress) : Except Halt Progress :=
  directives.zipIdx.foldlM
    (fun progress (directive, index) =>
      directive.run policy request.pipeline index request.source request.target progress)
    progress

def run (engine : Engine) (files : Files) (request : Request) (reporter : Reporter) :
    Except Halt Progress := do
  let directives ← (engine.mappings.directives files request.pipeline).mapError
    fun cause => ⟨.configuration cause, reporter⟩
  let summary : Summary := { pipeline := request.pipeline, directives := directives.length }
  let progress ← runDirectives engine.policy request directives { summary, reporter }
  return progress.finish

/-- Runs and lets a channel know, which holds what it was told before. -/
def execute (engine : Engine) (files : Files) (request : Request) (channel : List Message) :
    Except Fault Summary × List Message :=
  match engine.run files request { channel } with
  | .ok progress => (.ok progress.summary, progress.reporter.channel)
  | .error halt => (.error halt.fault, halt.reporter.channel)

/-- The summary of a run in which nothing failed. -/
def evaluate (engine : Engine) (files : Files) (request : Request) : Except Failure Summary :=
  match engine.run files request { channel := [] } with
  | .ok progress =>
    if progress.reporter.reported.isEmpty then .ok progress.summary
    else .error (.reported progress.reporter.reported)
  | .error halt => .error (.aborted halt.fault)

/-- Runs one request after another on one channel: what each returns with all that the channel
holds by then. -/
def executeAll (engine : Engine) (files : Files) (channel : List Message) :
    List Request → List (Except Fault Summary × List Message)
  | [] => []
  | request :: requests =>
    let step := engine.execute files request channel
    step :: engine.executeAll files step.2 requests

end Engine

def completions (channel : List Message) : List Summary :=
  channel.filterMap fun
    | .completed summary => some summary
    | .failed _ => none

def failureTexts (channel : List Message) : List String :=
  channel.filterMap fun
    | .completed _ => none
    | .failed fault => some fault.message

end Reconcile
