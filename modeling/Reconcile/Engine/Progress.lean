import Reconcile.Engine.Check

namespace Reconcile

inductive Status
  | running
  | completed
  | failed
deriving DecidableEq, Repr

def Status.name : Status → String
  | running => "running"
  | completed => "completed"
  | failed => "failed"

structure Summary where
  pipeline : String
  status : Status := .running
  directives : Nat
  skipped : Nat := 0
  rules : Nat := 0
  compared : Nat := 0
  reported : Nat := 0
deriving DecidableEq, Repr

def Summary.toValue (summary : Summary) : Value :=
  let count (n : Nat) : Value := .number (.int n)
  .object [
    ("pipeline", .string summary.pipeline),
    ("status", .string summary.status.name),
    ("directives", count summary.directives),
    ("skipped_directives", count summary.skipped),
    ("rules_evaluated", count summary.rules),
    ("values_compared", count summary.compared),
    ("reported_failures", count summary.reported)]

inductive Message
  | completed (summary : Summary)
  | failed (fault : Fault)

/-- What a run reports. One message at most goes to its channel: the first fault that is reported,
or the summary if the run completes. -/
structure Reporter where
  channel : List Message
  settled : Bool := false
  reported : List Fault := []

namespace Reporter

/-- Sends a message, unless one was sent before. -/
def send (reporter : Reporter) (message : Message) : Reporter :=
  if reporter.settled then reporter
  else { reporter with channel := reporter.channel ++ [message], settled := true }

def fail (reporter : Reporter) (fault : Fault) : Reporter :=
  let sent := reporter.send (.failed fault)
  { sent with reported := sent.reported ++ [fault] }

def complete (reporter : Reporter) (summary : Summary) : Reporter :=
  reporter.send (.completed summary)

end Reporter

structure Progress where
  summary : Summary
  reporter : Reporter

structure Halt where
  fault : Fault
  reporter : Reporter

namespace Progress

def skip (progress : Progress) : Progress :=
  { progress with summary := { progress.summary with skipped := progress.summary.skipped + 1 } }

def beginRule (progress : Progress) : Progress :=
  { progress with summary := { progress.summary with rules := progress.summary.rules + 1 } }

def count (progress : Progress) (pairs : Nat) : Progress :=
  { progress with
    summary := { progress.summary with compared := progress.summary.compared + pairs } }

def report (progress : Progress) (fault : Fault) : Progress :=
  { progress with reporter := progress.reporter.fail fault }

def halt (progress : Progress) (fault : Fault) : Halt := ⟨fault, progress.reporter⟩

def settle (progress : Progress) (policy : Policy) (outcome : Except Fault Nat) :
    Except Halt Progress :=
  match outcome with
  | .ok pairs => .ok (progress.count pairs)
  | .error fault =>
    if policy.tolerates fault then .ok (progress.report fault) else .error (progress.halt fault)

def checkRules (progress : Progress) (policy : Policy) (check : Rule → Except Fault Nat)
    (rules : List Rule) : Except Halt Progress :=
  rules.foldlM (fun progress rule => progress.beginRule.settle policy (check rule)) progress

def finish (progress : Progress) : Progress :=
  let summary := { progress.summary with reported := progress.reporter.reported.length }
  if summary.reported = 0 then
    let summary := { summary with status := .completed }
    { summary, reporter := progress.reporter.complete summary }
  else
    { progress with summary := { summary with status := .failed } }

end Progress

namespace Directive

def addresses (directive : Directive) (pipeline : String) (index : Nat) :
    Except Fault (Address × Address) :=
  match directive.source, directive.target with
  | some source, some target => .ok (source, target)
  | none, _ => .error (.configuration (.missingAddress pipeline index .source))
  | some _, none => .error (.configuration (.missingAddress pipeline index .target))

def run (directive : Directive) (policy : Policy) (pipeline : String) (index : Nat)
    (source target : Value) (progress : Progress) : Except Halt Progress :=
  match directive.method with
  | .unsupported => .ok progress.skip
  | .sameFile =>
    progress.checkRules policy (fun rule => checkFiles rule source target) directive.rules.rules
  | .byPath => do
    let (sourceAddress, targetAddress) ←
      (directive.addresses pipeline index).mapError progress.halt
    progress.checkRules policy
      (fun rule =>
        checkByPath directive.transforms sourceAddress targetAddress rule source target)
      directive.rules.rules

end Directive

end Reconcile
