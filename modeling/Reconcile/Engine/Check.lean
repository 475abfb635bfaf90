import Reconcile.Comparison

namespace Reconcile

inductive Policy
  /-- The first mismatch of values ends the run. -/
  | failFast
  /-- Mismatches of values are collected, one for each rule. -/
  | collectAll
deriving DecidableEq, Repr

/-- Whether a run goes on after a fault. -/
def Policy.tolerates : Policy → Fault → Bool
  | _, .unknownRule _ => true
  | .collectAll, .valueMismatch .. => true
  | _, _ => false

def Rule.strictness? : Rule → Option Strictness
  | equal => some .trimmed
  | equalStripped => some .stripped
  | unrecognized _ => none

namespace Directive

def checkByPath (transforms : List Transform) (source target : Address) (rule : Rule)
    (sourceDocument targetDocument : Value) : Except Fault Nat := do
  let sourceValues ← source.extract transforms sourceDocument
  let targetValues ← target.extract [] targetDocument
  if sourceValues.length ≠ targetValues.length then
    .error (.lengthMismatch source sourceValues.length targetValues.length)
  else match rule.strictness? with
    | some strictness => compareItems strictness sourceValues targetValues
    | none => .error (.unknownRule rule.name)

/-- One rule of a comparison of whole files. Only one rule is known there, and blanks do not
count. -/
def checkFiles (rule : Rule) (sourceDocument targetDocument : Value) : Except Fault Nat :=
  match rule with
  | .equal => compareDocuments .stripped sourceDocument targetDocument
  | _ => .error (.unknownRule rule.name)

end Directive

end Reconcile
