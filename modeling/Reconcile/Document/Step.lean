import Reconcile.Document.Json.Printer

namespace Reconcile

inductive Step
  | name (name : String)
  | index (position : Nat)
deriving DecidableEq, Repr

namespace Step

def text : Step → String
  | .name label => .ofList ('[' :: Json.quote label.toList ++ [']'])
  | .index position => .ofList ('[' :: position.repr.toList ++ [']'])

def path (step : Step) : String := "$" ++ step.text

/-- Names come before positions; names are in the order of their code points. -/
def le : Step → Step → Bool
  | .name a, .name b => a ≤ b
  | .name _, .index _ => true
  | .index _, .name _ => false
  | .index a, .index b => a ≤ b

def sort (steps : List Step) : List Step := steps.mergeSort le

end Step

def Value.step? (value : Value) : Step → Option Value
  | .name name => value.member? name
  | .index position =>
    match value with
    | .array items => items[position]?
    | _ => none

def Value.at? (value : Value) (location : List Step) : Option Value :=
  location.foldlM (fun value step => value.step? step) value

end Reconcile
