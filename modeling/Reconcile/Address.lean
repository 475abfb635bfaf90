import Reconcile.Text.Blank

namespace Reconcile

inductive Address.Kind
  | query
  | field
  | unrecognized (suffix : String)
deriving DecidableEq, Repr

structure Address where
  selector : String
  kind : Address.Kind
deriving DecidableEq, Repr

namespace Address

def Kind.ofSuffix (suffix : String) : Kind :=
  if suffix = "jsonpath" then .query
  else if suffix = "path" then .field
  else .unrecognized suffix

def Kind.suffix : Kind → String
  | .query => "jsonpath"
  | .field => "path"
  | .unrecognized suffix => suffix

/-- The selector stands before the first bar, the kind between it and the next; the rest does not
count. -/
def parse (text : String) : Address :=
  match Text.splitOn '|' text.toList with
  | selector :: suffix :: _ => ⟨.ofList selector, .ofSuffix (.ofList suffix)⟩
  | [selector] => ⟨.ofList selector, .unrecognized ""⟩
  | [] => ⟨"", .unrecognized ""⟩

def text (address : Address) : String :=
  if address.kind = .unrecognized "" then address.selector
  else address.selector ++ "|" ++ address.kind.suffix

end Address

end Reconcile
