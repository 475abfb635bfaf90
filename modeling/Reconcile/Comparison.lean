import Reconcile.Document.Plain
import Reconcile.Extraction

namespace Reconcile

/-- How much blanks count: not at the ends of a text, or nowhere in it. -/
inductive Strictness
  | trimmed
  | stripped
deriving DecidableEq, Repr

structure Pair where
  step : Step
  source : Value
  target : Value

namespace Pair

def agree (strictness : Strictness) (pair : Pair) : Except InputError Bool :=
  match strictness with
  | .trimmed => .ok (Text.trim pair.source.plain == Text.trim pair.target.plain)
  | .stripped => do
    let source ← Operation.strippedComparison.textOf pair.source
    let target ← Operation.strippedComparison.textOf pair.target
    return Text.squeeze source.toList == Text.squeeze target.toList

def check (strictness : Strictness) (pair : Pair) : Except Fault Unit :=
  match pair.agree strictness with
  | .ok true => .ok ()
  | .ok false => .error (.valueMismatch pair.step pair.source pair.target)
  | .error cause => .error (.input cause)

def compare (strictness : Strictness) (pairs : List Pair) : Except Fault Nat := do
  pairs.forM (check strictness)
  return pairs.length

def ofItems (source target : List Value) : List Pair :=
  (source.zip target).zipIdx.map fun ((source, target), index) => ⟨.index index, source, target⟩

def ofMembers (source target : List (String × Value)) : List Pair :=
  source.filterMap fun (name, value) => (target.lookup name).map (⟨.name name, value, ·⟩)

/-- What two documents have in common. A source that is no array or object is compared as a
whole. -/
def ofDocuments : (source target : Value) → List Pair
  | .array source, .array target => ofItems source target
  | .object source, .object target => ofMembers source target
  | .array _, _ => []
  | .object _, _ => []
  | source, target => [⟨.index 0, source, target⟩]

end Pair

def compareItems (strictness : Strictness) (source target : List Value) : Except Fault Nat :=
  Pair.compare strictness (Pair.ofItems source target)

def compareDocuments (strictness : Strictness) (source target : Value) : Except Fault Nat :=
  Pair.compare strictness (Pair.ofDocuments source target)

end Reconcile
