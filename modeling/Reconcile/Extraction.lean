import Reconcile.Document.Plain
import Reconcile.Fault
import Reconcile.Hours.Schedule
import Reconcile.Query.Eval
import Reconcile.Query.Parser
import Reconcile.Text.Search

namespace Reconcile

def fieldOf (field : String) (element : Value) (index : Nat) : Except ExtractionError Value :=
  match element with
  | .object members =>
    match members.lookup field with
    | some value => .ok value
    | none => .error (.missingField field index)
  | _ => .error (.notObject field index element.kind)

def Address.resolve (address : Address) (document : Value) :
    Except ExtractionError (List Value) :=
  match address.kind with
  | .query =>
    match Path.parse address.selector with
    | .ok path => .ok (path.query document)
    | .error cause => .error (.query cause)
  | .field =>
    match document with
    | .array elements =>
      elements.zipIdx.mapM fun (element, index) => fieldOf address.selector element index
    | _ => .error (.notArray address.selector document.kind)
  | .unrecognized _ => .ok []

def Operation.textOf (operation : Operation) (value : Value) : Except InputError String :=
  match value with
  | .string text => .ok text
  | _ => .error (.notString operation value.kind)

namespace Transform

def prefixFor (address : Address) (element : Value) : Except ExtractionError (List Char) :=
  (address.resolve (.array [element])).map fun values => Text.join ',' (values.map Value.plain)

def apply (transform : Transform) (element value : Value) : Except Fault Value :=
  match transform with
  | removePrefix address => do
    let start ← (prefixFor address element).mapError .extraction
    let text ← (Operation.removePrefix.textOf value).mapError .input
    return .string (.ofList (Text.removeFirst start text.toList))
  | timeFormat .storeHours => do
    let text ← (Operation.storeHours.textOf value).mapError .input
    let expanded ← (Hours.expand text).mapError fun cause => .input (.hours cause)
    return .string expanded
  | timeFormat (.other _) => .ok value
  | unrecognized _ => .ok value

def applyAll (transforms : List Transform) (element value : Value) : Except Fault Value :=
  transforms.foldlM (fun value transform => transform.apply element value) value

end Transform

/-- The values that an address finds, those of a field transformed. The first element at fault
ends it. -/
def Address.extract (address : Address) (transforms : List Transform) (document : Value) :
    Except Fault (List Value) :=
  match address.kind, document with
  | .field, .array elements =>
    elements.zipIdx.mapM fun (element, index) => do
      let value ← (fieldOf address.selector element index).mapError .extraction
      Transform.applyAll transforms element value
  | _, _ => (address.resolve document).mapError .extraction

end Reconcile
