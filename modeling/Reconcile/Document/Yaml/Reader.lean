import Reconcile.Document.Json.Printer
import Reconcile.Document.Yaml.Composition
import Reconcile.Text.Utf8

namespace Reconcile.Yaml

open Text

inductive Error
  /-- The text is not the YAML of one document. Nothing is kept of what is wrong with it. -/
  | invalid
  | keyNotScalar
  | keyNotFinite
deriving DecidableEq, Repr

def keyName : Tree → Except Error String
  | .string text => .ok text
  | .bool b => .ok (Value.bool b).json
  | .int n => .ok (Value.number (.int n)).json
  | .float (.finite x) => .ok (Value.number (.float x)).json
  | .float _ => .error .keyNotFinite
  | _ => .error .keyNotScalar

mutual

def toValue : Tree → Except Error Value
  | .null => .ok .null
  | .bool b => .ok (.bool b)
  | .int n => .ok (.number (.int n))
  | .float (.finite x) => .ok (.number (.float x))
  | .float _ => .ok .null
  | .string text => .ok (.string text)
  | .sequence items => (itemValues items).map .array
  | .mapping members => (memberValues members).map .ofMembers
  | .tagged tag content => (toValue content).map fun value => .object [(tag, value)]

def itemValues : List Tree → Except Error (List Value)
  | [] => .ok []
  | item :: items => do return (← toValue item) :: (← itemValues items)

def memberValues : List (Tree × Tree) → Except Error (List (String × Value))
  | [] => .ok []
  | (key, value) :: members => do
    return (← keyName key, ← toValue value) :: (← memberValues members)

end

def parse (input : List UInt8) : Option Tree := do
  match Utf8.decode input with
  | .ok text =>
    guard (text.all isAllowed)
    Tree.ofNode? (← Node.ofTokens? (← Token.ofText text))
  | .error _ => none

def read (input : List UInt8) : Except Error Value :=
  match parse input with
  | some tree => toValue tree
  | none => .error .invalid

end Reconcile.Yaml
