import Reconcile.Document.Json.Reader
import Reconcile.Text.Blank

namespace Reconcile.Lines

open Text

inductive Error
  | notText
  | json (cause : Json.Error)
deriving DecidableEq, Repr

/-- The pieces between line feeds, each with whether one follows; nothing after the last one. -/
def splitLines : List UInt8 → List (List UInt8 × Bool)
  | [] => []
  | b :: rest =>
    if b = 10 then ([], true) :: splitLines rest
    else
      match splitLines rest with
      | [] => [([b], false)]
      | (line, ended) :: lines => (b :: line, ended) :: lines

def dropReturn (line : List Char) (ended : Bool) : List Char :=
  if ended && line.getLast? == some '\r' then line.dropLast else line

def readLine (bytes : List UInt8) (ended : Bool) : Except Error (Option Value) :=
  match Utf8.decode bytes with
  | .error _ => .error .notText
  | .ok text =>
    let line := dropReturn text ended
    if (trim line).isEmpty then .ok none
    else match Json.read .text (Utf8.encode line) with
      | .ok value => .ok (some value)
      | .error cause => .error (.json cause)

def readRows (lines : List (List UInt8 × Bool)) : Except Error (List Value) := do
  let values ← lines.mapM fun (bytes, ended) => readLine bytes ended
  return values.filterMap id

def read (input : List UInt8) : Except Error (List Value) := readRows (splitLines input)

end Reconcile.Lines
