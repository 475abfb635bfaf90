import Reconcile.Document.Value
import Reconcile.Text.Utf8

namespace Reconcile.Csv

open Text

structure Place where
  line : Nat
  byte : Nat
deriving DecidableEq, Repr

def Place.after (place : Place) (b : UInt8) : Place :=
  ⟨if b = 10 then place.line + 1 else place.line, place.byte + 1⟩

structure RawRecord where
  place : Place
  fields : List (List UInt8)

inductive Error
  | unequalLengths (record : Nat) (place : Place) (length expected : Nat)
  | notText (record : Nat) (place : Place) (field position : Nat)
deriving DecidableEq, Repr

def Error.message : Error → String
  | .unequalLengths record place length expected =>
    "CSV error: record " ++ record.repr ++ " (line: " ++ place.line.repr ++ ", byte: "
      ++ place.byte.repr ++ "): found record with " ++ length.repr
      ++ " fields, but the previous record has " ++ expected.repr ++ " fields"
  | .notText record place field position =>
    "CSV parse error: record " ++ record.repr ++ " (line " ++ place.line.repr ++ ", field: "
      ++ field.repr ++ ", byte: " ++ place.byte.repr
      ++ "): invalid utf-8: invalid UTF-8 in field " ++ field.repr ++ " near byte index "
      ++ position.repr

inductive Spot
  | between
  | behindReturn
  | fieldStart
  | inField
  | inQuotes
  | behindQuote
deriving DecidableEq, Repr

/-- A record in the making: its place and its fields, the last field and the last byte first. -/
structure Draft where
  place : Place
  fields : List (List UInt8) := []
  field : List UInt8 := []

def Draft.push (draft : Draft) (b : UInt8) : Draft := { draft with field := b :: draft.field }

def Draft.endField (draft : Draft) : Draft :=
  { draft with fields := draft.field.reverse :: draft.fields, field := [] }

def Draft.record (draft : Draft) : RawRecord := ⟨draft.place, draft.endField.fields.reverse⟩

def isTerminator (b : UInt8) : Bool := b == 10 || b == 13

def advance (spot : Spot) (draft : Draft) (here : Place) (b : UInt8) :
    Spot × Draft × Option RawRecord :=
  let plain : Spot × Draft × Option RawRecord :=
    if b = 44 then (.fieldStart, draft.endField, none)
    else if b = 13 then (.behindReturn, { place := here }, some draft.record)
    else if b = 10 then (.between, { place := here }, some draft.record)
    else (.inField, draft.push b, none)
  let start := if b = 34 then (.inQuotes, draft, none) else plain
  match spot with
  | .between => if isTerminator b then (.between, draft, none) else start
  | .behindReturn => if isTerminator b then (.between, draft, none) else start
  | .fieldStart => start
  | .inField => plain
  | .inQuotes => if b = 34 then (.behindQuote, draft, none) else (.inQuotes, draft.push b, none)
  | .behindQuote => if b = 34 then (.inQuotes, draft.push b, none) else plain

/-- The records from a spot on; what stands at the end of the input is one too. -/
def recordsFrom (spot : Spot) (draft : Draft) (here : Place) : List UInt8 → List RawRecord
  | [] =>
    match spot with
    | .between | .behindReturn => []
    | _ => [draft.record]
  | b :: rest =>
    let here := here.after b
    match advance spot draft here b with
    | (spot, draft, some record) => record :: recordsFrom spot draft here rest
    | (spot, draft, none) => recordsFrom spot draft here rest

/-- All records. A byte order mark at the start is read over. -/
def records (input : List UInt8) : List RawRecord :=
  match input with
  | 0xEF :: 0xBB :: 0xBF :: rest => recordsFrom .between ⟨⟨1, 0⟩, [], []⟩ ⟨1, 3⟩ rest
  | _ => recordsFrom .between ⟨⟨1, 0⟩, [], []⟩ ⟨1, 0⟩ input

def RawRecord.texts (record : RawRecord) (number : Nat) : Except Error (List String) :=
  record.fields.zipIdx.mapM fun (field, i) =>
    match Utf8.decode field with
    | .ok text => .ok (.ofList text)
    | .error position => .error (.notText number record.place i position)

def row (header : List String) (width number : Nat) (record : RawRecord) : Except Error Value := do
  if record.fields.length ≠ width then
    .error (.unequalLengths number record.place record.fields.length width)
  else
    let cells ← record.texts number
    return .ofMembers ((header.zip cells).map fun (name, cell) => (name, .string cell))

/-- The rows of a table. All records have as many fields as the first one, which names the columns.
-/
def read (input : List UInt8) : Except Error Value := do
  match records input with
  | [] => return .array []
  | header :: rows =>
    let names ← header.texts 0
    let values ← (rows.zipIdx 1).mapM fun (record, number) =>
      row names header.fields.length number record
    return .array values

end Reconcile.Csv
