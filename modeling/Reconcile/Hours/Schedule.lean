import Reconcile.Hours.Clock
import Reconcile.Hours.Day

namespace Reconcile.Hours

open Text

structure Record where
  day : Day
  opening : String
  closing : String
deriving DecidableEq, Repr

def Record.value (record : Record) : Value :=
  .object [("day", .string record.day.abbreviation), ("open", .string record.opening),
    ("close", .string record.closing)]

def scheduleValue (records : List Record) : Value := .array (records.map Record.value)

def resolveDay (text : List Char) : Except Error Day :=
  match Day.ofAbbreviation? (.ofList text) with
  | some day => .ok day
  | none => .error (.unknownDay (.ofList text))

def daysOf (text : List Char) : Except Error (List Day) := do
  let (first, last) := (cutAt '-' text).getD (text, text)
  let first ← resolveDay first
  let last ← resolveDay last
  return first.through last

def timesOf (text : List Char) : Except Error (String × String) :=
  match cutAt '-' text with
  | some (opening, closing) => do
    let opening ← convertTime opening
    let closing ← convertTime closing
    return (opening, closing)
  | none =>
    if isClosed text then .ok (closedMark, closedMark)
    else .error (.missingClosing (.ofList text))

/-- The records of one segment, which is trimmed; none if it is empty. What follows the second
word does not count. -/
def segmentRecords (segment : List Char) : Except Error (List Record) :=
  match words segment with
  | [] => .ok []
  | [_] => .error (.missingTimes (.ofList segment))
  | days :: times :: _ => do
    let (opening, closing) ← timesOf times
    let days ← daysOf days
    return days.map fun day => { day, opening, closing }

def segmentsRecords : List (List Char) → Except Error (List Record)
  | [] => .ok []
  | segment :: segments => do
    let records ← segmentRecords (trim segment)
    let more ← segmentsRecords segments
    return records ++ more

/-- One record for each day that a segment names. In a segment the times are read before the days.
-/
def parseSchedule (text : String) : Except Error (List Record) :=
  segmentsRecords (splitOn ',' text.toList)

def expandWith (serializer : Serializer) (text : String) :
    Except (ExpansionError serializer) String := do
  let records ← (parseSchedule text).mapError .schedule
  (serializer.text (scheduleValue records)).mapError .serialize

def expand (text : String) : Except Error String :=
  (expandWith .json text).mapError fun | .schedule cause => cause

end Reconcile.Hours
