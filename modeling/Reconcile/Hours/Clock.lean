import Reconcile.Hours.Error
import Reconcile.Number.Power
import Reconcile.Text.Blank
import Reconcile.Text.Digits
import Reconcile.Text.Utf8

namespace Reconcile.Hours

open Text

def closedMark : String := "CLOSED"

def isClosed (time : List Char) : Bool :=
  sameLetters time "closed".toList || sameLetters time "cl".toList

/-- Splits off the last two bytes, if they are whole characters with something before them. -/
def splitHalf? (time : List Char) : Option (List Char × List Char) :=
  match time.reverse with
  | last :: clock =>
    if Utf8.width last = 2 then some (clock.reverse, [last])
    else if Utf8.width last = 1 then
      match clock with
      | other :: clock => if Utf8.width other = 1 then some (clock.reverse, [other, last]) else none
      | [] => none
    else none
  | [] => none

def twoDigits (hours : List Char) : List Char :=
  if hours = ['1', '2'] then ['0', '0']
  else if hours.length = 1 then '0' :: hours
  else hours

/-- Twelve hours later, in as few digits as it takes; an hour of more than 32 bits is none. -/
def afternoon? (hours : List Char) : Option (List Char) :=
  if decimalValue hours + 12 < twoTo 32 then some (decimalValue hours + 12).repr.toList else none

def clockParts (clock : List Char) : List Char × List Char :=
  match splitOn ':' clock with
  | hours :: minutes :: _ => (hours, minutes)
  | [hours] => (hours, ['0', '0'])
  | [] => ([], ['0', '0'])

def convertClock? (time : List Char) : Option (List Char) := do
  let (clock, half) ← splitHalf? time
  let (hours, minutes) := clockParts clock
  guard (!hours.isEmpty && hours.all Char.isDigit)
  let hours := twoDigits hours
  if sameLetters half "pm".toList then return (← afternoon? hours) ++ minutes
  else return hours ++ minutes

def convertTime (time : List Char) : Except Error String :=
  if isClosed time then .ok closedMark
  else match convertClock? time with
    | some digits => .ok (.ofList digits)
    | none => .error (.invalidHour (.ofList time))

end Reconcile.Hours
