import Reconcile.Hours.Schedule
import Reconcile.Proofs.Text.Decimal
import Reconcile.Text.Search

namespace Reconcile.Hours

open Text

structure Time where
  hour : Nat
  padded : Bool
  minute : Option Nat
  afternoon : Bool
  letters : List Char
  hour_pos : 0 < hour
  hour_le : hour ≤ 12
  minute_lt : ∀ m ∈ minute, m < 60
  spelled : asciiLower letters = if afternoon then ['p', 'm'] else ['a', 'm']

namespace Time

def hourDigits (time : Time) : List Char :=
  if time.hour < 10 ∧ time.padded = false then [time.hour.digitChar] else twoPlaces time.hour

def minuteDigits (time : Time) : List Char := time.minute.elim [] fun m => ':' :: twoPlaces m

def write (time : Time) : List Char := time.hourDigits ++ time.minuteDigits ++ time.letters

def shown (time : Time) : String :=
  .ofList (twoPlaces (time.hour % 12 + if time.afternoon then 12 else 0) ++
    twoPlaces (time.minute.getD 0))

end Time

inductive Times
  | closed (mark : List Char)
      (spelled : asciiLower mark = "closed".toList ∨ asciiLower mark = "cl".toList)
  | span (opening closing : Time)

namespace Times

def write : Times → List Char
  | closed mark _ => mark
  | span opening closing => opening.write ++ '-' :: closing.write

def opening : Times → String
  | closed .. => closedMark
  | span opening _ => opening.shown

def closing : Times → String
  | closed .. => closedMark
  | span _ closing => closing.shown

end Times

inductive Days
  | single (day : Day)
  | range (first last : Day)

namespace Days

def write : Days → List Char
  | single day => day.abbreviation.toList
  | range first last => first.abbreviation.toList ++ '-' :: last.abbreviation.toList

def days : Days → List Day
  | single day => [day]
  | range first last => (Day.week.take (last.index + 1)).drop first.index

end Days

structure Blanks where
  chars : List Char
  blank : ∀ c ∈ chars, isBlank c = true

/-- What stands between two commas of a schedule: only blanks, or days and times with blanks
between and around them. -/
inductive Segment
  | empty (blanks : Blanks)
  | hours (before : Blanks) (days : Days) (between : Blanks) (apart : between.chars ≠ [])
      (times : Times) (after : Blanks)

namespace Segment

def write : Segment → List Char
  | empty blanks => blanks.chars
  | hours before days between _ times after =>
    before.chars ++ (days.write ++ (between.chars ++ times.write)) ++ after.chars

def records : Segment → List Record
  | empty _ => []
  | hours _ days _ _ times _ => days.days.map fun day => ⟨day, times.opening, times.closing⟩

end Segment

def writeSchedule (segments : List Segment) : String :=
  .ofList (join ',' (segments.map Segment.write))

end Reconcile.Hours
