import Reconcile.Hours.Clock
import Reconcile.Proofs.Text.Decimal

namespace Reconcile.Hours

open Text

structure Parts where
  hours : List Char
  minutes : List Char
  half : List Char

/-- The parts that a time is read as; what follows a second colon does not count. -/
def parts? (time : List Char) : Option Parts :=
  (splitHalf? time).map fun (clock, half) => ⟨(clockParts clock).1, (clockParts clock).2, half⟩

namespace Parts

def isNumber (parts : Parts) : Bool := !parts.hours.isEmpty && parts.hours.all Char.isDigit

def isAfternoon (parts : Parts) : Bool := sameLetters parts.half "pm".toList

def shownHour? (parts : Parts) : Option (List Char) :=
  if parts.isNumber then
    if parts.isAfternoon then afternoon? (twoDigits parts.hours) else some (twoDigits parts.hours)
  else none

theorem shownHour?_map (parts : Parts) :
    parts.shownHour?.map (· ++ parts.minutes) = (do
      guard ((!parts.hours.isEmpty && parts.hours.all Char.isDigit) = true)
      if sameLetters parts.half "pm".toList = true then
        return (← afternoon? (twoDigits parts.hours)) ++ parts.minutes
      else return twoDigits parts.hours ++ parts.minutes) := by
  by_cases number : parts.isNumber = true
  · have passed : (guard ((!parts.hours.isEmpty && parts.hours.all Char.isDigit) = true) :
        Option Unit) = some () := if_pos number
    rw [passed, shownHour?, if_pos number]
    by_cases afternoon : parts.isAfternoon = true
    · have letters : sameLetters parts.half "pm".toList = true := afternoon
      rw [if_pos afternoon, if_pos letters]
      cases afternoon? (twoDigits parts.hours) <;> rfl
    · have letters : ¬sameLetters parts.half "pm".toList = true := afternoon
      rw [if_neg afternoon, if_neg letters]
      rfl
  · have failed : (guard ((!parts.hours.isEmpty && parts.hours.all Char.isDigit) = true) :
        Option Unit) = none := if_neg number
    rw [failed, shownHour?, if_neg number]
    rfl

end Parts

theorem convertClock?_eq (time : List Char) :
    convertClock? time =
      (parts? time).bind fun parts => parts.shownHour?.map (· ++ parts.minutes) := by
  rw [convertClock?, parts?]
  cases splitHalf? time with
  | none => rfl
  | some cut =>
    obtain ⟨clock, half⟩ := cut
    exact (Parts.shownHour?_map ⟨(clockParts clock).1, (clockParts clock).2, half⟩).symm

end Reconcile.Hours
