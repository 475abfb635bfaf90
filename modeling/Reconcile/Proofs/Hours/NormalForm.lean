import Mathlib.Data.List.TakeDrop
import Reconcile.Hours.Schedule
import Reconcile.Proofs.Fallible
import Reconcile.Proofs.Hours.Clock

namespace Reconcile.Hours

open Text

def IsClockTime (digits : List Char) : Prop :=
  digits.length = 4 ∧ digits.all Char.isDigit = true ∧
    decimalValue (digits.take 2) < 24 ∧ decimalValue (digits.drop 2) < 60

instance (digits : List Char) : Decidable (IsClockTime digits) :=
  inferInstanceAs (Decidable (_ ∧ _ ∧ _ ∧ _))

def IsNormal (time : String) : Prop := time = closedMark ∨ IsClockTime time.toList

instance (time : String) : Decidable (IsNormal time) := inferInstanceAs (Decidable (_ ∨ _))

def Record.IsNormal (record : Record) : Prop :=
  Hours.IsNormal record.opening ∧ Hours.IsNormal record.closing

theorem decimalValue_twoDigits (hours : List Char) :
    decimalValue (twoDigits hours) = if hours = ['1', '2'] then 0 else decimalValue hours := by
  unfold twoDigits
  split
  · rfl
  · split <;> rfl

theorem two_le_length_twoDigits {hours : List Char} (someDigit : hours ≠ []) :
    2 ≤ (twoDigits hours).length := by
  have positive := List.length_pos_iff.mpr someDigit
  unfold twoDigits
  split
  · simp
  · split
    · simp only [List.length_cons]
      omega
    · omega

theorem length_twoDigits_eq_two_iff {hours : List Char} (someDigit : hours ≠ []) :
    (twoDigits hours).length = 2 ↔ hours.length ≤ 2 := by
  have positive := List.length_pos_iff.mpr someDigit
  unfold twoDigits
  split
  · rename_i twelve
    simp [twelve]
  · split
    · simp only [List.length_cons]
      omega
    · omega

theorem isDigit_of_mem_twoDigits {hours : List Char} (all : ∀ c ∈ hours, c.isDigit = true) :
    ∀ c ∈ twoDigits hours, c.isDigit = true := by
  unfold twoDigits
  split
  · exact List.all_eq_true.mp rfl
  · split
    · exact List.forall_mem_cons.mpr ⟨rfl, all⟩
    · exact all

namespace Parts

/-- An hour of at most two digits and up to 23; for the afternoon one up to 11, or `12`. -/
def HourFits (parts : Parts) : Prop :=
  if parts.isAfternoon then parts.hours = ['1', '2'] ∨ decimalValue parts.hours < 12
  else parts.hours.length ≤ 2 ∧ decimalValue parts.hours < 24

def MinutesFit (parts : Parts) : Prop :=
  parts.minutes.length = 2 ∧ (∀ c ∈ parts.minutes, c.isDigit = true) ∧
    decimalValue parts.minutes < 60

/-- Minutes that are too short, and an hour whose digits make up for that, as in `123:0am`. -/
def RunsOn (parts : Parts) : Prop :=
  parts.minutes.length < 2 ∧
    ∃ shown, parts.shownHour? = some shown ∧ IsClockTime (shown ++ parts.minutes)

variable {parts : Parts} {shown : List Char}

theorem number_of_shownHour? (found : parts.shownHour? = some shown) :
    parts.hours ≠ [] ∧ ∀ c ∈ parts.hours, c.isDigit = true := by
  unfold shownHour? at found
  split at found
  · rename_i number
    simpa [isNumber] using number
  · cases found

theorem shownHour?_cases (found : parts.shownHour? = some shown) :
    (parts.isAfternoon = true ∧
      shown = (decimalValue (twoDigits parts.hours) + 12).repr.toList) ∨
    (parts.isAfternoon = false ∧ shown = twoDigits parts.hours) := by
  unfold shownHour? at found
  split at found
  · split at found
    · rename_i afternoon
      unfold afternoon? at found
      split at found
      · cases found
        exact .inl ⟨afternoon, rfl⟩
      · cases found
    · rename_i morning
      cases found
      exact .inr ⟨by simpa using morning, rfl⟩
  · cases found

theorem isDigit_of_mem_shownHour? (found : parts.shownHour? = some shown) :
    ∀ c ∈ shown, c.isDigit = true := by
  obtain ⟨-, all⟩ := number_of_shownHour? found
  rcases shownHour?_cases found with ⟨-, rfl⟩ | ⟨-, rfl⟩
  · exact fun c => isDigit_of_mem_repr
  · exact isDigit_of_mem_twoDigits all

theorem two_le_length_shownHour? (found : parts.shownHour? = some shown) :
    2 ≤ shown.length := by
  obtain ⟨someDigit, -⟩ := number_of_shownHour? found
  rcases shownHour?_cases found with ⟨-, rfl⟩ | ⟨-, rfl⟩
  · obtain ⟨first, rest, written, -⟩ :=
      repr_eq_cons ((decimalValue (twoDigits parts.hours) + 12) / 10)
    rw [repr_eq_append (by omega), written, List.length_append, List.length_cons,
      List.length_singleton]
    omega
  · exact two_le_length_twoDigits someDigit

theorem hourFits_iff (found : parts.shownHour? = some shown) :
    parts.HourFits ↔ shown.length = 2 ∧ decimalValue shown < 24 := by
  obtain ⟨someDigit, -⟩ := number_of_shownHour? found
  have value := decimalValue_twoDigits parts.hours
  rcases shownHour?_cases found with ⟨afternoon, rfl⟩ | ⟨morning, rfl⟩
  · rw [HourFits, if_pos afternoon, decimalValue_repr]
    have inRange : parts.hours = ['1', '2'] ∨ decimalValue parts.hours < 12 ↔
        decimalValue (twoDigits parts.hours) + 12 < 24 := by
      rw [value]
      split
      · rename_i twelve
        simp [twelve]
      · rename_i other
        simp only [other, false_or]
        omega
    rw [inRange]
    constructor
    · intro small
      rw [repr_eq_twoPlaces (by omega) (by omega)]
      exact ⟨rfl, small⟩
    · exact And.right
  · rw [HourFits, if_neg (by simp [morning]), length_twoDigits_eq_two_iff someDigit, value]
    split
    · rename_i twelve
      simp [twelve, decimalValue]
    · rfl

theorem isClockTime_iff (found : parts.shownHour? = some shown) :
    IsClockTime (shown ++ parts.minutes) ↔ parts.HourFits ∧ parts.MinutesFit ∨ parts.RunsOn := by
  have digits := isDigit_of_mem_shownHour? found
  have long := two_le_length_shownHour? found
  rw [hourFits_iff found]
  constructor
  · intro clock
    have total := clock.1
    rw [List.length_append] at total
    by_cases two : shown.length = 2
    · obtain ⟨-, all, hour, minute⟩ := clock
      rw [List.take_left' two] at hour
      rw [List.drop_left' two] at minute
      refine .inl ⟨⟨two, hour⟩, by omega, fun c member => ?_, minute⟩
      exact List.all_eq_true.mp all c (List.mem_append_right shown member)
    · exact .inr ⟨by omega, shown, found, clock⟩
  · rintro (⟨⟨two, hour⟩, minutes, all, minute⟩ | ⟨-, same, foundSame, clock⟩)
    · refine ⟨by rw [List.length_append, two, minutes], List.all_eq_true.mpr ?_, ?_, ?_⟩
      · intro c member
        rcases List.mem_append.mp member with member | member
        · exact digits c member
        · exact all c member
      · rwa [List.take_left' two]
      · rwa [List.drop_left' two]
    · rw [found] at foundSame
      cases foundSame
      exact clock

end Parts

def TellsTime (time : List Char) : Prop :=
  isClosed time = true ∨
    ∃ parts, parts? time = some parts ∧ (parts.HourFits ∧ parts.MinutesFit ∨ parts.RunsOn)

theorem convertTime_isNormal_iff {time : List Char} {shown : String}
    (converted : convertTime time = .ok shown) : IsNormal shown ↔ TellsTime time := by
  unfold convertTime at converted
  split at converted
  · rename_i closed
    cases converted
    exact iff_of_true (.inl rfl) (.inl closed)
  · rename_i notClosed
    cases clock : convertClock? time with
    | none => simp [clock] at converted
    | some digits =>
      simp only [clock, Except.ok.injEq] at converted
      rw [convertClock?_eq, Option.bind_eq_some_iff] at clock
      obtain ⟨parts, isParts, made⟩ := clock
      obtain ⟨hour, found, rfl⟩ := Option.map_eq_some_iff.mp made
      -- What starts with a digit is not the mark of a closed day.
      have notMark : shown ≠ closedMark := by
        intro mark
        obtain ⟨first, rest, rfl⟩ : ∃ first rest, hour = first :: rest := by
          cases hour with
          | nil => exact absurd (Parts.two_le_length_shownHour? found) (by decide)
          | cons first rest => exact ⟨first, rest, rfl⟩
        have digit := Parts.isDigit_of_mem_shownHour? found first List.mem_cons_self
        have same : first :: (rest ++ parts.minutes) = 'C' :: ['L', 'O', 'S', 'E', 'D'] := by
          rw [← List.cons_append, ← String.toList_ofList (l := _ ++ _), converted, mark]
          rfl
        rw [(List.cons.inj same).1] at digit
        cases digit
      rw [IsNormal, ← converted, String.toList_ofList, Parts.isClockTime_iff found, TellsTime]
      simp [notClosed, isParts, converted, notMark]

def writtenTimes (word : List Char) : List (List Char) :=
  match cutAt '-' word with
  | some (opening, closing) => [opening, closing]
  | none => [word]

def segmentTimes (segment : List Char) : List (List Char) :=
  match words segment with
  | days :: times :: _ =>
    match daysOf days with
    | .ok (_ :: _) => writtenTimes times
    | _ => []
  | _ => []

def shownTimes (text : String) : List (List Char) :=
  (splitOn ',' text.toList).flatMap fun segment => segmentTimes (trim segment)

theorem timesOf_isNormal_iff {word : List Char} {opening closing : String}
    (found : timesOf word = .ok (opening, closing)) :
    IsNormal opening ∧ IsNormal closing ↔ ∀ time ∈ writtenTimes word, TellsTime time := by
  unfold timesOf at found
  split at found
  · rename_i first last cut
    have written : writtenTimes word = [first, last] := by rw [writtenTimes, cut]
    obtain ⟨shownFirst, firstConverted, found⟩ := (Fallible.bind_eq_ok_iff _ _ _).mp found
    obtain ⟨shownLast, lastConverted, found⟩ := (Fallible.bind_eq_ok_iff _ _ _).mp found
    cases found
    rw [convertTime_isNormal_iff firstConverted, convertTime_isNormal_iff lastConverted, written]
    simp
  · rename_i cut
    have written : writtenTimes word = [word] := by rw [writtenTimes, cut]
    split at found
    · rename_i closed
      cases found
      have normal : IsNormal closedMark := .inl rfl
      have tells : TellsTime word := .inl closed
      simp [written, normal, tells]
    · cases found

theorem segmentRecords_isNormal_iff {segment : List Char} {records : List Record}
    (found : segmentRecords segment = .ok records) :
    (∀ record ∈ records, record.IsNormal) ↔ ∀ time ∈ segmentTimes segment, TellsTime time := by
  unfold segmentRecords at found
  unfold segmentTimes
  split at found
  · rename_i none
    cases found
    simp [none]
  · cases found
  · rename_i days times rest split
    obtain ⟨⟨opening, closing⟩, timesRead, found⟩ := (Fallible.bind_eq_ok_iff _ _ _).mp found
    obtain ⟨someDays, daysRead, found⟩ := (Fallible.bind_eq_ok_iff _ _ _).mp found
    cases found
    rw [split]
    simp only [daysRead]
    cases someDays with
    | nil => simp
    | cons day others =>
      rw [← timesOf_isNormal_iff timesRead]
      -- All records of a segment have the same times, and there is at least one record.
      constructor
      · intro normal
        exact normal _ List.mem_cons_self
      · rintro normal record member
        obtain ⟨_, -, rfl⟩ := List.mem_map.mp member
        exact normal

theorem segmentsRecords_isNormal_iff {segments : List (List Char)} {records : List Record}
    (found : segmentsRecords segments = .ok records) :
    (∀ record ∈ records, record.IsNormal) ↔
      ∀ time ∈ segments.flatMap fun segment => segmentTimes (trim segment), TellsTime time := by
  induction segments generalizing records with
  | nil =>
    cases found
    simp
  | cons segment segments ih =>
    obtain ⟨first, firstRead, found⟩ := (Fallible.bind_eq_ok_iff _ _ _).mp found
    obtain ⟨others, othersRead, found⟩ := (Fallible.bind_eq_ok_iff _ _ _).mp found
    cases found
    rw [List.forall_mem_append, segmentRecords_isNormal_iff firstRead, ih othersRead,
      List.flatMap_cons, List.forall_mem_append]

/-- The records of a schedule are in normal form if and only if all times that they show are
written so. -/
theorem parseSchedule_isNormal_iff {text : String} {records : List Record}
    (found : parseSchedule text = .ok records) :
    (∀ record ∈ records, record.IsNormal) ↔ ∀ time ∈ shownTimes text, TellsTime time :=
  segmentsRecords_isNormal_iff found

theorem workday_tellsTime :
    parseSchedule "Mon 9am-5pm" = .ok [⟨.mon, "0900", "1700"⟩] ∧
      ∀ time ∈ shownTimes "Mon 9am-5pm", TellsTime time := by
  have found : parseSchedule "Mon 9am-5pm" = .ok [⟨.mon, "0900", "1700"⟩] := by decide +kernel
  have normal : ∀ record ∈ [(⟨.mon, "0900", "1700"⟩ : Record)], record.IsNormal := by
    intro record member
    rw [List.mem_singleton.mp member]
    exact ⟨.inr (by decide +kernel), .inr (by decide +kernel)⟩
  exact ⟨found, (parseSchedule_isNormal_iff found).mp normal⟩

theorem hourPastDay_not_isNormal :
    ¬∀ text records, parseSchedule text = .ok records → ∀ record ∈ records, record.IsNormal := by
  intro always
  have found : parseSchedule "Mon 25am-5pm" = .ok [⟨.mon, "2500", "1700"⟩] := by decide +kernel
  have normal := always _ _ found _ List.mem_cons_self
  exact absurd normal.1 (by decide +kernel)

end Reconcile.Hours
