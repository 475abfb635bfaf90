import Reconcile.Proofs.Fallible
import Reconcile.Proofs.Hours.Expansion

namespace Reconcile.Hours

open Text

theorem segmentsRecords_append (segments more : List (List Char)) :
    segmentsRecords (segments ++ more) =
      Fallible.inTurn (segmentsRecords segments) (segmentsRecords more) := by
  induction segments with
  | nil =>
    rw [List.nil_append, segmentsRecords]
    cases segmentsRecords more <;> rfl
  | cons segment segments ih =>
    rw [List.cons_append, segmentsRecords, segmentsRecords, ih]
    cases segmentRecords (trim segment) with
    | error fault => rfl
    | ok records =>
      cases segmentsRecords segments with
      | error fault => rfl
      | ok others => cases segmentsRecords more <;> simp [Fallible.inTurn]

theorem parseSchedule_append (first second : String) :
    parseSchedule (first ++ "," ++ second) =
      Fallible.inTurn (parseSchedule first) (parseSchedule second) := by
  have split : splitOn ',' (first ++ "," ++ second).toList =
      splitOn ',' first.toList ++ splitOn ',' second.toList := by
    have comma : ",".toList = [','] := rfl
    simp [splitOn_eq, comma, List.splitOn_append_cons_self]
  rw [parseSchedule, split, segmentsRecords_append]
  rfl

theorem parseSchedule_segment {segment : List Char} (noComma : ',' ∉ segment) :
    parseSchedule (.ofList segment) = segmentRecords (trim segment) := by
  rw [parseSchedule, String.toList_ofList, splitOn_eq, List.splitOn_eq_singleton noComma,
    segmentsRecords, segmentsRecords]
  cases segmentRecords (trim segment) <;> simp

theorem segmentsRecords_succeeds_iff (segments : List (List Char)) :
    (∃ records, segmentsRecords segments = .ok records) ↔
      ∀ segment ∈ segments, ∃ records, segmentRecords (trim segment) = .ok records := by
  induction segments with
  | nil => simp [segmentsRecords]
  | cons segment segments ih =>
    rw [List.forall_mem_cons, ← ih, segmentsRecords]
    constructor
    · rintro ⟨_, found⟩
      obtain ⟨records, here, found⟩ := (Fallible.bind_eq_ok_iff _ _ _).mp found
      obtain ⟨others, there, -⟩ := (Fallible.bind_eq_ok_iff _ _ _).mp found
      exact ⟨⟨records, here⟩, others, there⟩
    · rintro ⟨⟨records, here⟩, others, there⟩
      exact ⟨records ++ others, by rw [here, there]; rfl⟩

def IsDay (text : List Char) : Prop := ∃ day : Day, text = day.abbreviation.toList

inductive NamesDays : List Char → Prop
  | single {day : List Char} (isDay : IsDay day) : NamesDays day
  | range {first last : List Char} (firstIsDay : IsDay first) (lastIsDay : IsDay last) :
      NamesDays (first ++ '-' :: last)

inductive DaysFault : List Char → Error → Prop
  | single {day : List Char} (noDash : '-' ∉ day) (other : ¬IsDay day) :
      DaysFault day (.unknownDay (.ofList day))
  | first {first last : List Char} (firstDash : '-' ∉ first) (other : ¬IsDay first) :
      DaysFault (first ++ '-' :: last) (.unknownDay (.ofList first))
  | last {first last : List Char} (firstIsDay : IsDay first) (other : ¬IsDay last) :
      DaysFault (first ++ '-' :: last) (.unknownDay (.ofList last))

def Converts (time : List Char) : Prop := ∃ shown, convertTime time = .ok shown

inductive TellsTimes : List Char → Prop
  | closed {mark : List Char} (isMark : isClosed mark = true) : TellsTimes mark
  | span {opening closing : List Char} (firstDash : '-' ∉ opening) (opens : Converts opening)
      (closes : Converts closing) : TellsTimes (opening ++ '-' :: closing)

inductive TimesFault : List Char → Error → Prop
  | noClosing {times : List Char} (noDash : '-' ∉ times) (other : isClosed times = false) :
      TimesFault times (.missingClosing (.ofList times))
  | opening {opening closing : List Char} (firstDash : '-' ∉ opening)
      (faulty : ¬Converts opening) :
      TimesFault (opening ++ '-' :: closing) (.invalidHour (.ofList opening))
  | closing {opening closing : List Char} (firstDash : '-' ∉ opening) (opens : Converts opening)
      (faulty : ¬Converts closing) :
      TimesFault (opening ++ '-' :: closing) (.invalidHour (.ofList closing))

theorem dash_cases (word : List Char) :
    '-' ∉ word ∨ ∃ before after, word = before ++ '-' :: after ∧ '-' ∉ before := by
  by_cases member : '-' ∈ word
  · exact .inr (List.eq_append_cons_of_mem member)
  · exact .inl member

theorem IsDay.noDash {text : List Char} (isDay : IsDay text) : '-' ∉ text := by
  obtain ⟨day, rfl⟩ := isDay
  cases day <;> decide

theorem resolveDay_of_isDay {text : List Char} (isDay : IsDay text) :
    ∃ day, resolveDay text = .ok day := by
  obtain ⟨day, rfl⟩ := isDay
  exact ⟨day, by cases day <;> rfl⟩

theorem resolveDay_of_other {text : List Char} (other : ¬IsDay text) :
    resolveDay text = .error (.unknownDay (.ofList text)) := by
  have none : Day.ofAbbreviation? (.ofList text) = none := by
    rw [Day.ofAbbreviation?, List.find?_eq_none]
    intro day _ same
    refine other ⟨day, ?_⟩
    rw [beq_iff_eq.mp same, String.toList_ofList]
  rw [resolveDay, none]

theorem daysOf_settles (word : List Char) :
    Fallible.Settles (daysOf word) (NamesDays word) (DaysFault word) where
  succeeds named := by
    cases named with
    | single isDay =>
      obtain ⟨day, found⟩ := resolveDay_of_isDay isDay
      exact ⟨day.through day, by simp [daysOf, cutAt_apart isDay.noDash, found]⟩
    | @range first last firstIsDay lastIsDay =>
      obtain ⟨firstDay, firstFound⟩ := resolveDay_of_isDay firstIsDay
      obtain ⟨lastDay, lastFound⟩ := resolveDay_of_isDay lastIsDay
      exact ⟨firstDay.through lastDay,
        by simp [daysOf, cutAt_append firstIsDay.noDash, firstFound, lastFound]⟩
  fails fault faulty := by
    cases faulty with
    | single noDash other => simp [daysOf, cutAt_apart noDash, resolveDay_of_other other]
    | first firstDash other => simp [daysOf, cutAt_append firstDash, resolveDay_of_other other]
    | last firstIsDay other =>
      obtain ⟨firstDay, firstFound⟩ := resolveDay_of_isDay firstIsDay
      simp [daysOf, cutAt_append firstIsDay.noDash, firstFound, resolveDay_of_other other]
  either := by
    rcases dash_cases word with noDash | ⟨first, last, rfl, firstDash⟩
    · by_cases isDay : IsDay word
      · exact .inl (.single isDay)
      · exact .inr ⟨_, .single noDash isDay⟩
    · by_cases firstIsDay : IsDay first
      · by_cases lastIsDay : IsDay last
        · exact .inl (.range firstIsDay lastIsDay)
        · exact .inr ⟨_, .last firstIsDay lastIsDay⟩
      · exact .inr ⟨_, .first firstDash firstIsDay⟩

theorem noDash_of_isClosed {mark : List Char} (isMark : isClosed mark = true) : '-' ∉ mark := by
  have spelled : asciiLower mark = "closed".toList ∨ asciiLower mark = "cl".toList := by
    rw [isClosed, sameLetters, sameLetters, Bool.or_eq_true, beq_iff_eq, beq_iff_eq] at isMark
    exact isMark
  exact fun member => (plain_of_closed spelled '-' member).ne (by decide) rfl

theorem convertTime_of_other {time : List Char} (other : ¬Converts time) :
    convertTime time = .error (.invalidHour (.ofList time)) := by
  cases converted : convertTime time with
  | ok shown => exact absurd ⟨shown, converted⟩ other
  | error fault =>
    unfold convertTime at converted
    split at converted
    · cases converted
    · split at converted <;> cases converted
      rfl

theorem timesOf_settles (word : List Char) :
    Fallible.Settles (timesOf word) (TellsTimes word) (TimesFault word) where
  succeeds told := by
    cases told with
    | closed isMark =>
      exact ⟨(closedMark, closedMark),
        by simp [timesOf, cutAt_apart (noDash_of_isClosed isMark), isMark]⟩
    | span firstDash opens closes =>
      obtain ⟨opening, openingFound⟩ := opens
      obtain ⟨closing, closingFound⟩ := closes
      exact ⟨(opening, closing),
        by simp [timesOf, cutAt_append firstDash, openingFound, closingFound]⟩
  fails fault faulty := by
    cases faulty with
    | noClosing noDash other => simp [timesOf, cutAt_apart noDash, other]
    | opening firstDash faulty =>
      simp [timesOf, cutAt_append firstDash, convertTime_of_other faulty]
    | closing firstDash opens faulty =>
      obtain ⟨opening, openingFound⟩ := opens
      simp [timesOf, cutAt_append firstDash, openingFound, convertTime_of_other faulty]
  either := by
    rcases dash_cases word with noDash | ⟨opening, closing, rfl, firstDash⟩
    · cases isMark : isClosed word with
      | true => exact .inl (.closed isMark)
      | false => exact .inr ⟨_, .noClosing noDash isMark⟩
    · by_cases opens : Converts opening
      · by_cases closes : Converts closing
        · exact .inl (.span firstDash opens closes)
        · exact .inr ⟨_, .closing firstDash opens closes⟩
      · exact .inr ⟨_, .opening firstDash opens⟩

/-- A blank segment, or one with a first word for days and a second for times. -/
inductive Accepted : List Char → Prop
  | blank {segment : List Char} (all : ∀ c ∈ segment, isBlank c = true) : Accepted segment
  | hours {segment days times : List Char} {others : List (List Char)}
      (split : words segment = days :: times :: others) (told : TellsTimes times)
      (named : NamesDays days) : Accepted segment

/-- What is wrong with a segment that is not accepted. Days are looked at only behind right
times. -/
inductive SegmentFault : List Char → Error → Prop
  | noTimes {segment days : List Char} (split : words segment = [days]) :
      SegmentFault segment (.missingTimes (.ofList (trim segment)))
  | times {segment days times : List Char} {others : List (List Char)} {fault : Error}
      (split : words segment = days :: times :: others) (faulty : TimesFault times fault) :
      SegmentFault segment fault
  | days {segment days times : List Char} {others : List (List Char)} {fault : Error}
      (split : words segment = days :: times :: others) (told : TellsTimes times)
      (faulty : DaysFault days fault) : SegmentFault segment fault

theorem segmentRecords_settles (segment : List Char) :
    Fallible.Settles (segmentRecords (trim segment)) (Accepted segment) (SegmentFault segment) where
  succeeds accepted := by
    cases accepted with
    | blank all => exact ⟨[], by rw [segmentRecords, words_trim, words_blanks all]⟩
    | hours split told named =>
      obtain ⟨times, timesFound⟩ := (timesOf_settles _).succeeds told
      obtain ⟨days, daysFound⟩ := (daysOf_settles _).succeeds named
      rw [segmentRecords, words_trim, split]
      simp only [timesFound, daysFound, Fallible.ok_bind]
      exact ⟨_, rfl⟩
  fails fault faulty := by
    cases faulty with
    | noTimes split => rw [segmentRecords, words_trim, split]
    | times split faulty =>
      rw [segmentRecords, words_trim, split]
      simp only [(timesOf_settles _).fails _ faulty, Fallible.error_bind]
    | days split told faulty =>
      obtain ⟨times, timesFound⟩ := (timesOf_settles _).succeeds told
      rw [segmentRecords, words_trim, split]
      simp only [timesFound, (daysOf_settles _).fails _ faulty, Fallible.ok_bind,
        Fallible.error_bind]
  either := by
    rcases split : words segment with _ | ⟨days, _ | ⟨times, others⟩⟩
    · exact .inl (.blank (blank_of_words_eq_nil split))
    · exact .inr ⟨_, .noTimes split⟩
    · rcases (timesOf_settles times).either with told | ⟨fault, faulty⟩
      · rcases (daysOf_settles days).either with named | ⟨fault, faulty⟩
        · exact .inl (.hours split told named)
        · exact .inr ⟨_, .days split told faulty⟩
      · exact .inr ⟨_, .times split faulty⟩

theorem segment_settles {segment : List Char} (noComma : ',' ∉ segment) :
    Fallible.Settles (parseSchedule (.ofList segment)) (Accepted segment)
      (SegmentFault segment) := by
  rw [parseSchedule_segment noComma]
  exact segmentRecords_settles segment

/-- Schedules are read segment by segment: two of them one after the other as each by itself, and
a whole one if each of its segments is read by itself. A segment by itself is read if it is
accepted, and otherwise its first fault is told, that of its times before that of its days. -/
theorem parseSchedule_segmentwise :
    (∀ first second : String, parseSchedule (first ++ "," ++ second) =
      Fallible.inTurn (parseSchedule first) (parseSchedule second)) ∧
    (∀ text : String, (∃ records, parseSchedule text = .ok records) ↔
      ∀ segment ∈ splitOn ',' text.toList,
        ∃ records, parseSchedule (.ofList segment) = .ok records) ∧
    ∀ segment : List Char, ',' ∉ segment →
      ((∃ records, parseSchedule (.ofList segment) = .ok records) ↔ Accepted segment) ∧
      ∀ fault, parseSchedule (.ofList segment) = .error fault ↔ SegmentFault segment fault := by
  refine ⟨parseSchedule_append, fun text => ?_, fun segment noComma => ?_⟩
  · rw [parseSchedule, segmentsRecords_succeeds_iff]
    refine forall₂_congr fun segment member => ?_
    rw [parseSchedule_segment (separator_not_mem member)]
  · have settles := segment_settles noComma
    exact ⟨settles.succeeds_iff, settles.fails_iff⟩

theorem wrongDayAndTime_told :
    ',' ∉ "Xyz 9am-noon".toList ∧
      parseSchedule "Xyz 9am-noon" = .error (.invalidHour "noon") ∧
      SegmentFault "Xyz 9am-noon".toList (.invalidHour "noon") := by
  have noComma : ',' ∉ "Xyz 9am-noon".toList := by decide
  have told : parseSchedule "Xyz 9am-noon" = .error (.invalidHour "noon") := by decide +kernel
  have faults := (parseSchedule_segmentwise.2.2 _ noComma).2 (.invalidHour "noon")
  rw [String.ofList_toList] at faults
  exact ⟨noComma, told, faults.mp told⟩

end Reconcile.Hours
