import Mathlib.Data.List.Basic
import Reconcile.Proofs.Hours.Clock
import Reconcile.Proofs.Hours.Written
import Reconcile.Proofs.Text.Splitting

namespace Reconcile.Hours

open Text

def Plain (c : Char) : Prop := 0x30 ≤ c.toNat ∧ c.toNat ≤ 0x7A

namespace Plain

variable {c : Char}

theorem ne (plain : Plain c) {other : Char} (below : other.toNat < 0x30) : c ≠ other := by
  rintro rfl
  have above := plain.1
  omega

theorem noBlank (plain : Plain c) : isBlank c = false := by
  obtain ⟨above, below⟩ := plain
  simp [isBlank, blankRanges]
  omega

theorem width_eq (plain : Plain c) : Utf8.width c = 1 := by
  have below := plain.2
  have oneByte : c.toNat < 0x80 := by omega
  simp only [Utf8.width, Utf8.encodeChar, if_pos oneByte, List.length_singleton]

theorem of_isDigit (digit : c.isDigit = true) : Plain c := by
  have bounds := Char.isDigit_iff_toNat.mp digit
  simp only [Char.reduceToNat] at bounds
  constructor <;> omega

theorem of_toLower (small : c.toLower.isLower = true) : Plain c := by
  by_cases capital : c.val ≥ 'A'.val ∧ c.val ≤ 'Z'.val
  · have above : 0x41 ≤ c.toNat := UInt32.le_iff_toNat_le.mp capital.1
    have below : c.toNat ≤ 0x5A := UInt32.le_iff_toNat_le.mp capital.2
    constructor <;> omega
  · have same : c.toLower = c := dif_neg capital
    obtain ⟨low, high⟩ := Bool.and_eq_true_iff.mp (same ▸ small)
    have above : 0x61 ≤ c.toNat := UInt32.le_iff_toNat_le.mp (of_decide_eq_true low)
    have below : c.toNat ≤ 0x7A := UInt32.le_iff_toNat_le.mp (of_decide_eq_true high)
    constructor <;> omega

theorem of_asciiLower {letters lower : List Char} (spelled : asciiLower letters = lower)
    (small : lower.all Char.isLower = true) : ∀ c ∈ letters, Plain c := by
  intro c member
  have lowered : c.toLower ∈ lower := spelled ▸ List.mem_map_of_mem member
  exact of_toLower (List.all_eq_true.mp small _ lowered)

end Plain

namespace Time

variable (time : Time)

theorem isDigit_of_mem_hourDigits : ∀ c ∈ time.hourDigits, c.isDigit = true := by
  have small := time.hour_le
  unfold hourDigits
  split
  · rename_i short
    rw [List.forall_mem_singleton, Nat.isDigit_digitChar, decide_eq_true_eq]
    exact short.1
  · exact isDigit_of_mem_twoPlaces (by omega)

theorem twoDigits_hourDigits : twoDigits time.hourDigits = twoPlaces (time.hour % 12) := by
  have all : ∀ hour < 13, 0 < hour → ∀ padded, twoDigits
      (if hour < 10 ∧ padded = false then [hour.digitChar] else twoPlaces hour) =
        twoPlaces (hour % 12) := by decide
  exact all time.hour (Nat.lt_succ_of_le time.hour_le) time.hour_pos time.padded

theorem clockParts_eq :
    clockParts (time.hourDigits ++ time.minuteDigits) =
      (time.hourDigits, twoPlaces (time.minute.getD 0)) := by
  have noColon : ':' ∉ time.hourDigits := fun member =>
    absurd (time.isDigit_of_mem_hourDigits ':' member) (by decide)
  cases found : time.minute with
  | none =>
    have alone : splitOn ':' time.hourDigits = [time.hourDigits] := by
      rw [splitOn_eq, List.splitOn_eq_singleton noColon]
    simp [clockParts, minuteDigits, found, alone, twoPlaces]
  | some m =>
    have small := time.minute_lt m found
    have noOther : ':' ∉ twoPlaces m := fun member =>
      absurd (isDigit_of_mem_twoPlaces (by omega) ':' member) (by decide)
    have split : splitOn ':' (time.hourDigits ++ ':' :: twoPlaces m) =
        [time.hourDigits, twoPlaces m] := by
      rw [splitOn_eq, List.splitOn_append_cons_self_of_not_mem noColon,
        List.splitOn_eq_singleton noOther]
    simp [clockParts, minuteDigits, found, split]

theorem letters_eq : ∃ first last, time.letters = [first, last] ∧ Plain first ∧ Plain last := by
  have plain : ∀ c ∈ time.letters, Plain c :=
    Plain.of_asciiLower time.spelled (by cases time.afternoon <;> decide)
  have two : time.letters.length = 2 := by
    have lengths := congrArg List.length time.spelled
    rw [asciiLower, List.length_map] at lengths
    rw [lengths]
    cases time.afternoon <;> rfl
  obtain ⟨first, last, letters⟩ := List.length_eq_two.mp two
  rw [letters] at plain ⊢
  exact ⟨first, last, rfl, plain first (by simp), plain last (by simp)⟩

theorem parts?_write :
    parts? time.write = some ⟨time.hourDigits, twoPlaces (time.minute.getD 0), time.letters⟩ := by
  obtain ⟨first, last, letters, plainFirst, plainLast⟩ := time.letters_eq
  have half : splitHalf? time.write =
      some (time.hourDigits ++ time.minuteDigits, time.letters) := by
    simp [splitHalf?, write, letters, plainFirst.width_eq, plainLast.width_eq]
  simp only [parts?, half, Option.map_some, clockParts_eq]

theorem shownHour?_eq (minutes : List Char) :
    Parts.shownHour? ⟨time.hourDigits, minutes, time.letters⟩ =
      some (twoPlaces (time.hour % 12 + if time.afternoon then 12 else 0)) := by
  have isNumber : Parts.isNumber ⟨time.hourDigits, minutes, time.letters⟩ = true := by
    have someDigit : time.hourDigits ≠ [] := by
      unfold hourDigits
      split <;> exact List.cons_ne_nil _ _
    simp only [Parts.isNumber, Bool.and_eq_true, List.all_eq_true]
    exact ⟨by simpa using someDigit, time.isDigit_of_mem_hourDigits⟩
  have half : Parts.isAfternoon ⟨time.hourDigits, minutes, time.letters⟩ = time.afternoon := by
    rw [Parts.isAfternoon, sameLetters, time.spelled]
    cases time.afternoon <;> rfl
  rw [Parts.shownHour?, if_pos isNumber, half, twoDigits_hourDigits]
  cases time.afternoon with
  | false => rfl
  | true =>
    have all : ∀ hour < 12, afternoon? (twoPlaces hour) = some (twoPlaces (hour + 12)) := by decide
    exact all _ (Nat.mod_lt _ (by decide))

theorem isClosed_write : isClosed time.write = false := by
  have ends : (asciiLower time.write).getLast? = some 'm' := by
    rw [write, asciiLower, List.map_append, ← asciiLower.eq_def time.letters, time.spelled]
    cases time.afternoon <;> simp
  have other {mark : List Char} (last : (asciiLower mark).getLast? ≠ some 'm') :
      sameLetters time.write mark = false := by
    rw [sameLetters, beq_eq_false_iff_ne]
    exact fun same => last (same ▸ ends)
  rw [isClosed, other (by decide), other (by decide)]
  rfl

theorem convertTime_write : convertTime time.write = .ok time.shown := by
  have converted : convertClock? time.write = some time.shown.toList := by
    rw [convertClock?_eq, parts?_write, Option.bind_some, shownHour?_eq, Option.map_some, shown,
      String.toList_ofList]
  rw [convertTime, time.isClosed_write, converted]
  simp

theorem plain_of_mem_write : ∀ c ∈ time.write, Plain c := by
  intro c member
  obtain ⟨first, last, letters, plainFirst, plainLast⟩ := time.letters_eq
  rw [write, List.mem_append, List.mem_append] at member
  rcases member with (inHour | inMinute) | inLetters
  · exact .of_isDigit (time.isDigit_of_mem_hourDigits c inHour)
  · cases found : time.minute with
    | none => simp [minuteDigits, found] at inMinute
    | some m =>
      have small := time.minute_lt m found
      rw [minuteDigits, found, Option.elim_some, List.mem_cons] at inMinute
      rcases inMinute with rfl | inMinute
      · exact ⟨by decide, by decide⟩
      · exact .of_isDigit (isDigit_of_mem_twoPlaces (by omega) c inMinute)
  · rw [letters, List.mem_pair] at inLetters
    rcases inLetters with rfl | rfl
    · exact plainFirst
    · exact plainLast

end Time

theorem plain_of_closed {mark : List Char}
    (spelled : asciiLower mark = "closed".toList ∨ asciiLower mark = "cl".toList) :
    ∀ c ∈ mark, Plain c := by
  rcases spelled with spelled | spelled <;> exact Plain.of_asciiLower spelled (by decide)

theorem Times.timesOf_write (times : Times) :
    timesOf times.write = .ok (times.opening, times.closing) := by
  cases times with
  | closed mark spelled =>
    have plain := plain_of_closed spelled
    have noDash : '-' ∉ mark := fun member => (plain '-' member).ne (by decide) rfl
    have closed : isClosed mark = true := by
      rcases spelled with spelled | spelled <;> rw [isClosed, sameLetters, sameLetters, spelled] <;>
        decide
    simp [timesOf, write, cutAt_apart noDash, closed, opening, closing]
  | span opening closing =>
    have noDash : '-' ∉ opening.write := fun member =>
      (opening.plain_of_mem_write '-' member).ne (by decide) rfl
    simp only [timesOf, write, cutAt_append noDash, Time.convertTime_write]
    rfl

structure IsWord (text : List Char) : Prop where
  ne_nil : text ≠ []
  noBlank : ∀ c ∈ text, isBlank c = false
  noComma : ',' ∉ text

theorem IsWord.of_any {text : List Char} (someChar : text ≠ [])
    (noBlank : text.any isBlank = false) (noComma : ',' ∉ text) : IsWord text := by
  refine ⟨someChar, fun c member => ?_, noComma⟩
  rw [← Bool.not_eq_true]
  exact List.any_eq_false.mp noBlank c member

theorem Days.isWord_write (days : Days) : IsWord days.write := by
  cases days with
  | single day => cases day <;> exact .of_any (by decide) (by decide) (by decide)
  | range first last =>
    cases first <;> cases last <;> exact .of_any (by decide) (by decide) (by decide)

theorem Days.daysOf_write (days : Days) : daysOf days.write = .ok days.days := by
  cases days with
  | single day => cases day <;> rfl
  | range first last => cases first <;> cases last <;> rfl

theorem Times.plain_of_mem_write (times : Times) {c : Char} (member : c ∈ times.write) :
    Plain c ∨ c = '-' := by
  cases times with
  | closed mark spelled => exact .inl (plain_of_closed spelled c member)
  | span opening closing =>
    rw [write, List.mem_append, List.mem_cons] at member
    rcases member with inOpening | dash | inClosing
    · exact .inl (opening.plain_of_mem_write c inOpening)
    · exact .inr dash
    · exact .inl (closing.plain_of_mem_write c inClosing)

theorem Times.isWord_write (times : Times) : IsWord times.write := by
  constructor
  · cases times with
    | closed mark spelled =>
      rintro rfl
      rcases spelled with spelled | spelled <;> exact absurd spelled (by decide)
    | span opening closing => simp [write]
  · intro c member
    rcases times.plain_of_mem_write member with plain | rfl
    · exact plain.noBlank
    · decide
  · intro member
    rcases times.plain_of_mem_write member with plain | dash
    · exact plain.ne (by decide) rfl
    · cases dash

namespace Segment

theorem noComma_write (segment : Segment) : ',' ∉ segment.write := by
  have apart (blanks : Blanks) : ',' ∉ blanks.chars := fun member =>
    absurd (blanks.blank ',' member) (by decide)
  cases segment with
  | empty blanks => exact apart blanks
  | hours before days between _ times after =>
    simp [write, apart, days.isWord_write.noComma, times.isWord_write.noComma]

theorem segmentRecords_write (segment : Segment) :
    segmentRecords (trim segment.write) = .ok segment.records := by
  cases segment with
  | empty blanks =>
    rw [segmentRecords, words_trim, write, words_blanks blanks.blank]
    rfl
  | hours before days between apart times after =>
    have split : words (days.write ++ (between.chars ++ times.write)) =
        [days.write, times.write] := by
      obtain ⟨c, blanks, same⟩ := List.exists_cons_of_ne_nil apart
      obtain ⟨blank, all⟩ := List.forall_mem_cons.mp (same ▸ between.blank)
      have first := words_run days.isWord_write.ne_nil days.isWord_write.noBlank
      have second := words_run times.isWord_write.ne_nil times.isWord_write.noBlank
      rw [same, List.cons_append, words_append_cons blank, first, words_blanks_append all, second]
      rfl
    rw [segmentRecords, words_trim, write, words_append_blanks after.blank,
      words_blanks_append before.blank, split]
    simp only [times.timesOf_write, days.daysOf_write]
    rfl

theorem segmentsRecords_write (segments : List Segment) :
    segmentsRecords (segments.map write) = .ok (segments.flatMap records) := by
  induction segments with
  | nil => rfl
  | cons segment segments ih =>
    rw [List.map_cons, segmentsRecords, segment.segmentRecords_write, ih]
    rfl

end Segment

/-- Reading a written schedule gives, segment by segment, one record for each of its days. -/
theorem parseSchedule_writeSchedule (segments : List Segment) :
    parseSchedule (writeSchedule segments) = .ok (segments.flatMap Segment.records) := by
  rw [parseSchedule, writeSchedule, String.toList_ofList, splitOn_eq, join]
  cases segments with
  | nil => rfl
  | cons segment segments =>
    have apart : ∀ text ∈ (segment :: segments).map Segment.write, ',' ∉ text := by
      intro text member
      obtain ⟨segment, -, rfl⟩ := List.mem_map.mp member
      exact segment.noComma_write
    rw [List.splitOn_intercalate _ apart (by simp), Segment.segmentsRecords_write]

end Reconcile.Hours
