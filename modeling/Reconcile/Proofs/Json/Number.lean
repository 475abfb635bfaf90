import Reconcile.Document.Json.Printer
import Reconcile.Document.Json.Reader
import Reconcile.Proofs.Fallible
import Reconcile.Proofs.Text.Decimal
import Reconcile.Proofs.Text.Pieces

namespace Reconcile

open Text

def Json.isNumberChar (c : Char) : Bool :=
  c.isDigit || c == '.' || c == 'e' || c == '+' || c == '-'

namespace Json

theorem isNumberChar_of_isDigit {c : Char} (digit : c.isDigit = true) : isNumberChar c = true := by
  simp [isNumberChar, digit]

theorem isNumberChar_of_mem_repr {n : Nat} {c : Char} (member : c ∈ n.repr.toList) :
    isNumberChar c = true :=
  isNumberChar_of_isDigit (isDigit_of_mem_repr member)

theorem isNumberChar_of_mem_zeros {count : Nat} {c : Char} (member : c ∈ Decimal.zeros count) :
    isNumberChar c = true := by
  rw [List.eq_of_mem_replicate member]
  rfl

theorem isNumberChar_of_mem_positional {digits : List Char} {exponent : Int}
    (all : ∀ c ∈ digits, isNumberChar c = true) :
    ∀ c ∈ Decimal.positional ['.', '0'] digits exponent, isNumberChar c = true := by
  intro c member
  unfold Decimal.positional at member
  split at member
  · simp only [List.mem_append, List.mem_cons, List.not_mem_nil, or_false] at member
    rcases member with (inDigits | inZeros) | rfl | rfl
    · exact all c inDigits
    · exact isNumberChar_of_mem_zeros inZeros
    · rfl
    · rfl
  · dsimp only at member
    split at member
    · simp only [List.cons_append, List.mem_cons, List.mem_append] at member
      rcases member with rfl | rfl | inZeros | inDigits
      · rfl
      · rfl
      · exact isNumberChar_of_mem_zeros inZeros
      · exact all c inDigits
    · rcases List.mem_append.mp member with before | after
      · exact all c (List.mem_of_mem_take before)
      · rcases List.mem_cons.mp after with rfl | after
        · rfl
        · exact all c (List.mem_of_mem_drop after)

theorem isNumberChar_of_mem_scientific {digits : List Char} {leading : Int}
    (all : ∀ c ∈ digits, isNumberChar c = true) :
    ∀ c ∈ Decimal.scientific digits leading, isNumberChar c = true := by
  intro c member
  unfold Decimal.scientific at member
  rcases List.mem_append.mp member with mantissa | exponent
  · match digits, all, mantissa with
    | [d], all, mantissa => exact all c mantissa
    | d :: e :: rest, all, mantissa =>
      rcases List.mem_cons.mp mantissa with rfl | mantissa
      · exact all c (by simp)
      · rcases List.mem_cons.mp mantissa with rfl | mantissa
        · rfl
        · exact all c (List.mem_cons_of_mem _ mantissa)
  · rcases List.mem_cons.mp exponent with rfl | exponent
    · rfl
    · rcases List.mem_cons.mp exponent with rfl | exponent
      · split <;> rfl
      · exact isNumberChar_of_mem_repr exponent

theorem isNumberChar_of_mem_layout {digits : List Char}
    (all : ∀ c ∈ digits, isNumberChar c = true) (exponent leading : Int) :
    ∀ c ∈ (if floatStyle.positional leading then
        Decimal.positional floatStyle.wholeMark digits exponent
      else Decimal.scientific digits leading), isNumberChar c = true := by
  split
  · exact isNumberChar_of_mem_positional all
  · exact isNumberChar_of_mem_scientific all

theorem isNumberChar_of_mem_json (n : Number) : ∀ c ∈ n.json, isNumberChar c = true := by
  intro c member
  cases n with
  | int n =>
    simp only [Number.json, renderInt] at member
    split at member
    · rcases List.mem_cons.mp member with rfl | member
      · rfl
      · exact isNumberChar_of_mem_repr member
    · exact isNumberChar_of_mem_repr member
  | float x =>
    have digits : ∀ d ∈ (x.shortest floatStyle.tie).digits.repr.toList, isNumberChar d = true :=
      fun _ inDigits => isNumberChar_of_mem_repr inDigits
    simp only [Number.json, NumberStyle.render] at member
    split at member
    · rcases List.mem_cons.mp member with rfl | member
      · rfl
      · exact isNumberChar_of_mem_layout digits _ _ c member
    · exact isNumberChar_of_mem_layout digits _ _ c member

theorem byte_toNat {c : Char} (digit : c.isDigit = true) : (byte c).toNat = c.toNat := by
  simp only [Char.isDigit, Bool.and_eq_true, decide_eq_true_eq] at digit
  have small : c.toNat < 256 := by
    have bound : c.val.toNat ≤ 57 := UInt32.le_iff_toNat_le.mp digit.2
    exact Nat.lt_of_le_of_lt bound (by decide)
  simp [byte, Nat.mod_eq_of_lt small]

theorem digit_bounds {c : Char} (digit : c.isDigit = true) : 48 ≤ c.toNat ∧ c.toNat ≤ 57 := by
  simp only [Char.isDigit, Bool.and_eq_true, decide_eq_true_eq] at digit
  exact ⟨UInt32.le_iff_toNat_le.mp digit.1, UInt32.le_iff_toNat_le.mp digit.2⟩

theorem isDigit_byte {c : Char} (digit : c.isDigit = true) : isDigit (byte c) = true := by
  have bounds := digit_bounds digit
  simp only [isDigit, Bool.and_eq_true, decide_eq_true_eq, UInt8.le_iff_toNat_le,
    byte_toNat digit]
  exact bounds

theorem encode_digits {digits : List Char} (all : ∀ c ∈ digits, c.isDigit = true) :
    Utf8.encode digits = digits.map byte := by
  induction digits with
  | nil => rfl
  | cons c digits ih =>
    obtain ⟨first, rest⟩ := List.forall_mem_cons.mp all
    have small : c.toNat < 0x80 := by
      have bounds := digit_bounds first
      omega
    have encoded := ih rest
    simp only [Utf8.encode] at encoded
    simp [Utf8.encode, Utf8.encodeChar, small, byte, encoded]

theorem absorb_digits {digits : List Char} (all : ∀ c ∈ digits, c.isDigit = true) {start : Nat}
    (fits : Nat.ofDigitChars 10 digits start < twoTo 64) :
    absorb start (digits.map byte) = (Nat.ofDigitChars 10 digits start, digits.length) := by
  induction digits generalizing start with
  | nil => rfl
  | cons c digits ih =>
    obtain ⟨first, rest⟩ := List.forall_mem_cons.mp all
    have next : start * 10 + digitValue (byte c) = 10 * start + (c.toNat - '0'.toNat) := by
      rw [digitValue, byte_toNat first, Nat.mul_comm]
      rfl
    rw [Nat.ofDigitChars_cons] at fits ⊢
    have smaller := Nat.lt_of_le_of_lt (le_ofDigitChars digits _) fits
    rw [List.map_cons, absorb, next, if_pos smaller, ih rest fits, List.length_cons]

def continuesNumber (b : UInt8) : Bool :=
  isDigit b || b == byte '.' || b == byte 'e' || b == byte 'E'

theorem readNumberEnd_stops {rest : List UInt8} (ends : Stops continuesNumber rest)
    (negative : Bool) (significand : Nat) :
    readNumberEnd negative significand 0 rest = finishInt negative significand rest := by
  cases rest with
  | nil => rw [readNumberEnd, if_pos rfl]
  | cons b rest =>
    have other : continuesNumber b = false := ends b rfl
    simp only [continuesNumber, Bool.or_eq_false_iff, beq_eq_false_iff_ne] at other
    obtain ⟨⟨⟨-, noPoint⟩, noMark⟩, noCapital⟩ := other
    simp only [readNumberEnd, if_neg noPoint, noMark, noCapital, or_self, if_false, if_true]

theorem stops_isDigit_of_continuesNumber {rest : List UInt8} (ends : Stops continuesNumber rest) :
    Stops isDigit rest := by
  intro b first
  have other := ends b first
  simp only [continuesNumber, Bool.or_eq_false_iff] at other
  exact other.1.1.1

theorem readNumber_repr (negative : Bool) {n : Nat} (fits : n < twoTo 64) {rest : List UInt8}
    (ends : Stops continuesNumber rest) :
    readNumber negative (n.repr.toList.map byte ++ rest) = finishInt negative n rest := by
  obtain ⟨first, others, written, digit, zero⟩ := repr_eq_cons n
  have noDigit := stops_isDigit_of_continuesNumber ends
  have all : ∀ c ∈ n.repr.toList, c.isDigit = true := fun c member => isDigit_of_mem_repr member
  have allBytes : ∀ b ∈ n.repr.toList.map byte, isDigit b = true := by
    intro b member
    obtain ⟨c, inDigits, rfl⟩ := List.mem_map.mp member
    exact isDigit_byte (all c inDigits)
  by_cases isZero : first = '0'
  · obtain ⟨rfl, rfl⟩ := zero isZero
    have alone : ¬rest.head?.any isDigit = true := by
      cases rest with
      | nil => simp
      | cons b rest =>
        have other : isDigit b = false := noDigit b rfl
        simp [other]
    subst isZero
    rw [written, List.map_singleton, List.singleton_append, readNumber, if_pos rfl, if_neg alone,
      readNumberEnd_stops ends]
  · have notZero : byte first ≠ byte '0' := by
      intro same
      have equal := congrArg UInt8.toNat same
      rw [byte_toNat digit, byte_toNat (by decide)] at equal
      exact isZero (Char.toNat_inj.mp equal)
    have value : Nat.ofDigitChars 10 n.repr.toList 0 < twoTo 64 := by rwa [ofDigitChars_repr]
    have absorbed := absorb_digits all value
    have spanned := span_append allBytes noDigit
    rw [ofDigitChars_repr] at absorbed
    rw [written, List.map_cons] at absorbed spanned ⊢
    rw [List.cons_append] at spanned ⊢
    simp only [readNumber, if_neg notZero, isDigit_byte digit, if_true, spanned, absorbed,
      List.length_cons, List.length_map, Nat.sub_self, readNumberEnd_stops ends]

theorem readValue_digit {b : UInt8} (digit : isDigit b = true) (fuel depth : Nat)
    (rest : List UInt8) :
    readValue (fuel + 1) depth (b :: rest) =
      (readNumber false (b :: rest)).map fun (n, rest) => (.number n, rest) := by
  have other (c : Char) (noDigit : isDigit (byte c) = false) : b ≠ byte c := by
    rintro rfl
    rw [noDigit] at digit
    cases digit
  have noSpace : isSpace b = false := by
    simp [isSpace, other ' ' (by decide), other '\n' (by decide), other '\t' (by decide),
      other '\r' (by decide)]
  have start : skipSpace (b :: rest) = b :: rest := by simp [skipSpace, noSpace]
  rw [readValue, start]
  simp [other 'n' (by decide), other 't' (by decide), other 'f' (by decide), other '-' (by decide),
    digit]

theorem readValue_minus (fuel depth : Nat) (rest : List UInt8) :
    readValue (fuel + 1) depth (byte '-' :: rest) =
      (readNumber true rest).map fun (n, rest) => (.number n, rest) := by
  have start : skipSpace (byte '-' :: rest) = byte '-' :: rest := rfl
  rw [readValue, start]
  rfl

theorem readValue_renderInt {n : Int} (wide : IsWide n) (fuel depth : Nat) {rest : List UInt8}
    (ends : Stops continuesNumber rest) :
    readValue (fuel + 1) depth (Utf8.encode (renderInt n) ++ rest) =
      .ok (.number (.int n), rest) := by
  have digits (m : Nat) : ∀ c ∈ m.repr.toList, c.isDigit = true :=
    fun c member => isDigit_of_mem_repr member
  by_cases negative : n < 0
  · have written : Utf8.encode (renderInt n) = byte '-' :: n.natAbs.repr.toList.map byte := by
      rw [renderInt, if_pos negative, ← encode_digits (digits _)]
      rfl
    have absolute : -(n.natAbs : Int) = n := by omega
    have fits : n.natAbs < twoTo 64 := by
      have least : (twoTo 63 : Int) < twoTo 64 := by decide
      have bound := wide.1
      omega
    have small : ¬ (n.natAbs = 0 ∨ twoTo 63 < n.natAbs) := by
      have bound := wide.1
      omega
    rw [written, List.cons_append, readValue_minus, readNumber_repr true fits ends, finishInt]
    simp only [Bool.not_true, Bool.false_eq_true, if_false, if_neg small, absolute]
    rfl
  · have written : Utf8.encode (renderInt n) = n.natAbs.repr.toList.map byte := by
      rw [renderInt, if_neg negative, encode_digits (digits _)]
    have absolute : (n.natAbs : Int) = n := by omega
    have fits : n.natAbs < twoTo 64 := by
      have bound := wide.2
      omega
    obtain ⟨first, others, split, digit, -⟩ := repr_eq_cons n.natAbs
    have number := readNumber_repr false fits ends
    rw [written]
    rw [split, List.map_cons, List.cons_append] at number ⊢
    rw [readValue_digit (isDigit_byte digit), number, finishInt]
    simp [absolute]

theorem read_renderInt {n : Int} (wide : IsWide n) (kind : Input) :
    read kind (Utf8.encode (renderInt n)) = .ok (.number (.int n)) := by
  have value := readValue_renderInt wide (2 * (Utf8.encode (renderInt n)).length + 1) 128
    (stops_nil continuesNumber)
  rw [List.append_nil] at value
  simp [read, readDocument, value, skipSpace, Except.mapError]

theorem absorb_lt {start : Nat} (fits : start < twoTo 64) (digits : List UInt8) :
    (absorb start digits).1 < twoTo 64 := by
  induction digits generalizing start with
  | nil => exact fits
  | cons b digits ih =>
    unfold absorb
    dsimp only
    split
    · rename_i next
      exact ih next
    · exact fits

def Fits : Number → Prop
  | .int n => IsWide n
  | .float _ => True

section

variable {negative : Bool} {significand : Nat} {exponent : Int} {input rest : List UInt8}
  {n : Number}

theorem fits_of_finishFloat
    (found : finishFloat negative significand exponent input = .ok (n, rest)) : Fits n := by
  cases scaled : scale negative significand exponent with
  | none => simp [finishFloat, scaled] at found
  | some x =>
    simp only [finishFloat, scaled, Option.elim_some, Except.ok.injEq, Prod.mk.injEq] at found
    rw [← found.1]
    exact True.intro

theorem fits_of_readExponent
    (found : readExponent negative significand exponent input = .ok (n, rest)) : Fits n := by
  unfold readExponent at found
  dsimp only at found
  split at found
  · cases found
  · split at found
    · split at found
      · exact fits_of_finishFloat found
      · rename_i left _ _
        -- The digits of the exponent are too many: the number is zero or out of range.
        have zero {tooLarge : Prop} [Decidable tooLarge]
            (ended : (if tooLarge then failBefore .numberOutOfRange left
              else .ok (.float (.zero negative), left.dropWhile isDigit)) = .ok (n, rest)) :
            Fits n := by
          split at ended <;> cases ended
          exact True.intro
        exact zero found
    · cases found

theorem fits_of_readFraction
    (found : readFraction negative significand exponent input = .ok (n, rest)) : Fits n := by
  unfold readFraction at found
  dsimp only at found
  split at found
  · split at found <;> cases found
  · unfold readFloatEnd at found
    split at found
    · split at found
      · exact fits_of_readExponent found
      · exact fits_of_finishFloat found
    · exact fits_of_finishFloat found

theorem fits_of_finishInt (small : significand < twoTo 64)
    (found : finishInt negative significand input = .ok (n, rest)) : Fits n := by
  unfold finishInt at found
  split at found
  · cases found
    have least : 0 ≤ (twoTo 63 : Int) := by decide
    exact ⟨by omega, by omega⟩
  · split at found
    · exact fits_of_finishFloat found
    · rename_i bounds
      cases found
      have most : 0 < (twoTo 64 : Int) := by decide
      exact ⟨by omega, by omega⟩

theorem fits_of_readNumberEnd {dropped : Nat} (small : significand < twoTo 64)
    (found : readNumberEnd negative significand dropped input = .ok (n, rest)) : Fits n := by
  unfold readNumberEnd at found
  split at found
  · split at found
    · exact fits_of_readFraction found
    · split at found
      · exact fits_of_readExponent found
      · split at found
        · exact fits_of_finishInt small found
        · exact fits_of_finishFloat found
  · split at found
    · exact fits_of_finishInt small found
    · exact fits_of_finishFloat found

theorem fits_of_readNumber (found : readNumber negative input = .ok (n, rest)) : Fits n := by
  have positive : 0 < twoTo 64 := by decide
  unfold readNumber at found
  split at found
  · cases found
  · split at found
    · split at found
      · cases found
      · exact fits_of_readNumberEnd positive found
    · split at found
      · dsimp only at found
        exact fits_of_readNumberEnd (absorb_lt positive _) found
      · cases found

end

theorem fits_of_readValue {fuel depth : Nat} {input rest : List UInt8} {n : Number}
    (found : readValue fuel depth input = .ok (.number n, rest)) : Fits n := by
  have number {negative : Bool} {digits : List UInt8}
      (read : ((readNumber negative digits).map fun (n, rest) => (Value.number n, rest)) =
        .ok (.number n, rest)) : Fits n := by
    obtain ⟨pair, result, same⟩ := (Fallible.map_eq_ok_iff _ _ _).mp read
    cases same
    exact fits_of_readNumber result
  have other {α : Type} {result : Except Fault α} {make : α → Value × List UInt8}
      (never : ∀ a, (make a).1 ≠ .number n) (read : result.map make = .ok (.number n, rest)) :
      Fits n := by
    obtain ⟨a, -, same⟩ := (Fallible.map_eq_ok_iff _ _ _).mp read
    exact absurd (congrArg Prod.fst same) (never a)
  cases fuel with
  | zero => cases found
  | succ fuel =>
    rw [readValue] at found
    split at found
    · cases found
    · refine Fallible.of_ite found (other (by simp)) fun found => ?_
      refine Fallible.of_ite found (other (by simp)) fun found => ?_
      refine Fallible.of_ite found (other (by simp)) fun found => ?_
      refine Fallible.of_ite found number fun found => ?_
      refine Fallible.of_ite found number fun found => ?_
      refine Fallible.of_ite found (other (by simp)) fun found => ?_
      refine Fallible.of_ite found (fun items => ?_) fun found =>
        Fallible.of_ite found (fun members => ?_) fun failed => by cases failed
      · refine Fallible.of_ite items (fun failed => by cases failed) fun items => ?_
        split at items
        · cases items
        · exact Fallible.of_ite items (fun empty => by cases empty) (other (by simp))
      · refine Fallible.of_ite members (fun failed => by cases failed) fun members => ?_
        split at members
        · cases members
        · exact Fallible.of_ite members (fun empty => by cases empty) (other (by simp))

/-- The whole number that a JSON text denotes has at most 64 bits. -/
theorem fits_of_read {kind : Input} {input : List UInt8} {n : Number}
    (found : read kind input = .ok (.number n)) : Fits n := by
  cases document : readDocument input with
  | error fault => simp [read, document, Except.mapError] at found
  | ok value =>
    simp only [read, document, Except.mapError, Except.ok.injEq] at found
    subst found
    rw [readDocument, Fallible.bind_eq_ok_iff] at document
    obtain ⟨⟨value, rest⟩, first, last⟩ := document
    dsimp only at last
    split at last
    · cases last
      exact fits_of_readValue first
    · cases last

end Json

end Reconcile
