import Reconcile.Proofs.Comparison.FirstFault
import Reconcile.Proofs.Number.Shortest
import Reconcile.Proofs.Text.Pieces

namespace Reconcile

open Binary64

namespace Text

theorem isBlank_of_isDigit {c : Char} (digit : c.isDigit = true) : isBlank c = false := by
  have bounds := Char.isDigit_iff_toNat.mp digit
  simp only [Char.reduceToNat] at bounds
  simp [isBlank, blankRanges]
  omega

theorem repr_injective {m n : Nat} (same : m.repr.toList = n.repr.toList) : m = n := by
  rw [← decimalValue_repr m, same, decimalValue_repr]

theorem repr_mul_tenTo {digits : Nat} (positive : digits ≠ 0) (exponent : Nat) :
    (digits * tenTo exponent).repr.toList = digits.repr.toList ++ Decimal.zeros exponent := by
  induction exponent with
  | zero => simp [tenTo, Decimal.zeros]
  | succ exponent ih =>
    have step : digits * tenTo (exponent + 1) = digits * tenTo exponent * 10 :=
      (Nat.mul_assoc digits (tenTo exponent) 10).symm
    have some : digits * tenTo exponent ≠ 0 := Nat.mul_ne_zero positive (tenTo_pos exponent).ne'
    have last : (digits * tenTo exponent * 10 % 10).digitChar = '0' := by
      rw [Nat.mul_mod_left]
      rfl
    rw [step, repr_eq_append (by omega), Nat.mul_div_cancel _ (by decide), ih, last,
      List.append_assoc]
    exact congrArg (digits.repr.toList ++ ·) (List.replicate_succ'.symm)

end Text

def signed (negative : Bool) (n : Nat) : List Char :=
  if negative then '-' :: n.repr.toList else n.repr.toList

theorem renderInt_eq_signed (n : Int) : renderInt n = signed (n < 0) n.natAbs := by
  simp [renderInt, signed]

theorem signed_inj {negative otherNegative : Bool} {m n : Nat} :
    signed negative m = signed otherNegative n ↔ negative = otherNegative ∧ m = n := by
  obtain ⟨first, rest, written, digit, -⟩ := Text.repr_eq_cons m
  obtain ⟨other, others, otherWritten, otherDigit, -⟩ := Text.repr_eq_cons n
  have noSign : first ≠ '-' := by
    rintro rfl
    cases digit
  have noSignToo : '-' ≠ other := by
    rintro rfl
    cases otherDigit
  constructor
  · intro same
    cases negative <;> cases otherNegative <;>
      simp only [signed, if_true, if_false, Bool.false_eq_true] at same
    · exact ⟨rfl, Text.repr_injective same⟩
    · rw [written, List.cons.injEq] at same
      exact absurd same.1 noSign
    · rw [otherWritten, List.cons.injEq] at same
      exact absurd same.1 noSignToo
    · exact ⟨rfl, Text.repr_injective (List.cons.inj same).2⟩
  · rintro ⟨rfl, rfl⟩
    rfl

theorem trim_signed (negative : Bool) (n : Nat) :
    Text.trim (signed negative n) = signed negative n := by
  have noBlank : ∀ c ∈ signed negative n, Text.isBlank c = false := by
    intro c member
    have digits : c ∈ n.repr.toList → Text.isBlank c = false := fun member =>
      Text.isBlank_of_isDigit (Text.isDigit_of_mem_repr member)
    cases negative with
    | false => exact digits member
    | true =>
      rcases List.mem_cons.mp member with rfl | member
      · rfl
      · exact digits member
  exact Text.trim_of_ends (fun c first => noBlank c (List.mem_of_mem_head? first))
    (fun c last => noBlank c (List.mem_of_mem_getLast? last))

theorem isShortest_zero : IsShortest 0 := isShortest_of_lt (twoTo_pos 53)

theorem plain_whole {x : Binary64} {whole : Nat} (size : x.magnitude = whole * twoTo unitBits) :
    ∃ shown, (Value.number (.float x)).plain = signed x.negative shown ∧
      (shown = whole ↔ IsShortest whole) := by
  by_cases zero : whole = 0
  · have noMantissa : x.mantissa = 0 := by
      rw [zero, Nat.zero_mul, magnitude] at size
      exact (Nat.mul_eq_zero.mp size).resolve_right (twoTo_pos _).ne'
    have shortest : x.shortest .up = ⟨0, 0⟩ := if_pos noMantissa
    refine ⟨0, ?_, ?_⟩
    · simp only [Value.plain, NumberStyle.render, plainFloatStyle, shortest]
      rfl
    · rw [zero]
      exact ⟨fun _ => isShortest_zero, fun _ => rfl⟩
  · obtain ⟨digits, exponent, shortest, positive, exact⟩ := shortest_eq_whole_iff size zero .up
    refine ⟨digits * tenTo exponent, ?_, exact⟩
    have written := Text.repr_mul_tenTo positive exponent
    simp only [Value.plain, NumberStyle.render, plainFloatStyle, shortest, signed, written,
      Decimal.positional, if_true, Int.natCast_nonneg, Int.toNat_natCast, List.append_nil]

section

variable {n : Int} {x : Binary64} (value : x.units = n * twoTo unitBits)

include value

theorem magnitude_of_units : x.magnitude = n.natAbs * twoTo unitBits := by
  have size : x.units.natAbs = x.magnitude := by
    rw [units]
    split <;> omega
  rw [← size, value, Int.natAbs_mul, Int.natAbs_natCast]

theorem negative_iff : x.negative = decide (n < 0) ↔ x ≠ .zero true := by
  have size := magnitude_of_units value
  have one := twoTo_pos unitBits
  by_cases nonzero : n = 0
  · rw [nonzero, Int.natAbs_zero, Nat.zero_mul] at size
    obtain ⟨negative, mantissa, scale, small, inRange, normal⟩ := x
    obtain rfl : mantissa = 0 := (Nat.mul_eq_zero.mp size).resolve_right (twoTo_pos _).ne'
    obtain rfl : scale = 0 := normal.resolve_left (Nat.not_le.mpr (twoTo_pos 52))
    cases negative <;> simp [nonzero, Binary64.zero]
  · have large : x.magnitude ≠ 0 := by
      rw [size]
      exact Nat.mul_ne_zero (Int.natAbs_ne_zero.mpr nonzero) one.ne'
    have other : x ≠ .zero true := by
      rintro rfl
      exact large (Nat.zero_mul _)
    refine ⟨fun _ => other, fun _ => ?_⟩
    have oneInt : (0 : Int) < twoTo unitBits := Int.natCast_pos.mpr one
    rw [units] at value
    cases negative : x.negative
    · rw [negative, if_neg Bool.false_ne_true] at value
      refine (decide_eq_false fun less => ?_).symm
      have below := Int.mul_neg_of_neg_of_pos less oneInt
      omega
    · rw [negative, if_pos rfl] at value
      refine (decide_eq_true (Int.not_le.mp fun least => ?_)).symm
      have above := Int.mul_nonneg least oneInt.le
      omega

theorem plain_eq_iff :
    (Value.number (.float x)).plain = renderInt n ↔ x ≠ .zero true ∧ IsShortest n.natAbs := by
  obtain ⟨shown, plain, exact⟩ := plain_whole (magnitude_of_units value)
  rw [plain, renderInt_eq_signed, signed_inj, negative_iff value, exact]

end

theorem compareItems_single (a b : Value) :
    compareItems .trimmed [a] [b] =
      if Text.trim a.plain = Text.trim b.plain then .ok 1
      else .error (.valueMismatch (.index 0) a b) := by
  have single : Pair.ofItems [a] [b] = [⟨.index 0, a, b⟩] := rfl
  by_cases same : Text.trim a.plain = Text.trim b.plain
  · have passes : Pair.check .trimmed ⟨.index 0, a, b⟩ = .ok () := by
      simp [Pair.check, Pair.agree, same]
    rw [compareItems, single, Pair.compare, if_pos same]
    simp [passes]
  · have fails : Pair.check .trimmed ⟨.index 0, a, b⟩ =
        .error (.valueMismatch (.index 0) a b) :=
      (Pair.check_eq_error_iff _ _ _).mpr (.trimmedDiffer same)
    rw [compareItems, single, Pair.compare, if_neg same]
    simp [fails]

/-- A whole float and its integer, either way round, and the float and the digits of the integer. -/
def wholePairs (n : Int) (x : Binary64) : List (Value × Value) :=
  [(.number (.int n), .number (.float x)), (.number (.float x), .number (.int n)),
    (.number (.float x), .string n.repr)]

theorem wholePairs_agree_iff {n : Int} {x : Binary64} (value : x.units = n * twoTo unitBits)
    {pair : Value × Value} (member : pair ∈ wholePairs n x) :
    Text.trim pair.1.plain = Text.trim pair.2.plain ↔ x ≠ .zero true ∧ IsShortest n.natAbs := by
  obtain ⟨shown, plain, -⟩ := plain_whole (magnitude_of_units value)
  have floatTrimmed : Text.trim (Value.number (.float x)).plain =
      (Value.number (.float x)).plain := by
    rw [plain, trim_signed]
  have intTrimmed : Text.trim (renderInt n) = renderInt n := by
    rw [renderInt_eq_signed, trim_signed]
  have intPlain : (Value.number (.int n)).plain = renderInt n := rfl
  have textPlain : (Value.string n.repr).plain = renderInt n := (Text.renderInt_eq n).symm
  simp only [wholePairs, List.mem_cons, List.not_mem_nil, or_false] at member
  rcases member with rfl | rfl | rfl
  · rw [intPlain, floatTrimmed, intTrimmed, eq_comm, plain_eq_iff value]
  · rw [intPlain, floatTrimmed, intTrimmed, plain_eq_iff value]
  · rw [textPlain, floatTrimmed, intTrimmed, plain_eq_iff value]

/-- A float agrees with the integer of its value, and with the digits of that, if it is not the
negative zero and no number with fewer significant digits is rounded to it. Otherwise each
comparison fails. -/
theorem wholePairs_compared {n : Int} {x : Binary64} (value : x.units = n * twoTo unitBits) :
    (x ≠ .zero true ∧ IsShortest n.natAbs →
      ∀ pair ∈ wholePairs n x, compareItems .trimmed [pair.1] [pair.2] = .ok 1) ∧
    (¬(x ≠ .zero true ∧ IsShortest n.natAbs) →
      ∀ pair ∈ wholePairs n x, compareItems .trimmed [pair.1] [pair.2] =
        .error (.valueMismatch (.index 0) pair.1 pair.2)) ∧
    (n.natAbs < twoTo 53 → IsShortest n.natAbs) := by
  refine ⟨fun exact pair member => ?_, fun other pair member => ?_, isShortest_of_lt⟩
  · rw [compareItems_single, if_pos ((wholePairs_agree_iff value member).mpr exact)]
  · rw [compareItems_single, if_neg (mt (wholePairs_agree_iff value member).mp other)]

def highTen : Binary64 := ⟨false, 4882812500000000, 1085, by decide, by decide, .inl (by decide)⟩

theorem highTen_compared :
    IsWide 10000000000000000000 ∧ highTen.units = 10000000000000000000 * twoTo unitBits ∧
      highTen ≠ .zero true ∧ IsShortest 10000000000000000000 ∧
      ∀ pair ∈ wholePairs 10000000000000000000 highTen,
        compareItems .trimmed [pair.1] [pair.2] = .ok 1 := by
  have value : highTen.units = 10000000000000000000 * twoTo unitBits := by decide +kernel
  have other : highTen ≠ .zero true := by decide
  have shortest : IsShortest (1 * tenTo 19) :=
    isShortest_oneDigit Nat.one_ne_zero (by decide) 19
  exact ⟨by decide, value, other, shortest, (wholePairs_compared value).1 ⟨other, shortest⟩⟩

def highTwo : Binary64 := ⟨false, twoTo 52, 1078, by decide, by decide, .inl (by decide)⟩

theorem not_isShortest_highTwo : ¬IsShortest 72057594037927936 := by
  intro shortest
  have written : Written 72057594037927940 16 := ⟨7205759403792794, 1, by decide, rfl⟩
  have rounded : nearest 72057594037927940 = 72057594037927936 := by decide +kernel
  obtain ⟨digits, exponent, few, value⟩ := shortest _ _ written rounded
  have sixteen : tenTo 16 = 10000000000000000 := rfl
  cases exponent with
  | zero =>
    have one : tenTo 0 = 1 := rfl
    rw [one] at value
    omega
  | succ exponent =>
    have tens : tenTo (exponent + 1) = tenTo exponent * 10 := rfl
    rw [tens, ← Nat.mul_assoc] at value
    omega

theorem highTwo_and_negativeZero_differ :
    (IsWide 72057594037927936 ∧ highTwo.units = 72057594037927936 * twoTo unitBits ∧
      ∀ pair ∈ wholePairs 72057594037927936 highTwo,
        compareItems .trimmed [pair.1] [pair.2] =
          .error (.valueMismatch (.index 0) pair.1 pair.2)) ∧
    (IsWide 0 ∧ (Binary64.zero true).units = 0 * twoTo unitBits ∧
      ∀ pair ∈ wholePairs 0 (.zero true), compareItems .trimmed [pair.1] [pair.2] =
        .error (.valueMismatch (.index 0) pair.1 pair.2)) := by
  have value : highTwo.units = 72057594037927936 * twoTo unitBits := by decide +kernel
  have zero : (Binary64.zero true).units = 0 * twoTo unitBits := by decide +kernel
  refine ⟨⟨by decide, value, fun pair member => ?_⟩, ⟨by decide, zero, fun pair member => ?_⟩⟩
  · have differ := mt (wholePairs_agree_iff value member).mp fun exact =>
      not_isShortest_highTwo exact.2
    rw [compareItems_single, if_neg differ]
  · have differ := mt (wholePairs_agree_iff zero member).mp fun exact => exact.1 rfl
    rw [compareItems_single, if_neg differ]

example : (Value.number (.float highTwo)).text = "72057594037927940" := by decide +kernel

end Reconcile
