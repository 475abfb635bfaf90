import Mathlib.Data.Int.Order.Basic
import Mathlib.Tactic.Ring
import Reconcile.Document.Value

namespace Reconcile

theorem twoTo_pos (exponent : Nat) : 0 < twoTo exponent := Nat.two_pow_pos exponent

theorem twoTo_add (a b : Nat) : twoTo (a + b) = twoTo a * twoTo b := Nat.pow_add 2 a b

theorem twoTo_le_twoTo {a b : Nat} (least : a ≤ b) : twoTo a ≤ twoTo b :=
  Nat.pow_le_pow_right (by decide) least

namespace Binary64

/-- A whole number is at most half off a quotient, and even if it is just half off. -/
structure Rounds (num den result : Nat) : Prop where
  above : 2 * num ≤ 2 * (result * den) + den
  below : 2 * (result * den) ≤ 2 * num + den
  even : 2 * num = 2 * (result * den) + den ∨ 2 * (result * den) = 2 * num + den →
    result % 2 = 0

theorem rounds_roundQuotient {den : Nat} (positive : 0 < den) (num : Nat) :
    Rounds num den (roundQuotient num den) := by
  have split : num / den * den + num % den = num := Nat.div_add_mod' num den
  have small := Nat.mod_lt num positive
  have next : (num / den + 1) * den = num / den * den + den := Nat.succ_mul _ _
  unfold roundQuotient
  by_cases less : 2 * (num % den) < den
  · simp only [if_pos less]
    exact ⟨by omega, by omega, by omega⟩
  · by_cases more : den < 2 * (num % den)
    · simp only [if_neg less, if_pos more]
      exact ⟨by omega, by omega, by omega⟩
    · simp only [if_neg less, if_neg more]
      rcases Nat.mod_two_eq_zero_or_one (num / den) with even | odd
      · rw [even, Nat.add_zero]
        exact ⟨by omega, by omega, fun _ => even⟩
      · rw [odd]
        exact ⟨by omega, by omega, fun _ => by omega⟩

theorem Rounds.unique {num den first second : Nat} (positive : 0 < den)
    (one : Rounds num den first) (other : Rounds num den second) : first = second := by
  -- Of two results the larger one is the next, and both are half off.
  have ordered {less more : Nat} (low : Rounds num den less) (high : Rounds num den more) :
      ¬ less < more := by
    intro smaller
    have gap : less * den + den ≤ more * den := by
      rw [← Nat.succ_mul]
      exact Nat.mul_le_mul_right den smaller
    have lowAbove := low.above
    have highBelow := high.below
    have lowEven := low.even (.inl (by omega))
    have highEven := high.even (.inr (by omega))
    have apart : less * den + 2 * den ≤ more * den := by
      rw [← Nat.add_mul]
      exact Nat.mul_le_mul_right den (by omega)
    omega
  exact Nat.le_antisymm (Nat.not_lt.mp (ordered other one)) (Nat.not_lt.mp (ordered one other))

theorem roundQuotient_eq_iff {den : Nat} (positive : 0 < den) (num result : Nat) :
    roundQuotient num den = result ↔ Rounds num den result :=
  ⟨fun same => same ▸ rounds_roundQuotient positive num,
    fun rounded => (rounds_roundQuotient positive num).unique positive rounded⟩

theorem roundQuotient_mul {den : Nat} (positive : 0 < den) (result : Nat) :
    roundQuotient (result * den) den = result :=
  (roundQuotient_eq_iff positive _ _).mpr ⟨by omega, by omega, by omega⟩

theorem roundQuotient_scale {den factor : Nat} (positive : 0 < den) (scaled : 0 < factor)
    (num : Nat) : roundQuotient (num * factor) (den * factor) = roundQuotient num den := by
  rw [roundQuotient_eq_iff (Nat.mul_pos positive scaled)]
  obtain ⟨above, below, even⟩ := rounds_roundQuotient positive num
  generalize roundQuotient num den = result at above below even
  have left : 2 * (num * factor) = 2 * num * factor := by ring
  have right : 2 * (result * (den * factor)) = 2 * (result * den) * factor := by ring
  refine ⟨?_, ?_, fun tie => even ?_⟩
  · rw [left, right, ← Nat.add_mul]
    exact Nat.mul_le_mul_right factor above
  · rw [left, right, ← Nat.add_mul]
    exact Nat.mul_le_mul_right factor below
  · rw [left, right, ← Nat.add_mul, ← Nat.add_mul] at tie
    exact tie.imp (Nat.eq_of_mul_eq_mul_right scaled) (Nat.eq_of_mul_eq_mul_right scaled)

theorem roundQuotient_mono {den : Nat} (positive : 0 < den) {first second : Nat}
    (least : first ≤ second) : roundQuotient first den ≤ roundQuotient second den := by
  have one := rounds_roundQuotient positive first
  have other := rounds_roundQuotient positive second
  by_contra more
  have gap : roundQuotient second den * den + den ≤ roundQuotient first den * den := by
    rw [← Nat.succ_mul]
    exact Nat.mul_le_mul_right den (by omega)
  have oneBelow := one.below
  have otherAbove := other.above
  -- Both are half off the same quotient, so they are one.
  have same : first = second := by omega
  rw [same] at more
  exact more (Nat.le_refl _)

/-- The unit in which whole numbers of this size are counted: ones up to 53 bits. -/
def unit (n : Nat) : Nat := twoTo (n.log2 - 52)

/-- The multiple of the unit that is nearest to a whole number, of two the even one. -/
def nearest (n : Nat) : Nat := roundQuotient n (unit n) * unit n

theorem unit_pos (n : Nat) : 0 < unit n := twoTo_pos _

theorem unit_eq_twoTo {n exponent : Nat} (least : twoTo (exponent + 52) ≤ n)
    (most : n < twoTo (exponent + 53)) : unit n = twoTo exponent := by
  have positive : n ≠ 0 := Nat.ne_zero_of_lt (Nat.lt_of_lt_of_le (twoTo_pos _) least)
  have bits : n.log2 = exponent + 52 := (Nat.log2_eq_iff positive).mpr ⟨least, most⟩
  rw [unit, bits, Nat.add_sub_cancel]

theorem unit_of_lt {n : Nat} (small : n < twoTo 53) : unit n = 1 := by
  by_cases zero : n = 0
  · rw [zero]
    rfl
  · have bits : n.log2 < 53 := (Nat.log2_lt zero).mpr small
    have none : n.log2 - 52 = 0 := by omega
    rw [unit, none]
    rfl

theorem le_nearest_of_dvd {n multiple : Nat} (divides : unit n ∣ multiple)
    (least : multiple ≤ n) : multiple ≤ nearest n := by
  obtain ⟨count, rfl⟩ := divides
  rw [Nat.mul_comm] at least ⊢
  have rounded := roundQuotient_mono (unit_pos n) least
  rw [roundQuotient_mul (unit_pos n)] at rounded
  exact Nat.mul_le_mul_right _ rounded

theorem nearest_le_of_dvd {n multiple : Nat} (divides : unit n ∣ multiple)
    (most : n ≤ multiple) : nearest n ≤ multiple := by
  obtain ⟨count, rfl⟩ := divides
  rw [Nat.mul_comm] at most ⊢
  have rounded := roundQuotient_mono (unit_pos n) most
  rw [roundQuotient_mul (unit_pos n)] at rounded
  exact Nat.mul_le_mul_right _ rounded

theorem nearest_of_dvd {n : Nat} (divides : unit n ∣ n) : nearest n = n :=
  Nat.le_antisymm (nearest_le_of_dvd divides (Nat.le_refl n))
    (le_nearest_of_dvd divides (Nat.le_refl n))

theorem nearest_of_lt {n : Nat} (small : n < twoTo 53) : nearest n = n := by
  apply nearest_of_dvd
  rw [unit_of_lt small]
  exact Nat.one_dvd n

theorem nearest_mul_twoTo {mantissa : Nat} (fits : mantissa < twoTo 53) (exponent : Nat) :
    nearest (mantissa * twoTo exponent) = mantissa * twoTo exponent := by
  apply nearest_of_dvd
  by_cases zero : mantissa * twoTo exponent = 0
  · rw [zero]
    exact Nat.dvd_zero _
  · have small : mantissa * twoTo exponent < twoTo (53 + exponent) := by
      rw [twoTo_add]
      exact Nat.mul_lt_mul_of_pos_right fits (twoTo_pos exponent)
    have bits := (Nat.log2_lt zero).mpr small
    exact Nat.dvd_mul_left_of_dvd (Nat.pow_dvd_pow 2 (by omega)) mantissa

theorem nearest_twoTo (exponent : Nat) : nearest (twoTo exponent) = twoTo exponent := by
  have fits : 1 < twoTo 53 := by decide
  simpa using nearest_mul_twoTo fits exponent

theorem nearest_mono {first second : Nat} (least : first ≤ second) :
    nearest first ≤ nearest second := by
  by_cases zero : first = 0
  · rw [zero]
    exact Nat.zero_le _
  · have positive : second ≠ 0 := by omega
    have firstBits := Nat.lt_log2_self (n := first)
    have secondBits := Nat.log2_self_le positive
    by_cases same : unit first = unit second
    · rw [nearest, nearest, same]
      exact Nat.mul_le_mul_right _ (roundQuotient_mono (unit_pos second) least)
    · -- A power of two between the two is a multiple of both units.
      have bits : first.log2 ≤ second.log2 :=
        (Nat.le_log2 positive).mpr (Nat.le_trans (Nat.log2_self_le zero) least)
      have fewer : first.log2 + 1 ≤ second.log2 ∧ 53 ≤ second.log2 := by
        by_contra close
        have level : first.log2 - 52 = second.log2 - 52 := by omega
        exact same (congrArg twoTo level)
      have below : first ≤ twoTo second.log2 :=
        Nat.le_trans (Nat.le_of_lt firstBits) (twoTo_le_twoTo fewer.1)
      calc nearest first
          ≤ twoTo second.log2 :=
            nearest_le_of_dvd (Nat.pow_dvd_pow 2 (by omega)) below
        _ ≤ nearest second := le_nearest_of_dvd (Nat.pow_dvd_pow 2 (by omega)) secondBits

theorem log2_mul_twoTo {n : Nat} (positive : n ≠ 0) (exponent : Nat) :
    (n * twoTo exponent).log2 = n.log2 + exponent := by
  rw [Nat.log2_eq_iff (Nat.mul_ne_zero positive (twoTo_pos exponent).ne')]
  constructor
  · rw [Nat.pow_add]
    exact Nat.mul_le_mul_right _ (Nat.log2_self_le positive)
  · rw [Nat.add_right_comm, Nat.pow_add]
    exact Nat.mul_lt_mul_of_pos_right Nat.lt_log2_self (twoTo_pos exponent)

def mantissaOf (n : Nat) : Nat :=
  roundQuotient (n * twoTo unitBits) (twoTo (n.log2 + 1022))

theorem mantissaOf_mul (n : Nat) :
    mantissaOf n * twoTo (n.log2 + 1022) = nearest n * twoTo unitBits := by
  by_cases small : n.log2 ≤ 52
  · have bits : unitBits = (52 - n.log2) + (n.log2 + 1022) := by
      simp only [unitBits]
      omega
    have exact : n * twoTo unitBits = n * twoTo (52 - n.log2) * twoTo (n.log2 + 1022) := by
      rw [Nat.mul_assoc, ← twoTo_add, ← bits]
    have short : nearest n = n := by
      apply nearest_of_dvd
      rw [unit, Nat.sub_eq_zero_of_le small]
      exact Nat.one_dvd n
    rw [mantissaOf, exact, roundQuotient_mul (twoTo_pos _), short, ← exact]
  · have bits : n.log2 + 1022 = (n.log2 - 52) + unitBits := by
      simp only [unitBits]
      omega
    rw [mantissaOf, bits, twoTo_add, roundQuotient_scale (twoTo_pos _) (twoTo_pos _), nearest, unit,
      Nat.mul_assoc]

theorem mantissaOf_bounds {n : Nat} (positive : n ≠ 0) :
    twoTo 52 ≤ mantissaOf n ∧ mantissaOf n ≤ twoTo 53 := by
  have least : n.log2 + unitBits = 52 + (n.log2 + 1022) := by
    simp only [unitBits]
    omega
  have most : n.log2 + 1 + unitBits = 53 + (n.log2 + 1022) := by omega
  have moved {exponent more : Nat} (same : exponent + unitBits = more + (n.log2 + 1022)) :
      twoTo exponent * twoTo unitBits = twoTo more * twoTo (n.log2 + 1022) := by
    rw [← twoTo_add, same, twoTo_add]
  constructor
  · rw [← roundQuotient_mul (twoTo_pos (n.log2 + 1022)) (twoTo 52), ← moved least]
    exact roundQuotient_mono (twoTo_pos _) (Nat.mul_le_mul_right _ (Nat.log2_self_le positive))
  · rw [← roundQuotient_mul (twoTo_pos (n.log2 + 1022)) (twoTo 53), ← moved most]
    exact roundQuotient_mono (twoTo_pos _)
      (Nat.mul_le_mul_right _ (Nat.le_of_lt Nat.lt_log2_self))

theorem ofParts?_eq_some {mantissa scale : Nat} (negative : Bool) (small : mantissa < twoTo 53)
    (inRange : scale ≤ 2045) (normal : twoTo 52 ≤ mantissa) :
    ofParts? negative mantissa scale =
      some ⟨negative, mantissa, scale, small, inRange, .inl normal⟩ :=
  dif_pos ⟨small, inRange, .inl normal⟩

theorem exists_ofInt {n : Int} (inRange : n.natAbs.log2 ≤ 64) :
    ∃ x, ofInt n = some x ∧ x.negative = decide (n < 0) ∧
      x.magnitude = nearest n.natAbs * twoTo unitBits := by
  by_cases zero : n = 0
  · have none : nearest 0 = 0 := nearest_of_lt (by decide)
    refine ⟨Binary64.zero false, by rw [zero]; decide +kernel, by rw [zero]; rfl, ?_⟩
    rw [zero, Int.natAbs_zero, none, Nat.zero_mul, magnitude, Binary64.zero, Nat.zero_mul]
  · have positive : n.natAbs ≠ 0 := Int.natAbs_ne_zero.mpr zero
    have scale : (n.natAbs * twoTo unitBits / 1).log2 - 52 = n.natAbs.log2 + 1022 := by
      rw [Nat.div_one, log2_mul_twoTo positive]
      simp only [unitBits]
      omega
    obtain ⟨least, most⟩ := mantissaOf_bounds positive
    have value := mantissaOf_mul n.natAbs
    simp only [ofInt, ofRatio, ofUnits, scale, Nat.one_mul]
    unfold mantissaOf at least most value
    generalize n.natAbs.log2 = bits at inRange least most value
    generalize roundQuotient _ _ = mantissa at least most value
    by_cases carried : mantissa = twoTo 53
    · rw [if_pos carried, ofParts?_eq_some _ (by decide) (by omega) (Nat.le_refl _)]
      refine ⟨_, rfl, rfl, ?_⟩
      have moved : 52 + (bits + 1022 + 1) = 53 + (bits + 1022) := by omega
      rw [magnitude, ← value, carried, ← twoTo_add, ← twoTo_add, ← moved]
    · rw [if_neg carried, ofParts?_eq_some _ (by omega) (by omega) least]
      exact ⟨_, rfl, rfl, value⟩

def nearestInt (n : Int) : Int :=
  if n < 0 then -(nearest n.natAbs : Int) else nearest n.natAbs

theorem nearestInt_mono {first second : Int} (least : first ≤ second) :
    nearestInt first ≤ nearestInt second := by
  unfold nearestInt
  by_cases firstNegative : first < 0 <;> by_cases secondNegative : second < 0
  · have ordered := nearest_mono (show second.natAbs ≤ first.natAbs by omega)
    simp only [firstNegative, secondNegative, if_true]
    omega
  · simp only [firstNegative, secondNegative, if_true, if_false]
    omega
  · omega
  · have ordered := nearest_mono (show first.natAbs ≤ second.natAbs by omega)
    simp only [firstNegative, secondNegative, if_false]
    omega

theorem nearestInt_of_le {n : Int} (small : n.natAbs ≤ twoTo 53) : nearestInt n = n := by
  have same : nearest n.natAbs = n.natAbs := by
    rcases Nat.lt_or_eq_of_le small with less | equal
    · exact nearest_of_lt less
    · rw [equal, nearest_twoTo]
  rw [nearestInt, same]
  omega

/-- Distinct numbers that rounding makes one. -/
def Meet (a b : Int) : Prop := a ≠ b ∧ nearestInt a = nearestInt b

theorem Meet.symm {a b : Int} (meet : Meet a b) : Meet b a := ⟨meet.1.symm, meet.2.symm⟩

theorem Meet.large {a b : Int} (meet : Meet a b) : twoTo 53 ≤ a.natAbs := by
  obtain ⟨different, same⟩ := meet
  by_contra small
  have aSame : nearestInt a = a := nearestInt_of_le (by omega)
  rcases Int.lt_or_gt_of_ne different with less | more
  · have next := nearestInt_of_le (show (a + 1).natAbs ≤ twoTo 53 by omega)
    have above := nearestInt_mono (show a + 1 ≤ b by omega)
    omega
  · have previous := nearestInt_of_le (show (a - 1).natAbs ≤ twoTo 53 by omega)
    have below := nearestInt_mono (show b ≤ a - 1 by omega)
    omega

theorem nearestInt_lt_nearestInt {a b : Int} (apart : ¬Meet a b) (less : a < b) :
    nearestInt a < nearestInt b := by
  have ordered := nearestInt_mono (Int.le_of_lt less)
  have different : nearestInt a ≠ nearestInt b := fun same => apart ⟨by omega, same⟩
  omega

end Binary64

open Binary64

theorem IsWide.log2_le {n : Int} (wide : IsWide n) : n.natAbs.log2 ≤ 64 := by
  by_cases zero : n.natAbs = 0
  · simp [zero]
  · have low : (twoTo 63 : Int) = 9223372036854775808 := rfl
    have high : (twoTo 64 : Int) = 18446744073709551616 := rfl
    have most : n.natAbs < 2 ^ 65 := by
      obtain ⟨least, most⟩ := wide
      omega
    exact Nat.le_of_lt_succ ((Nat.log2_lt zero).mpr most)

theorem Number.units_int {n : Int} (wide : IsWide n) :
    (Number.int n).toBinary64.units = nearestInt n * twoTo unitBits := by
  obtain ⟨x, found, sign, size⟩ := exists_ofInt wide.log2_le
  rw [Number.toBinary64, found, Option.getD_some, units, sign, size, nearestInt]
  by_cases negative : n < 0
  · simp only [negative, decide_true, if_true, Int.natCast_mul, Int.neg_mul]
  · simp only [negative, decide_false, if_false, Bool.false_eq_true, Int.natCast_mul]

end Reconcile
