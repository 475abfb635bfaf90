import Reconcile.Number.Shortest
import Reconcile.Proofs.Number.Nearest
import Reconcile.Proofs.Text.Decimal

namespace Reconcile

theorem tenTo_pos (exponent : Nat) : 0 < tenTo exponent := Nat.pow_pos (by decide)

theorem tenTo_add (a b : Nat) : tenTo (a + b) = tenTo a * tenTo b := Nat.pow_add 10 a b

theorem tenTo_le_tenTo {a b : Nat} (least : a ≤ b) : tenTo a ≤ tenTo b :=
  Nat.pow_le_pow_right (by decide) least

theorem tenTo_dvd_tenTo {a b : Nat} (least : a ≤ b) : tenTo a ∣ tenTo b :=
  Nat.pow_dvd_pow 10 least

namespace Binary64

theorem nearest_le_power {n most exponent : Nat} (small : n ≤ twoTo most * twoTo exponent) :
    nearest n ≤ twoTo most * twoTo exponent := by
  have ordered := nearest_mono small
  rwa [← twoTo_add, nearest_twoTo, twoTo_add] at ordered

theorem power_le_nearest {n least exponent : Nat} (large : twoTo least * twoTo exponent ≤ n) :
    twoTo least * twoTo exponent ≤ nearest n := by
  have ordered := nearest_mono large
  rwa [← twoTo_add, nearest_twoTo, twoTo_add] at ordered

theorem eq_of_nearest_lt {n value : Nat} (small : value < twoTo 53) (same : nearest n = value) :
    n = value := by
  have below : n < twoTo 53 := by
    by_contra above
    have ordered := nearest_mono (Nat.not_lt.mp above)
    rw [nearest_twoTo, same] at ordered
    omega
  rwa [nearest_of_lt below] at same

theorem nearest_between {value low n high : Nat} (above : low ≤ n) (below : n ≤ high)
    (atLow : nearest low = value) (atHigh : nearest high = value) : nearest n = value :=
  Nat.le_antisymm (atHigh ▸ nearest_mono below) (atLow ▸ nearest_mono above)

/-- Twice the part of the gap below a value that is rounded up to it. The gap below a power of two
is half as large as the others. -/
def gapBelow (mantissa unit : Nat) : Nat := if mantissa = twoTo 52 then unit else 2 * unit

theorem gapBelow_cases (mantissa unit : Nat) :
    mantissa = twoTo 52 ∧ gapBelow mantissa unit = unit ∨
      mantissa ≠ twoTo 52 ∧ gapBelow mantissa unit = 2 * unit := by
  by_cases least : mantissa = twoTo 52
  · exact .inl ⟨least, if_pos least⟩
  · exact .inr ⟨least, if_neg least⟩

/-- A whole number is in the interval around `mantissa * unit`. Its ends are inside if the mantissa
is even. -/
structure Around (mantissa unit n : Nat) : Prop where
  above : 4 * n ≤ 4 * (mantissa * unit) + 2 * unit
  below : 4 * (mantissa * unit) ≤ 4 * n + gapBelow mantissa unit
  even : 4 * n = 4 * (mantissa * unit) + 2 * unit ∨
    4 * (mantissa * unit) = 4 * n + gapBelow mantissa unit → mantissa % 2 = 0

section

variable {mantissa exponent n : Nat}

theorem nearest_eq_iff_of_below (more : twoTo 52 < mantissa)
    (small : n < twoTo 52 * twoTo exponent) :
    nearest n = mantissa * twoTo exponent ↔ Around mantissa (twoTo exponent) n := by
  have gap := gapBelow_cases mantissa (twoTo exponent)
  have ordered := nearest_le_power (Nat.le_of_lt small)
  have product : (twoTo 52 + 1) * twoTo exponent ≤ mantissa * twoTo exponent :=
    Nat.mul_le_mul_right _ more
  have positive := twoTo_pos exponent
  rw [Nat.succ_mul] at product
  constructor
  · intro same
    omega
  · intro around
    have below := around.below
    omega

theorem nearest_eq_iff_of_power (small : n < twoTo 52 * twoTo (exponent + 1)) :
    nearest n = twoTo 52 * twoTo (exponent + 1) ↔ Around (twoTo 52) (twoTo (exponent + 1)) n := by
  have gap : gapBelow (twoTo 52) (twoTo (exponent + 1)) = twoTo (exponent + 1) := if_pos rfl
  have positive := twoTo_pos exponent
  have double : twoTo (exponent + 1) = 2 * twoTo exponent := Nat.pow_succ'
  have moved : twoTo 52 * twoTo (exponent + 1) = twoTo 53 * twoTo exponent := by
    rw [double, ← Nat.mul_assoc]
    rfl
  have half : twoTo 53 * twoTo exponent = 2 * (twoTo 52 * twoTo exponent) :=
    Nat.mul_assoc 2 (twoTo 52) (twoTo exponent)
  by_cases level : twoTo 52 * twoTo exponent ≤ n
  · have unitHere : unit n = twoTo exponent := unit_eq_twoTo
      (by rwa [Nat.add_comm, twoTo_add]) (by rwa [Nat.add_comm, twoTo_add, ← moved])
    have even : twoTo 52 % 2 = 0 := by decide
    have evenToo : twoTo 53 % 2 = 0 := by decide
    rw [moved, nearest, unitHere, Nat.mul_left_inj positive.ne', roundQuotient_eq_iff positive]
    constructor
    · rintro ⟨above, below, -⟩
      exact ⟨by omega, by omega, fun _ => even⟩
    · rintro ⟨above, below, -⟩
      exact ⟨by omega, by omega, fun _ => evenToo⟩
  · have farBelow := nearest_le_power (Nat.le_of_lt (Nat.not_le.mp level))
    have large : twoTo exponent ≤ twoTo 52 * twoTo exponent :=
      Nat.le_mul_of_pos_left _ (twoTo_pos 52)
    constructor
    · intro equal
      omega
    · intro around
      have below := around.below
      omega

theorem nearest_eq_iff_of_one (small : n < twoTo 52) :
    nearest n = twoTo 52 * twoTo 0 ↔ Around (twoTo 52) (twoTo 0) n := by
  have gap : gapBelow (twoTo 52) (twoTo 0) = twoTo 0 := if_pos rfl
  have one : twoTo 0 = 1 := rfl
  have power : twoTo 52 * twoTo 0 = twoTo 52 := Nat.mul_one (twoTo 52)
  have same : nearest n = n := nearest_of_lt (Nat.lt_trans small (by decide))
  rw [same]
  constructor
  · intro equal
    omega
  · intro around
    have below := around.below
    omega

variable (least : twoTo 52 ≤ mantissa) (most : mantissa < twoTo 53)

include least

theorem nearest_eq_iff_of_level (level : unit n = twoTo exponent)
    (large : twoTo 52 * twoTo exponent ≤ n) :
    nearest n = mantissa * twoTo exponent ↔ Around mantissa (twoTo exponent) n := by
  have positive := twoTo_pos exponent
  rw [nearest, level, Nat.mul_left_inj positive.ne', roundQuotient_eq_iff positive]
  have gap := gapBelow_cases mantissa (twoTo exponent)
  have product : twoTo 52 * twoTo exponent ≤ mantissa * twoTo exponent :=
    Nat.mul_le_mul_right _ least
  have even : twoTo 52 % 2 = 0 := by decide
  constructor
  · rintro ⟨above, below, tie⟩
    rcases gap with ⟨rfl, gap⟩ | ⟨-, gap⟩
    · exact ⟨by omega, by omega, fun _ => even⟩
    · exact ⟨by omega, by omega, fun ends => tie (by omega)⟩
  · rintro ⟨above, below, tie⟩
    rcases gap with ⟨rfl, gap⟩ | ⟨-, gap⟩
    · exact ⟨by omega, by omega, fun _ => even⟩
    · exact ⟨by omega, by omega, fun ends => tie (by omega)⟩

include most in
theorem nearest_eq_iff_around :
    nearest n = mantissa * twoTo exponent ↔ Around mantissa (twoTo exponent) n := by
  by_cases small : n < twoTo 52 * twoTo exponent
  · rcases Nat.lt_or_eq_of_le least with more | rfl
    · exact nearest_eq_iff_of_below more small
    · cases exponent with
      | zero => exact nearest_eq_iff_of_one (Nat.lt_of_lt_of_eq small (Nat.mul_one _))
      | succ exponent => exact nearest_eq_iff_of_power small
  by_cases level : n < twoTo 53 * twoTo exponent
  · have unitHere : unit n = twoTo exponent := unit_eq_twoTo
      (by rw [Nat.add_comm, twoTo_add]; omega) (by rwa [Nat.add_comm, twoTo_add])
    exact nearest_eq_iff_of_level least unitHere (Nat.not_lt.mp small)
  · -- The value is at least one unit below all that are rounded to the next power of two.
    have ordered := power_le_nearest (Nat.not_lt.mp level)
    have positive := twoTo_pos exponent
    have product : (mantissa + 1) * twoTo exponent ≤ twoTo 53 * twoTo exponent :=
      Nat.mul_le_mul_right _ most
    rw [Nat.succ_mul] at product
    constructor
    · intro equal
      omega
    · intro around
      have above := around.above
      omega

end

variable {x : Binary64}

theorem Interval.contains_iff (i : Interval) (point : Nat) :
    i.contains point 1 = true ↔
      i.low ≤ point ∧ point ≤ i.high ∧ (i.closed = false → i.low ≠ point ∧ point ≠ i.high) := by
  cases closed : i.closed
  · simp only [Interval.contains, closed, Bool.false_eq_true, if_false, Nat.mul_one,
      Bool.and_eq_true, decide_eq_true_eq, forall_const]
    omega
  · simp [Interval.contains, closed]

theorem point_eq (n : Nat) : n * twoTo (unitBits + 2) = 4 * n * twoTo unitBits := by
  have four : twoTo 2 = 4 := rfl
  rw [twoTo_add, four]
  ring

theorem scale_ne_zero (large : unitBits ≤ x.scale) : x.scale ≠ 0 := by
  rw [unitBits] at large
  omega

theorem le_mantissa (large : unitBits ≤ x.scale) : twoTo 52 ≤ x.mantissa :=
  x.normal.resolve_right (scale_ne_zero large)

section

variable {exponent : Nat} (scale : x.scale = exponent + unitBits)

include scale

theorem magnitude_of_scale :
    x.magnitude = x.mantissa * twoTo exponent * twoTo unitBits := by
  rw [magnitude, scale, twoTo_add, Nat.mul_assoc]

theorem high_of_scale : x.interval.high =
    (4 * (x.mantissa * twoTo exponent) + 2 * twoTo exponent) * twoTo unitBits := by
  simp only [interval, magnitude_of_scale scale, scale, twoTo_add]
  ring

theorem low_of_scale : x.interval.low + gapBelow x.mantissa (twoTo exponent) * twoTo unitBits =
    4 * (x.mantissa * twoTo exponent) * twoTo unitBits := by
  have large : unitBits ≤ x.scale := by
    rw [scale]
    exact Nat.le_add_left unitBits exponent
  have product : twoTo 52 * (twoTo exponent * twoTo unitBits) ≤
      x.mantissa * twoTo exponent * twoTo unitBits := by
    rw [Nat.mul_assoc]
    exact Nat.mul_le_mul_right _ (le_mantissa large)
  have many : 1 * (twoTo exponent * twoTo unitBits) ≤
      twoTo 52 * (twoTo exponent * twoTo unitBits) := Nat.mul_le_mul_right _ (twoTo_pos 52)
  rcases gapBelow_cases x.mantissa (twoTo exponent) with ⟨power, gap⟩ | ⟨noPower, gap⟩
  · have lower := And.intro power (scale_ne_zero large)
    simp only [interval, gap, if_pos lower, magnitude_of_scale scale]
    rw [scale, twoTo_add, Nat.mul_assoc 4]
    omega
  · simp only [interval, gap, noPower, false_and, if_false, magnitude_of_scale scale]
    rw [scale, twoTo_add, Nat.mul_assoc 4, Nat.mul_assoc 2]
    omega

end

theorem contains_iff_around (large : unitBits ≤ x.scale) (n : Nat) :
    x.interval.contains (n * twoTo (unitBits + 2)) 1 = true ↔
      Around x.mantissa (twoTo (x.scale - unitBits)) n := by
  obtain ⟨exponent, scale⟩ := Nat.exists_eq_add_of_le' large
  have high := high_of_scale scale
  have low := low_of_scale scale
  have positive := twoTo_pos unitBits
  have above : 4 * n * twoTo unitBits ≤ x.interval.high ↔
      4 * n ≤ 4 * (x.mantissa * twoTo exponent) + 2 * twoTo exponent := by
    rw [high, Nat.mul_le_mul_right_iff positive]
  have atHigh : 4 * n * twoTo unitBits = x.interval.high ↔
      4 * n = 4 * (x.mantissa * twoTo exponent) + 2 * twoTo exponent := by
    rw [high, Nat.mul_left_inj positive.ne']
  have below : x.interval.low ≤ 4 * n * twoTo unitBits ↔
      4 * (x.mantissa * twoTo exponent) ≤ 4 * n + gapBelow x.mantissa (twoTo exponent) := by
    have scaled := Nat.mul_le_mul_right_iff positive (n := 4 * (x.mantissa * twoTo exponent))
      (m := 4 * n + gapBelow x.mantissa (twoTo exponent))
    rw [← scaled, ← low, Nat.add_mul, Nat.add_le_add_iff_right]
  have atLow : x.interval.low = 4 * n * twoTo unitBits ↔
      4 * (x.mantissa * twoTo exponent) = 4 * n + gapBelow x.mantissa (twoTo exponent) := by
    have scaled := Nat.mul_left_inj positive.ne' (b := 4 * (x.mantissa * twoTo exponent))
      (c := 4 * n + gapBelow x.mantissa (twoTo exponent))
    rw [← scaled, ← low, Nat.add_mul, Nat.add_left_inj]
  have odd : x.interval.closed = false ↔ ¬x.mantissa % 2 = 0 := by simp [interval]
  rw [Interval.contains_iff, point_eq, scale, Nat.add_sub_cancel, below, above, ne_eq, ne_eq, atLow,
    atHigh, odd]
  constructor
  · rintro ⟨below, above, inside⟩
    exact ⟨above, below, fun ends => by_contra fun odd =>
      ends.elim (inside odd).2 (inside odd).1⟩
  · rintro ⟨above, below, even⟩
    exact ⟨below, above, fun odd =>
      ⟨fun atLow => odd (even (.inr atLow)), fun atHigh => odd (even (.inl atHigh))⟩⟩

theorem contains_iff_eq (small : x.scale < unitBits) {whole : Nat}
    (size : x.magnitude = whole * twoTo unitBits) (positive : whole ≠ 0) (n : Nat) :
    x.interval.contains (n * twoTo (unitBits + 2)) 1 = true ↔ n = whole := by
  have step : 2 * twoTo x.scale ≤ twoTo unitBits := by
    have double : twoTo (x.scale + 1) = 2 * twoTo x.scale := Nat.pow_succ'
    rw [← double]
    exact twoTo_le_twoTo small
  have gap := twoTo_pos x.scale
  have some : 1 * twoTo unitBits ≤ whole * twoTo unitBits :=
    Nat.mul_le_mul_right _ (Nat.pos_of_ne_zero positive)
  have high : x.interval.high = 4 * (whole * twoTo unitBits) + 2 * twoTo x.scale := by
    simp only [interval, size]
  have low : x.interval.low + twoTo unitBits ≥ 4 * (whole * twoTo unitBits) ∧
      x.interval.low < 4 * (whole * twoTo unitBits) := by
    by_cases power : x.mantissa = twoTo 52 ∧ x.scale ≠ 0
    · simp only [interval, size, if_pos power]
      omega
    · simp only [interval, size, if_neg power]
      omega
  rw [Interval.contains_iff, point_eq, Nat.mul_assoc]
  constructor
  · rintro ⟨below, above, -⟩
    rcases lt_trichotomy n whole with less | same | more
    · have next : (n + 1) * twoTo unitBits ≤ whole * twoTo unitBits := Nat.mul_le_mul_right _ less
      rw [Nat.succ_mul] at next
      omega
    · exact same
    · have next : (whole + 1) * twoTo unitBits ≤ n * twoTo unitBits := Nat.mul_le_mul_right _ more
      rw [Nat.succ_mul] at next
      omega
  · rintro rfl
    exact ⟨by omega, by omega, fun _ => ⟨by omega, by omega⟩⟩

section

variable {whole : Nat} (size : x.magnitude = whole * twoTo unitBits)

include size

theorem whole_eq_of_large (large : unitBits ≤ x.scale) :
    whole = x.mantissa * twoTo (x.scale - unitBits) := by
  have scale : twoTo x.scale = twoTo (x.scale - unitBits) * twoTo unitBits := by
    rw [← twoTo_add, Nat.sub_add_cancel large]
  rw [magnitude, scale, ← Nat.mul_assoc] at size
  exact (Nat.eq_of_mul_eq_mul_right (twoTo_pos unitBits) size).symm

theorem whole_lt_of_small (small : x.scale < unitBits) : whole < twoTo 53 := by
  have step : x.mantissa * twoTo x.scale ≤ x.mantissa * twoTo unitBits :=
    Nat.mul_le_mul_left _ (twoTo_le_twoTo (Nat.le_of_lt small))
  have most : whole ≤ x.mantissa := by
    rw [magnitude] at size
    rw [size] at step
    exact Nat.le_of_mul_le_mul_right step (twoTo_pos unitBits)
  exact Nat.lt_of_le_of_lt most x.mantissa_lt

theorem nearest_whole : nearest whole = whole := by
  by_cases large : unitBits ≤ x.scale
  · rw [whole_eq_of_large size large]
    exact nearest_mul_twoTo x.mantissa_lt _
  · exact nearest_of_lt (whole_lt_of_small size (Nat.not_le.mp large))

theorem contains_iff_nearest (positive : whole ≠ 0) (n : Nat) :
    x.interval.contains (n * twoTo (unitBits + 2)) 1 = true ↔ nearest n = whole := by
  by_cases large : unitBits ≤ x.scale
  · rw [contains_iff_around large, whole_eq_of_large size large,
      nearest_eq_iff_around (le_mantissa large) x.mantissa_lt]
  · have small := Nat.not_le.mp large
    have short := whole_lt_of_small size small
    rw [contains_iff_eq small size positive]
    constructor
    · rintro rfl
      exact nearest_of_lt short
    · exact eq_of_nearest_lt short

variable (positive : whole ≠ 0) (tie : Tie) (exponent : Nat)

include positive

theorem contains_grid_iff (digits : Nat) :
    x.interval.contains (digits * (twoTo (unitBits + 2) * tenTo exponent)) 1 = true ↔
      nearest (digits * tenTo exponent) = whole := by
  rw [← contains_iff_nearest size positive, Nat.mul_assoc, Nat.mul_comm (tenTo exponent)]

/-- On a grid of whole numbers one of the two neighbours of the value is taken that are rounded to
it, if there are any. -/
theorem neighbour?_cases :
    (x.interval.neighbour? tie exponent = none ∧
      nearest (whole / tenTo exponent * tenTo exponent) ≠ whole ∧
      nearest ((whole / tenTo exponent + 1) * tenTo exponent) ≠ whole) ∨
    ∃ digits, x.interval.neighbour? tie exponent = some digits ∧
      nearest (digits * tenTo exponent) = whole ∧
      (digits = whole / tenTo exponent ∨
        digits = whole / tenTo exponent + 1 ∧ whole / tenTo exponent * tenTo exponent ≠ whole) := by
  have quarters : x.interval.mid = whole * twoTo (unitBits + 2) := by
    rw [point_eq, interval, size, Nat.mul_assoc]
  have middle : x.interval.mid * 1 / (twoTo (unitBits + 2) * tenTo exponent) =
      whole / tenTo exponent := by
    rw [quarters, Nat.mul_one, Nat.mul_comm whole, Nat.mul_div_mul_left _ _ (twoTo_pos _)]
  have one : tenTo (-(exponent : Int)).toNat = 1 := by
    have none : (-(exponent : Int)).toNat = 0 := by omega
    rw [none]
    rfl
  have below := contains_grid_iff size positive exponent (whole / tenTo exponent)
  have above := contains_grid_iff size positive exponent (whole / tenTo exponent + 1)
  -- A neighbour that is the value itself is nearer than the other.
  have nearer (low : Nat) (same : low * tenTo exponent = whole) :
      x.interval.mid * 1 - low * (twoTo (unitBits + 2) * tenTo exponent) <
        (low + 1) * (twoTo (unitBits + 2) * tenTo exponent) - x.interval.mid * 1 := by
    have step : 0 < twoTo (unitBits + 2) * tenTo exponent :=
      Nat.mul_pos (twoTo_pos _) (tenTo_pos _)
    have exact : x.interval.mid = low * (twoTo (unitBits + 2) * tenTo exponent) := by
      rw [quarters, ← same]
      ring
    rw [exact, Nat.succ_mul]
    omega
  simp only [Interval.neighbour?, Int.toNat_natCast, one, middle]
  generalize whole / tenTo exponent = low at below above ⊢
  generalize x.interval.contains (low * _) 1 = inBelow at below ⊢
  generalize x.interval.contains ((low + 1) * _) 1 = inAbove at above ⊢
  cases inBelow <;> cases inAbove <;>
    simp only [Bool.false_eq_true, false_iff, true_iff] at below above
  · exact .inl ⟨rfl, below, above⟩
  · refine .inr ⟨low + 1, rfl, above, .inr ⟨rfl, fun same => below ?_⟩⟩
    rw [same, nearest_whole size]
  · exact .inr ⟨low, rfl, below, .inl rfl⟩
  · right
    dsimp only
    split
    · exact ⟨low, rfl, below, .inl rfl⟩
    · rename_i notNearer
      have other : low * tenTo exponent ≠ whole := fun same => notNearer (nearer low same)
      split
      · exact ⟨low + 1, rfl, above, .inr ⟨rfl, other⟩⟩
      cases tie with
      | up => exact ⟨low + 1, rfl, above, .inr ⟨rfl, other⟩⟩
      | even =>
        rcases Nat.mod_two_eq_zero_or_one low with even | odd
        · exact ⟨low, by simp only [even, Nat.add_zero], below, .inl rfl⟩
        · exact ⟨low + 1, by simp only [odd], above, .inr ⟨rfl, other⟩⟩

theorem neighbour?_eq_none_iff :
    x.interval.neighbour? tie exponent = none ↔
      ∀ digits, nearest (digits * tenTo exponent) ≠ whole := by
  have self := nearest_whole size
  have split := Nat.div_add_mod' whole (tenTo exponent)
  have small := Nat.mod_lt whole (tenTo_pos exponent)
  rcases neighbour?_cases size positive tie exponent with
    ⟨none, noBelow, noAbove⟩ | ⟨found, some, rounded, -⟩
  · refine ⟨fun _ digits hit => ?_, fun _ => none⟩
    -- With any hit the neighbour on its side would be one.
    by_cases low : digits ≤ whole / tenTo exponent
    · have least : digits * tenTo exponent ≤ whole / tenTo exponent * tenTo exponent :=
        Nat.mul_le_mul_right _ low
      exact noBelow (nearest_between least (by omega) hit self)
    · have most : (whole / tenTo exponent + 1) * tenTo exponent ≤ digits * tenTo exponent :=
        Nat.mul_le_mul_right _ (Nat.not_le.mp low)
      have above : whole ≤ (whole / tenTo exponent + 1) * tenTo exponent := by
        rw [Nat.succ_mul]
        omega
      exact noAbove (nearest_between above most self hit)
  · refine ⟨fun none => ?_, fun noHit => absurd rounded (noHit found)⟩
    rw [some] at none
    cases none

theorem rounded_of_neighbour? {digits : Nat}
    (found : x.interval.neighbour? tie exponent = some digits) :
    nearest (digits * tenTo exponent) = whole ∧ digits ≤ whole / tenTo exponent + 1 := by
  rcases neighbour?_cases size positive tie exponent with ⟨none, -⟩ | ⟨other, some, rounded, side⟩
  · rw [found] at none
    cases none
  · obtain rfl : digits = other := Option.some.inj (found.symm.trans some)
    exact ⟨rounded, by omega⟩

theorem neighbour?_of_dvd (divides : tenTo exponent ∣ whole) :
    x.interval.neighbour? tie exponent = some (whole / tenTo exponent) := by
  have same := Nat.div_mul_cancel divides
  rcases neighbour?_cases size positive tie exponent with
    ⟨-, noBelow, -⟩ | ⟨digits, some, -, rfl | ⟨-, other⟩⟩
  · rw [same] at noBelow
    exact absurd (nearest_whole size) noBelow
  · exact some
  · exact absurd same other

omit positive in
/-- Seventeen digits are enough: a number with one more has a grid that is finer than its unit. -/
theorem exists_hit_of_large (large : tenTo (exponent + 16) ≤ whole) :
    ∃ digits, nearest (digits * tenTo exponent) = whole := by
  have sixteen : tenTo 16 = 10000000000000000 := rfl
  have power : twoTo 52 = 4503599627370496 := rfl
  have powerToo : twoTo 53 = 9007199254740992 := rfl
  have step := tenTo_pos exponent
  rw [tenTo_add, sixteen] at large
  have scale : unitBits ≤ x.scale := by
    by_contra small
    have short := whole_lt_of_small size (Nat.not_le.mp small)
    omega
  have least := le_mantissa scale
  have most := x.mantissa_lt
  have value := whole_eq_of_large size scale
  have split := Nat.div_add_mod' whole (tenTo exponent)
  have small := Nat.mod_lt whole step
  have next : (whole / tenTo exponent + 1) * tenTo exponent =
      whole / tenTo exponent * tenTo exponent + tenTo exponent := Nat.succ_mul _ _
  have hit {n : Nat} (around : Around x.mantissa (twoTo (x.scale - unitBits)) n) :
      nearest n = whole := by
    rw [value]
    exact (nearest_eq_iff_around least most).mpr around
  rcases gapBelow_cases x.mantissa (twoTo (x.scale - unitBits)) with ⟨same, gap⟩ | ⟨other, gap⟩
  · -- Above a power of two the grid is finer than half the unit.
    have units := value
    rw [same, power] at units
    exact ⟨whole / tenTo exponent + 1, hit ⟨by omega, by omega, by omega⟩⟩
  · have fewer : x.mantissa * twoTo (x.scale - unitBits) ≤
        twoTo 53 * twoTo (x.scale - unitBits) := Nat.mul_le_mul_right _ (Nat.le_of_lt most)
    rw [powerToo] at fewer
    by_cases low : 2 * (whole % tenTo exponent) < twoTo (x.scale - unitBits)
    · exact ⟨whole / tenTo exponent, hit ⟨by omega, by omega, by omega⟩⟩
    · exact ⟨whole / tenTo exponent + 1, hit ⟨by omega, by omega, by omega⟩⟩

end

theorem search_finds (i : Interval) (tie : Tie) (leading : Int) (left : Nat) {first last : Nat}
    (least : first ≤ last) (most : last ≤ first + left)
    (hit : i.neighbour? tie (leading - last) ≠ none) :
    ∃ found digits, first ≤ found ∧ found ≤ last ∧
      i.neighbour? tie (leading - found) = some digits ∧
      (∀ earlier, first ≤ earlier → earlier < found →
        i.neighbour? tie (leading - earlier) = none) ∧
      (i.search tie leading left (first + 1) = ⟨digits, leading - found⟩ ∨
        digits % 10 = 0 ∧
          i.search tie leading left (first + 1) = ⟨digits / 10, leading - found + 1⟩) := by
  induction left generalizing first with
  | zero =>
    obtain rfl : last = first := by omega
    obtain ⟨digits, some⟩ := Option.ne_none_iff_exists'.mp hit
    refine ⟨last, digits, least, least, some, fun earlier _ _ => by omega, .inl ?_⟩
    simp only [Interval.search, Nat.add_sub_cancel, some, Option.getD_some]
  | succ left ih =>
    cases here : i.neighbour? tie (leading - first) with
    | some digits =>
      refine ⟨first, digits, Nat.le_refl _, least, here, fun earlier _ _ => by omega, ?_⟩
      by_cases zero : digits % 10 = 0
      · refine .inr ⟨zero, ?_⟩
        simp only [Interval.search, Nat.add_sub_cancel, here, if_pos zero]
      · refine .inl ?_
        simp only [Interval.search, Nat.add_sub_cancel, here, if_neg zero]
    | none =>
      have later : first ≠ last := by
        rintro rfl
        exact hit here
      obtain ⟨found, digits, above, below, some, none, result⟩ :=
        ih (show first + 1 ≤ last by omega) (by omega)
      refine ⟨found, digits, by omega, below, some, fun earlier from_ before => ?_, ?_⟩
      · by_cases same : earlier = first
        · rw [same, here]
        · exact none earlier (by omega) before
      · simpa only [Interval.search, Nat.add_sub_cancel, here] using result

def Written (n places : Nat) : Prop :=
  ∃ digits exponent, digits < tenTo places ∧ n = digits * tenTo exponent

/-- No number with fewer significant digits is rounded to this one. -/
def IsShortest (n : Nat) : Prop :=
  ∀ m places, Written m places → nearest m = n → Written n places

theorem mul_tenTo_lt {digits places : Nat} (few : digits < tenTo places) (exponent : Nat) :
    digits * tenTo exponent < tenTo (places + exponent) := by
  rw [tenTo_add]
  exact Nat.mul_lt_mul_of_pos_right few (tenTo_pos exponent)

theorem eq_zero_of_written {m : Nat} (written : Written m 0) : m = 0 := by
  obtain ⟨digits, exponent, bound, rfl⟩ := written
  rw [Nat.lt_one_iff.mp bound, Nat.zero_mul]

theorem isShortest_of_lt {n : Nat} (small : n < twoTo 53) : IsShortest n := by
  intro m places written same
  rwa [← eq_of_nearest_lt small same]

theorem isShortest_oneDigit {digit : Nat} (positive : digit ≠ 0) (small : digit < 10)
    (exponent : Nat) : IsShortest (digit * tenTo exponent) := by
  intro m places written same
  cases places with
  | zero =>
    rw [eq_zero_of_written written, nearest_of_lt (twoTo_pos 53)] at same
    exact absurd same.symm (Nat.mul_ne_zero positive (tenTo_pos exponent).ne')
  | succ places =>
    have most : tenTo 1 ≤ tenTo (places + 1) := tenTo_le_tenTo (Nat.succ_pos places)
    exact ⟨digit, exponent, Nat.lt_of_lt_of_le small most, rfl⟩

theorem exists_length {n : Nat} (positive : n ≠ 0) :
    ∃ length, n.repr.length = length + 1 ∧ tenTo length ≤ n ∧ n < tenTo (length + 1) := by
  have digits : n.repr.length = (Nat.toDigits 10 n).length := by
    rw [← String.length_toList, Nat.toList_repr]
  have bound (places : Nat) : n.repr.length ≤ places + 1 ↔ n < tenTo (places + 1) := by
    rw [digits]
    exact Nat.length_toDigits_le_iff (by decide) (Nat.succ_pos places)
  obtain ⟨first, rest, written, -⟩ := Text.repr_eq_cons n
  have length : n.repr.length = rest.length + 1 := by
    rw [← String.length_toList, written, List.length_cons]
  refine ⟨rest.length, length, ?_, (bound _).mp (Nat.le_of_eq length)⟩
  cases others : rest.length with
  | zero => exact Nat.pos_of_ne_zero positive
  | succ fewer =>
    have longer := (bound fewer).not.mp (by omega)
    exact Nat.not_lt.mp longer

section

variable {whole : Nat} (size : x.magnitude = whole * twoTo unitBits) (positive : whole ≠ 0)

include size positive

theorem leadingExponent_eq {length : Nat} (digits : whole.repr.length = length + 1) :
    leadingExponent x.magnitude (twoTo unitBits) = length := by
  have some : 1 * twoTo unitBits ≤ whole * twoTo unitBits :=
    Nat.mul_le_mul_right _ (Nat.pos_of_ne_zero positive)
  have large : twoTo unitBits ≤ x.magnitude := by
    rw [size]
    omega
  rw [leadingExponent, if_pos large, size, Nat.mul_div_cancel _ (twoTo_pos unitBits), digits]
  omega

end

/-- What the search takes for a whole number, on the grid where `further` digits follow the first
one. -/
structure Taken (whole length further digits : Nat) : Prop where
  onGrid : further ≤ length
  rounded : nearest (digits * tenTo (length - further)) = whole
  short : digits ≤ tenTo (further + 1)
  exact : tenTo (length - further) ∣ whole → digits * tenTo (length - further) = whole
  coarser : ∀ earlier < further, ∀ n, tenTo (length - earlier) ∣ n → nearest n ≠ whole

section

variable {whole length further digits : Nat} (least : tenTo length ≤ whole)
  (most : whole < tenTo (length + 1)) (taken : Taken whole length further digits)

include least taken

include most in
theorem Taken.isShortest (self : nearest whole = whole)
    (same : digits * tenTo (length - further) = whole) : IsShortest whole := by
  intro m places written rounded
  have split : further + 1 + (length - further) = length + 1 := by
    have onGrid := taken.onGrid
    omega
  have short : digits < tenTo (further + 1) := by
    rw [← same, ← split, tenTo_add] at most
    exact Nat.lt_of_mul_lt_mul_right most
  by_cases enough : further + 1 ≤ places
  · exact ⟨digits, length - further, Nat.lt_of_lt_of_le short (tenTo_le_tenTo enough), same.symm⟩
  · exfalso
    cases places with
    | zero =>
      rw [eq_zero_of_written written, nearest_of_lt (twoTo_pos 53)] at rounded
      have positive := tenTo_pos length
      omega
    | succ places =>
      obtain ⟨few, exponent, bound, value⟩ := written
      have fewer : places < further := by omega
      by_cases coarse : length - places ≤ exponent
      · have divides : tenTo (length - places) ∣ m := by
          rw [value]
          exact Nat.dvd_mul_left_of_dvd (tenTo_dvd_tenTo coarse) few
        exact taken.coarser places fewer m divides rounded
      · -- The number is below the power of ten, which is then rounded to the value too.
        have onGrid := taken.onGrid
        have below : m ≤ tenTo length := by
          have small := mul_tenTo_lt bound exponent
          have power := tenTo_le_tenTo (show places + 1 + exponent ≤ length by omega)
          omega
        have power : nearest (tenTo length) = whole := nearest_between below least rounded self
        have divides := tenTo_dvd_tenTo (Nat.sub_le length places)
        exact taken.coarser places fewer _ divides power

theorem Taken.eq_of_isShortest (shortest : IsShortest whole) :
    digits * tenTo (length - further) = whole := by
  have onGrid := taken.onGrid
  have written : Written (digits * tenTo (length - further)) (further + 1) := by
    rcases Nat.lt_or_eq_of_le taken.short with less | same
    · exact ⟨digits, length - further, less, rfl⟩
    · have one : 1 < tenTo (further + 1) := Nat.one_lt_pow (Nat.succ_ne_zero further) (by decide)
      exact ⟨1, further + 1 + (length - further), one, by rw [same, ← tenTo_add, Nat.one_mul]⟩
  obtain ⟨few, exponent, bound, value⟩ := shortest _ _ written taken.rounded
  have fine : length - further ≤ exponent := by
    by_contra coarse
    have small := mul_tenTo_lt bound exponent
    have power := tenTo_le_tenTo (show further + 1 + exponent ≤ length by omega)
    omega
  apply taken.exact
  rw [value]
  exact Nat.dvd_mul_left_of_dvd (tenTo_dvd_tenTo fine) few

end

theorem grid_eq {length places : Nat} (onGrid : places ≤ length) :
    (length : Int) - places = (length - places : Nat) := by omega

section

variable {whole length : Nat} (size : x.magnitude = whole * twoTo unitBits)
  (least : tenTo length ≤ whole) (most : whole < tenTo (length + 1)) (tie : Tie)

include size least

theorem exists_grid_hit :
    ∃ last ≤ 0 + 16, last ≤ length ∧
      x.interval.neighbour? tie ((length : Int) - last) ≠ none := by
  have positive : whole ≠ 0 := Nat.ne_zero_of_lt (Nat.lt_of_lt_of_le (tenTo_pos length) least)
  by_cases short : length ≤ 16
  · refine ⟨length, by omega, Nat.le_refl _, ?_⟩
    rw [grid_eq (Nat.le_refl length), Nat.sub_self,
      neighbour?_of_dvd size positive tie 0 (Nat.one_dvd whole)]
    exact Option.some_ne_none _
  · refine ⟨16, Nat.le_refl _, by omega, ?_⟩
    have large : tenTo (length - 16 + 16) ≤ whole := by rwa [Nat.sub_add_cancel (by omega)]
    obtain ⟨digits, rounded⟩ := exists_hit_of_large size (length - 16) large
    rw [grid_eq (by omega)]
    intro none
    exact (neighbour?_eq_none_iff size positive tie _).mp none digits rounded

include most

theorem taken_of_first_hit {further digits : Nat} (onGrid : further ≤ length)
    (some : x.interval.neighbour? tie ((length - further : Nat) : Int) = some digits)
    (none : ∀ earlier < further, x.interval.neighbour? tie ((length : Int) - earlier) = none) :
    Taken whole length further digits := by
  have positive : whole ≠ 0 := Nat.ne_zero_of_lt (Nat.lt_of_lt_of_le (tenTo_pos length) least)
  obtain ⟨rounded, neighbour⟩ := rounded_of_neighbour? size positive tie _ some
  refine ⟨onGrid, rounded, ?_, fun divides => ?_, ?_⟩
  · have split : further + 1 + (length - further) = length + 1 := by omega
    rw [← split, tenTo_add, ← Nat.div_lt_iff_lt_mul (tenTo_pos _)] at most
    omega
  · rw [neighbour?_of_dvd size positive tie _ divides] at some
    rw [← Option.some.inj some, Nat.div_mul_cancel divides]
  · rintro earlier before n ⟨digits, rfl⟩
    have noHit := none earlier before
    rw [grid_eq (by omega)] at noHit
    rw [Nat.mul_comm]
    exact (neighbour?_eq_none_iff size positive tie _).mp noHit digits

theorem exists_taken (written : whole.repr.length = length + 1) :
    ∃ further digits, Taken whole length further digits ∧
      ∃ shown exponent : Nat, x.shortest tie = ⟨shown, exponent⟩ ∧
        shown * tenTo exponent = digits * tenTo (length - further) := by
  have positive : whole ≠ 0 := Nat.ne_zero_of_lt (Nat.lt_of_lt_of_le (tenTo_pos length) least)
  have someMantissa : x.mantissa ≠ 0 := by
    intro zero
    rw [magnitude, zero, Nat.zero_mul] at size
    exact Nat.mul_ne_zero positive (twoTo_pos unitBits).ne' size.symm
  have searched : x.shortest tie = x.interval.search tie length 16 (0 + 1) := by
    rw [shortest, if_neg someMantissa, leadingExponent_eq size positive written]
  obtain ⟨last, few, lastOnGrid, hit⟩ := exists_grid_hit size least tie
  obtain ⟨further, digits, -, upTo, some, none, result⟩ :=
    search_finds x.interval tie length 16 (Nat.zero_le last) few hit
  have onGrid : further ≤ length := Nat.le_trans upTo lastOnGrid
  rw [grid_eq onGrid] at some result
  have taken := taken_of_first_hit size least most tie onGrid some fun earlier =>
    none earlier (Nat.zero_le earlier)
  refine ⟨further, digits, taken, ?_⟩
  rcases result with same | ⟨zero, shorter⟩
  · exact ⟨digits, length - further, searched.trans same, rfl⟩
  · have tens : digits / 10 * 10 = digits := by omega
    refine ⟨digits / 10, length - further + 1, searched.trans shorter, ?_⟩
    rw [Nat.add_comm, tenTo_add, ← Nat.mul_assoc]
    exact congrArg (· * tenTo (length - further)) tens

end

/-- The shortest decimal of a whole number is the number itself iff no number with fewer
significant digits is rounded to it. -/
theorem shortest_eq_whole_iff {whole : Nat} (size : x.magnitude = whole * twoTo unitBits)
    (positive : whole ≠ 0) (tie : Tie) :
    ∃ digits exponent : Nat, x.shortest tie = ⟨digits, exponent⟩ ∧ digits ≠ 0 ∧
      (digits * tenTo exponent = whole ↔ IsShortest whole) := by
  obtain ⟨length, written, least, most⟩ := exists_length positive
  obtain ⟨further, digits, taken, shown, exponent, found, value⟩ :=
    exists_taken size least most tie written
  refine ⟨shown, exponent, found, ?_, ?_⟩
  · rintro rfl
    rw [Nat.zero_mul] at value
    have rounded := taken.rounded
    rw [← value, nearest_of_lt (twoTo_pos 53)] at rounded
    exact positive rounded.symm
  · rw [value]
    exact ⟨taken.isShortest least most (nearest_whole size), taken.eq_of_isShortest least⟩

end Binary64

end Reconcile
