import Reconcile.Number.Power

namespace Reconcile

/-- The finite number `± mantissa · 2 ^ scale / 2 ^ 1074`. -/
structure Binary64 where
  negative : Bool
  mantissa : Nat
  scale : Nat
  mantissa_lt : mantissa < twoTo 53
  scale_le : scale ≤ 2045
  normal : twoTo 52 ≤ mantissa ∨ scale = 0
deriving DecidableEq

namespace Binary64

def unitBits : Nat := 1074

def magnitude (x : Binary64) : Nat := x.mantissa * twoTo x.scale

/-- The value in units of `2 ^ -1074`. -/
def units (x : Binary64) : Int := if x.negative then -(x.magnitude : Int) else x.magnitude

def ofParts? (negative : Bool) (mantissa scale : Nat) : Option Binary64 :=
  if h : mantissa < twoTo 53 ∧ scale ≤ 2045 ∧ (twoTo 52 ≤ mantissa ∨ scale = 0) then
    some ⟨negative, mantissa, scale, h.1, h.2.1, h.2.2⟩
  else none

def zero (negative : Bool) : Binary64 :=
  ⟨negative, 0, 0, by decide, by decide, .inr rfl⟩

/-- The whole number nearest to `num / den`, an even one when two are equally near. -/
def roundQuotient (num den : Nat) : Nat :=
  let floor := num / den
  let twice := 2 * (num % den)
  if twice < den then floor
  else if den < twice then floor + 1
  else floor + floor % 2

def ofUnits (negative : Bool) (num den : Nat) : Option Binary64 :=
  let scale := (num / den).log2 - 52
  let mantissa := roundQuotient num (den * twoTo scale)
  if mantissa = twoTo 53 then ofParts? negative (twoTo 52) (scale + 1)
  else ofParts? negative mantissa scale

def ofRatio (negative : Bool) (num den : Nat) : Option Binary64 :=
  ofUnits negative (num * twoTo unitBits) den

def ofDecimal (negative : Bool) (digits : Nat) (exponent : Int) : Option Binary64 :=
  if digits = 0 then some (zero negative)
  else if 0 ≤ exponent then
    if exponent ≤ 400 then ofRatio negative (digits * tenTo exponent.toNat) 1 else none
  else
    let places := (-exponent).toNat
    if places ≤ 400 + digits.log2 then ofRatio negative digits (tenTo places)
    else some (zero negative)

def ofInt (n : Int) : Option Binary64 := ofRatio (n < 0) n.natAbs 1

def mul? (x y : Binary64) : Option Binary64 :=
  ofUnits (x.negative != y.negative) (x.magnitude * y.magnitude) (twoTo unitBits)

def div? (x y : Binary64) : Option Binary64 :=
  ofRatio (x.negative != y.negative) x.magnitude y.magnitude

protected def compare (x y : Binary64) : Ordering := Ord.compare x.units y.units

end Binary64

end Reconcile
