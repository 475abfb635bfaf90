import Reconcile.Number.Binary64

namespace Reconcile

structure Decimal where
  digits : Nat
  exponent : Int
deriving DecidableEq, Repr

namespace Binary64

inductive Tie
  | even
  | up
deriving DecidableEq, Repr

structure Interval where
  low : Nat
  mid : Nat
  high : Nat
  closed : Bool

/-- The reals that round to `x`. The gap below the least mantissa of a scale is half of the gap
above it. -/
def interval (x : Binary64) : Interval where
  mid := 4 * x.magnitude
  low := 4 * x.magnitude -
    (if x.mantissa = twoTo 52 ∧ x.scale ≠ 0 then twoTo x.scale else 2 * twoTo x.scale)
  high := 4 * x.magnitude + 2 * twoTo x.scale
  closed := x.mantissa % 2 = 0

def Interval.contains (i : Interval) (point scale : Nat) : Bool :=
  if i.closed then i.low * scale ≤ point && point ≤ i.high * scale
  else i.low * scale < point && point < i.high * scale

def leadingExponent (num den : Nat) : Int :=
  if den ≤ num then ((num / den).repr.length : Int) - 1
  else
    let places := (den / num).repr.length
    if den ≤ num * tenTo (places - 1) then 1 - (places : Int) else -(places : Int)

/-- The better of the two neighbours of the interval's middle on the grid of `10 ^ exponent`, if
one of them is in the interval. -/
def Interval.neighbour? (i : Interval) (tie : Tie) (exponent : Int) : Option Nat :=
  let quarter := twoTo (unitBits + 2)
  let step := quarter * tenTo exponent.toNat
  let scale := tenTo (-exponent).toNat
  let below := i.mid * scale / step
  let above := below + 1
  match i.contains (below * step) scale, i.contains (above * step) scale with
  | false, false => none
  | true, false => some below
  | false, true => some above
  | true, true =>
    let toBelow := i.mid * scale - below * step
    let toAbove := above * step - i.mid * scale
    if toBelow < toAbove then some below
    else if toAbove < toBelow then some above
    else match tie with
      | .up => some above
      | .even => some (below + below % 2)

/-- Searches the grids from `places` digits on, the coarsest first; a binary64 number needs at most
17. -/
def Interval.search (i : Interval) (tie : Tie) (leading : Int) : (left places : Nat) → Decimal
  | 0, places =>
    let exponent := leading - (places - 1 : Nat)
    ⟨(i.neighbour? tie exponent).getD 0, exponent⟩
  | left + 1, places =>
    let exponent := leading - (places - 1 : Nat)
    match i.neighbour? tie exponent with
    | some digits => if digits % 10 = 0 then ⟨digits / 10, exponent + 1⟩ else ⟨digits, exponent⟩
    | none => i.search tie leading left (places + 1)

def shortest (tie : Tie) (x : Binary64) : Decimal :=
  if x.mantissa = 0 then ⟨0, 0⟩
  else x.interval.search tie (leadingExponent x.magnitude (twoTo unitBits)) 16 1

end Binary64

end Reconcile
