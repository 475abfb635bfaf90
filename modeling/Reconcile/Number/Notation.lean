import Reconcile.Number.Shortest

namespace Reconcile

structure NumberStyle where
  positional : Int → Bool
  wholeMark : List Char
  tie : Binary64.Tie

namespace Decimal

def zeros (count : Nat) : List Char := List.replicate count '0'

def positional (wholeMark : List Char) (digits : List Char) (exponent : Int) : List Char :=
  if 0 ≤ exponent then digits ++ zeros exponent.toNat ++ wholeMark
  else
    let places := (-exponent).toNat
    if digits.length ≤ places then
      '0' :: '.' :: zeros (places - digits.length) ++ digits
    else
      digits.take (digits.length - places) ++ '.' :: digits.drop (digits.length - places)

def scientific (digits : List Char) (leading : Int) : List Char :=
  let mantissa := match digits with
    | [] => []
    | [d] => [d]
    | d :: ds => d :: '.' :: ds
  mantissa ++ 'e' :: (if leading < 0 then '-' else '+') :: leading.natAbs.repr.toList

end Decimal

def NumberStyle.render (style : NumberStyle) (x : Binary64) : List Char :=
  let decimal := x.shortest style.tie
  let digits := decimal.digits.repr.toList
  let leading := decimal.exponent + digits.length - 1
  let body :=
    if style.positional leading then Decimal.positional style.wholeMark digits decimal.exponent
    else Decimal.scientific digits leading
  if x.negative then '-' :: body else body

def renderInt (n : Int) : List Char :=
  if n < 0 then '-' :: n.natAbs.repr.toList else n.natAbs.repr.toList

end Reconcile
