import Reconcile.Document.Yaml.Tree
import Reconcile.Text.Digits

namespace Reconcile.Yaml

open Text

def isNull (text : List Char) : Bool :=
  ["null", "Null", "NULL", "~"].any (·.toList == text)

def bool? (text : List Char) : Option Bool :=
  if ["true", "True", "TRUE"].any (·.toList == text) then some true
  else if ["false", "False", "FALSE"].any (·.toList == text) then some false
  else none

def digits? (base : Nat) (digits : List Char) : Option Nat := do
  guard !digits.isEmpty
  digits.foldlM (fun n c => do
    let d ← if c.isDigit then some (c.toNat - '0'.toNat)
      else if c.toLower.isLower then some (c.toLower.toNat - 'a'.toNat + 10)
      else none
    if d < base then some (n * base + d) else none) 0

def unsigned? : List Char → Option Nat
  | '0' :: 'x' :: digits => digits? 16 digits
  | '0' :: 'o' :: digits => digits? 8 digits
  | '0' :: 'b' :: digits => digits? 2 digits
  | digits => digits? 10 digits

def hasLeadingZero (text : List Char) : Bool :=
  let digits := match text with
    | '-' :: rest | '+' :: rest => rest
    | rest => rest
  match digits with
  | '0' :: d :: rest => (d :: rest).all Char.isDigit
  | _ => false

def int? (text : List Char) : Option Int :=
  if hasLeadingZero text then none
  else match text with
    | '-' :: rest => do
      let n ← unsigned? rest
      if n ≤ twoTo 127 then some (-n) else none
    | '+' :: rest | rest => do
      let n ← unsigned? rest
      if n < twoTo 128 then some n else none

def mantissa? (text : List Char) : Option (Nat × Nat) :=
  let (whole, rest) := text.span Char.isDigit
  let fraction := match rest with
    | '.' :: places => places
    | _ => []
  if (whole.isEmpty && fraction.isEmpty) || !(rest.isEmpty || rest.head? == some '.')
      || !fraction.all Char.isDigit then none
  else some (decimalValue (whole ++ fraction), fraction.length)

def exponent? : List Char → Option Int
  | '-' :: digits => do
    guard (!digits.isEmpty && digits.all Char.isDigit)
    return -(decimalValue digits : Int)
  | '+' :: digits | digits => do
    guard (!digits.isEmpty && digits.all Char.isDigit)
    return (decimalValue digits : Int)

def decimal? (negative : Bool) (text : List Char) : Option Binary64 := do
  let (front, back) := text.span fun c => c != 'e' && c != 'E'
  let (digits, places) ← mantissa? front
  let exponent ← match back with
    | [] => some 0
    | _ :: back => exponent? back
  Binary64.ofDecimal negative digits (exponent - places)

def isInfinity (text : List Char) : Bool := [".inf", ".Inf", ".INF"].any (·.toList == text)

def isNotANumber (text : List Char) : Bool := [".nan", ".NaN", ".NAN"].any (·.toList == text)

def float? (text : List Char) : Option Real :=
  if isNotANumber text then some .notANumber
  else match text with
    | '-' :: rest =>
      if isInfinity rest then some (.infinite true) else (decimal? true rest).map .finite
    | '+' :: rest | rest =>
      if isInfinity rest then some (.infinite false) else (decimal? false rest).map .finite

/-- The whole numbers that a document can hold; larger ones are at fault, not text. -/
def intTree? (n : Int) : Option Tree := if IsWide n then some (.int n) else none

/-- What a plain scalar without a tag stands for. A decimal number with zeros in front is text, and
so is a float that is too large. -/
def plainTree? (text : List Char) : Option Tree :=
  if text.isEmpty || isNull text then some .null
  else match bool? text, int? text with
    | some b, _ => some (.bool b)
    | none, some n => intTree? n
    | none, none =>
      match if hasLeadingZero text then none else float? text with
      | some x => some (.float x)
      | none => some (.string (.ofList text))

/-- What a scalar stands for whose tag gives its kind. Any but these four kinds is text. -/
def kindTree? (kind : Option String) (text : List Char) : Option Tree :=
  match kind with
  | some "null" => if isNull text then some .null else none
  | some "bool" => (bool? text).map .bool
  | some "int" => do intTree? (← int? text)
  | some "float" => (float? text).map .float
  | _ => some (.string (.ofList text))

end Reconcile.Yaml
