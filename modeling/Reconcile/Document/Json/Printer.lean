import Reconcile.Document.Value
import Reconcile.Number.Notation

namespace Reconcile

namespace Json

/-- A float always shows that it is one: a whole number ends in `.0`, and from `1e+16` on and below
`0.00001` the notation is scientific. -/
def floatStyle : NumberStyle where
  positional leading := -5 ≤ leading ∧ leading < 16
  wholeMark := ['.', '0']
  tie := .even

def hexDigit (n : Nat) : Char := (Nat.digitChar n)

def escape (c : Char) : List Char :=
  if c = '"' then ['\\', '"']
  else if c = '\\' then ['\\', '\\']
  else if c = '\x08' then ['\\', 'b']
  else if c = '\x0c' then ['\\', 'f']
  else if c = '\n' then ['\\', 'n']
  else if c = '\r' then ['\\', 'r']
  else if c = '\t' then ['\\', 't']
  else if c.toNat < 0x20 then
    ['\\', 'u', '0', '0', hexDigit (c.toNat / 16), hexDigit (c.toNat % 16)]
  else [c]

def quote (text : List Char) : List Char := '"' :: text.flatMap escape ++ ['"']

end Json

def Number.json : Number → List Char
  | .int n => renderInt n
  | .float x => Json.floatStyle.render x

mutual

/-- The compact text of a value, without blanks. -/
def Value.jsonChars : Value → List Char
  | .null => ['n', 'u', 'l', 'l']
  | .bool true => ['t', 'r', 'u', 'e']
  | .bool false => ['f', 'a', 'l', 's', 'e']
  | .number n => n.json
  | .string s => Json.quote s.toList
  | .array items => '[' :: itemsJson items
  | .object members => '{' :: membersJson members

def itemsJson : List Value → List Char
  | [] => [']']
  | [item] => item.jsonChars ++ [']']
  | item :: items => item.jsonChars ++ ',' :: itemsJson items

def membersJson : List (String × Value) → List Char
  | [] => ['}']
  | [(name, value)] => Json.quote name.toList ++ ':' :: value.jsonChars ++ ['}']
  | (name, value) :: members =>
    Json.quote name.toList ++ ':' :: value.jsonChars ++ ',' :: membersJson members

end

def Value.json (value : Value) : String := .ofList value.jsonChars

end Reconcile
