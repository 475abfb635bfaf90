import Reconcile.Document.Yaml.Scalar
import Reconcile.Document.Yaml.Tag

namespace Reconcile.Yaml

open Text

inductive Token
  | streamEnd
  | version (major minor : Nat)
  | tagDirective (handle : List Char) (meaning : Tag)
  | documentStart
  | documentEnd
  | blockSequenceStart
  | blockMappingStart
  | blockEnd
  | flowSequenceStart
  | flowSequenceEnd
  | flowMappingStart
  | flowMappingEnd
  | flowEntry
  | blockEntry
  | key
  | value
  | alias (name : List Char)
  | anchor (name : List Char)
  | tag (name : TagName)
  | scalar (text : List Char) (plain : Bool)
deriving DecidableEq, Repr

namespace Token

def endsAnchor (next : Option Char) : Bool :=
  endsWord next || next.any fun c => "?:,]\x7d%@`".toList.contains c

def readAnchorName (c : Cursor) : Option (List Char × Cursor) :=
  match (c.skip 1).readWhile isNameChar with
  | ([], _) => none
  | (name, c) => if endsAnchor c.peek then some (name, c) else none

def isTagChar (verbatim : Bool) (c : Char) : Bool :=
  isNameChar c || ";/?:@&=+$.%!~*'()".toList.contains c
    || (verbatim && (c == ',' || c == '[' || c == ']'))

def readOctet (c : Cursor) : Option (UInt8 × Cursor) := do
  guard (c.peek == some '%')
  let high ← hexDigit? (← c.peekAt 1)
  let low ← hexDigit? (← c.peekAt 2)
  return (.ofNat (high * 16 + low), c.skip 3)

def readContinuation : (count : Nat) → Cursor → Option (List UInt8 × Cursor)
  | 0, c => some ([], c)
  | count + 1, c => do
    let (octet, c) ← readOctet c
    guard (Utf8.continuation? octet).isSome
    let (octets, c) ← readContinuation count c
    return (octet :: octets, c)

/-- As many octets as the first one announces. There need be no character that has them. -/
def readOctets (c : Cursor) : Option (List UInt8 × Cursor) := do
  let (first, c) ← readOctet c
  match Utf8.announced first with
  | 0 => none
  | count + 1 =>
    let (octets, c) ← readContinuation count c
    return (first :: octets, c)

def readTagChars (verbatim : Bool) : (fuel : Nat) → (octets : List UInt8) → Cursor →
    Option (List UInt8 × Cursor)
  | 0, octets, c => some (octets.reverse, c)
  | fuel + 1, octets, c =>
    match c.peek with
    | none => some (octets.reverse, c)
    | some x =>
      if !isTagChar verbatim x then some (octets.reverse, c)
      else if x == '%' then do
        let (more, c) ← readOctets c
        readTagChars verbatim fuel (more.reverse ++ octets) c
      else readTagChars verbatim fuel ((Utf8.encodeChar x).reverse ++ octets) (c.skip 1)

def readTagText (verbatim : Bool) (c : Cursor) : Option (Tag × Cursor) := do
  let (octets, c) ← readTagChars verbatim c.rest.length [] c
  if octets.isEmpty then none else return (.ofOctets octets, c)

def readHandle (c : Cursor) : Option (List Char × Cursor) := do
  guard (c.peek == some '!')
  let (name, c) := (c.skip 1).readWhile isNameChar
  if c.peek == some '!' then return ('!' :: name ++ ['!'], c.skip 1) else return ('!' :: name, c)

def isFullHandle (handle : List Char) : Bool := 2 ≤ handle.length && handle.getLast? == some '!'

def readTagName (c : Cursor) : Option (TagName × Cursor) := do
  if c.peekAt 1 == some '<' then
    let (suffix, c) ← readTagText true (c.skip 2)
    guard (c.peek == some '>')
    return (⟨[], suffix⟩, c.skip 1)
  else
    let (handle, c) ← readHandle c
    if isFullHandle handle then
      let (suffix, c) ← readTagText false c
      return (⟨handle, suffix⟩, c)
    else
      let (octets, c) ← readTagChars false c.rest.length [] c
      match Tag.ofOctets (Tag.ofText handle.tail ++ octets) with
      | [] => return (⟨[], Tag.ofText ['!']⟩, c)
      | suffix => return (⟨['!'], suffix⟩, c)

def readTag (flow : Bool) (c : Cursor) : Option (TagName × Cursor) := do
  let (name, c) ← readTagName c
  if endsWord c.peek || (flow && c.peek == some ',') then return (name, c) else none

def readVersionNumber (c : Cursor) : Option (Nat × Cursor) :=
  let (digits, c) := c.readWhile Char.isDigit
  if digits.isEmpty || 9 < digits.length then none
  else some (digits.foldl (fun n d => n * 10 + (d.toNat - '0'.toNat)) 0, c)

def readVersion (c : Cursor) : Option (Token × Cursor) := do
  let (major, c) ← readVersionNumber (c.skipWhile isSpaceOrTab)
  guard (c.peek == some '.')
  let (minor, c) ← readVersionNumber (c.skip 1)
  return (.version major minor, c)

def readTagDirective (c : Cursor) : Option (Token × Cursor) := do
  let (handle, c) ← readHandle (c.skipWhile isSpaceOrTab)
  guard (isFullHandle handle || handle == ['!'])
  guard (c.peek.any isSpaceOrTab)
  let (meaning, c) ← readTagText true (c.skipWhile isSpaceOrTab)
  guard (endsWord c.peek)
  return (.tagDirective handle meaning, c)

def readDirective (c : Cursor) : Option (Token × Cursor) := do
  let (name, c) := (c.skip 1).readWhile isNameChar
  guard (endsWord c.peek)
  let (token, c) ← match String.ofList name with
    | "YAML" => readVersion c
    | "TAG" => readTagDirective c
    | _ => none
  return (token, ← c.skipLineEnd)

end Token

end Reconcile.Yaml
