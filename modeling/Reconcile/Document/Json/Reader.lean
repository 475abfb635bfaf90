import Reconcile.Document.Value
import Reconcile.Text.Utf8

namespace Reconcile.Json

open Text

inductive Cause
  | endInValue
  | endInList
  | endInObject
  | endInString
  | expectedColon
  | expectedListSeparator
  | expectedObjectSeparator
  | expectedWord
  | expectedValue
  | invalidEscape
  | invalidNumber
  | numberOutOfRange
  | invalidCharacter
  | controlCharacter
  | nameNotString
  | loneSurrogate
  | trailingComma
  | trailingCharacters
  | unfinishedSurrogate
  | tooDeep
deriving DecidableEq, Repr

def Cause.message : Cause → String
  | .endInValue => "EOF while parsing a value"
  | .endInList => "EOF while parsing a list"
  | .endInObject => "EOF while parsing an object"
  | .endInString => "EOF while parsing a string"
  | .expectedColon => "expected `:`"
  | .expectedListSeparator => "expected `,` or `]`"
  | .expectedObjectSeparator => "expected `,` or `\x7d`"
  | .expectedWord => "expected ident"
  | .expectedValue => "expected value"
  | .invalidEscape => "invalid escape"
  | .invalidNumber => "invalid number"
  | .numberOutOfRange => "number out of range"
  | .invalidCharacter => "invalid unicode code point"
  | .controlCharacter => "control character (\\u0000-\\u001F) found while parsing a string"
  | .nameNotString => "key must be a string"
  | .loneSurrogate => "lone leading surrogate in hex escape"
  | .trailingComma => "trailing comma"
  | .trailingCharacters => "trailing characters"
  | .unfinishedSurrogate => "unexpected end of hex escape"
  | .tooDeep => "recursion limit exceeded"

/-- What is wrong, how many bytes were left, and whether the next of them had been looked at. -/
structure Fault where
  cause : Cause
  unread : Nat
  ahead : Bool := false
deriving DecidableEq, Repr

def failBefore {α : Type} (cause : Cause) (rest : List UInt8) : Except Fault α :=
  .error { cause, unread := rest.length }

def failAt {α : Type} (cause : Cause) (rest : List UInt8) : Except Fault α :=
  .error { cause, unread := rest.length - 1 }

def byte (c : Char) : UInt8 := .ofNat c.toNat

def isSpace (b : UInt8) : Bool :=
  b == byte ' ' || b == byte '\n' || b == byte '\t' || b == byte '\r'

def skipSpace (input : List UInt8) : List UInt8 := input.dropWhile isSpace

def isDigit (b : UInt8) : Bool := byte '0' ≤ b && b ≤ byte '9'

def digitValue (b : UInt8) : Nat := b.toNat - 48

def absorb (significand : Nat) : List UInt8 → Nat × Nat
  | [] => (significand, 0)
  | b :: rest =>
    let next := significand * 10 + digitValue b
    if next < twoTo 64 then
      let (whole, used) := absorb next rest
      (whole, used + 1)
    else (significand, 0)

def power (exponent : Nat) : Binary64 :=
  (Binary64.ofRatio false (tenTo exponent) 1).getD (.zero false)

/-- The significand times a power of ten: each of the two is rounded and so is their product or
quotient. A number below the least one is zero. -/
def scale (negative : Bool) (significand : Nat) (exponent : Int) : Option Binary64 := do
  let whole ← Binary64.ofRatio negative significand 1
  if significand = 0 then return whole
  else if 0 ≤ exponent then
    if exponent ≤ 308 then whole.mul? (power exponent.toNat) else none
  else if -308 ≤ exponent then whole.div? (power (-exponent).toNat)
  else
    let part ← whole.div? (power 308)
    if -616 ≤ exponent then part.div? (power (-exponent - 308).toNat)
    else return .zero negative

def finishFloat (negative : Bool) (significand : Nat) (exponent : Int) (rest : List UInt8) :
    Except Fault (Number × List UInt8) :=
  (scale negative significand exponent).elim
    (.error { cause := .numberOutOfRange, unread := rest.length, ahead := true })
    fun x => .ok (.float x, rest)

def exponentDigits (exponent : Nat) : List UInt8 → Except (List UInt8) Nat × List UInt8
  | [] => (.ok exponent, [])
  | b :: rest =>
    if isDigit b then
      let next := exponent * 10 + digitValue b
      if next < twoTo 31 then exponentDigits next rest else (.error rest, rest)
    else (.ok exponent, b :: rest)

def readExponent (negative : Bool) (significand : Nat) (start : Int) (input : List UInt8) :
    Except Fault (Number × List UInt8) :=
  let (down, input) := match input with
    | b :: rest =>
      if b = byte '+' then (false, rest)
      else if b = byte '-' then (true, rest)
      else (false, b :: rest)
    | [] => (false, [])
  match input with
  | [] => failBefore .endInValue []
  | b :: rest =>
    if isDigit b then
      match exponentDigits (digitValue b) rest with
      | (.ok exponent, rest) =>
        finishFloat negative significand (if down then start - exponent else start + exponent) rest
      | (.error rest, _) =>
        if significand ≠ 0 ∧ !down then failBefore .numberOutOfRange rest
        else .ok (.float (.zero negative), rest.dropWhile isDigit)
    else failBefore .invalidNumber rest

def readFloatEnd (negative : Bool) (significand : Nat) (exponent : Int) (input : List UInt8) :
    Except Fault (Number × List UInt8) :=
  match input with
  | b :: rest =>
    if b = byte 'e' ∨ b = byte 'E' then readExponent negative significand exponent rest
    else finishFloat negative significand exponent input
  | [] => finishFloat negative significand exponent input

def readFraction (negative : Bool) (significand : Nat) (exponent : Int) (input : List UInt8) :
    Except Fault (Number × List UInt8) :=
  let (digits, rest) := input.span isDigit
  if digits.isEmpty then
    if rest.isEmpty then failAt .endInValue rest else failAt .invalidNumber rest
  else
    let (whole, used) := absorb significand digits
    readFloatEnd negative whole (exponent - used) rest

/-- A whole number, or the float that it is when it does not fit. Minus zero is a float. -/
def finishInt (negative : Bool) (significand : Nat) (rest : List UInt8) :
    Except Fault (Number × List UInt8) :=
  if !negative then .ok (.int significand, rest)
  else if significand = 0 ∨ twoTo 63 < significand then finishFloat true significand 0 rest
  else .ok (.int (-significand), rest)

def readNumberEnd (negative : Bool) (significand dropped : Nat) (input : List UInt8) :
    Except Fault (Number × List UInt8) :=
  match input with
  | b :: rest =>
    if b = byte '.' then readFraction negative significand dropped rest
    else if b = byte 'e' ∨ b = byte 'E' then readExponent negative significand dropped rest
    else if dropped = 0 then finishInt negative significand input
    else finishFloat negative significand dropped input
  | [] =>
    if dropped = 0 then finishInt negative significand input
    else finishFloat negative significand dropped input

def readNumber (negative : Bool) (input : List UInt8) : Except Fault (Number × List UInt8) :=
  match input with
  | [] => failBefore .endInValue []
  | b :: rest =>
    if b = byte '0' then
      if rest.head?.any isDigit then failAt .invalidNumber rest
      else readNumberEnd negative 0 0 rest
    else if isDigit b then
      let (digits, after) := input.span isDigit
      let (significand, used) := absorb 0 digits
      readNumberEnd negative significand (digits.length - used) after
    else failBefore .invalidNumber rest

def hexValue? (b : UInt8) : Option Nat :=
  if isDigit b then some (b.toNat - 48)
  else if byte 'a' ≤ b ∧ b ≤ byte 'f' then some (b.toNat - 87)
  else if byte 'A' ≤ b ∧ b ≤ byte 'F' then some (b.toNat - 55)
  else none

def readHex (input : List UInt8) : Except Fault (Nat × List UInt8) :=
  match input with
  | a :: b :: c :: d :: rest =>
    match hexValue? a, hexValue? b, hexValue? c, hexValue? d with
    | some a, some b, some c, some d => .ok (((a * 16 + b) * 16 + c) * 16 + d, rest)
    | _, _, _, _ => failBefore .invalidEscape rest
  | _ => failBefore .endInString []

def readCodePoint (input : List UInt8) : Except Fault (Char × List UInt8) := do
  let (high, rest) ← readHex input
  if 0xDC00 ≤ high ∧ high ≤ 0xDFFF then failBefore .loneSurrogate rest
  else if high < 0xD800 ∨ 0xDBFF < high then return (.ofNat high, rest)
  else
    match rest with
    | [] => failBefore .endInString []
    | b :: rest =>
      if b ≠ byte '\\' then failBefore .unfinishedSurrogate rest
      else match rest with
        | [] => failBefore .endInString []
        | b :: rest =>
          if b ≠ byte 'u' then failBefore .unfinishedSurrogate rest
          else
            let (low, rest) ← readHex rest
            if low < 0xDC00 ∨ 0xDFFF < low then failBefore .loneSurrogate rest
            else return (.ofNat (0x10000 + (high - 0xD800) * 0x400 + (low - 0xDC00)), rest)

def simpleEscape? (b : UInt8) : Option Char :=
  if b = byte '"' then some '"'
  else if b = byte '\\' then some '\\'
  else if b = byte '/' then some '/'
  else if b = byte 'b' then some '\x08'
  else if b = byte 'f' then some '\x0c'
  else if b = byte 'n' then some '\n'
  else if b = byte 'r' then some '\r'
  else if b = byte 't' then some '\t'
  else none

def readEscape (input : List UInt8) : Except Fault (Char × List UInt8) :=
  match input with
  | [] => failBefore .endInString []
  | b :: rest =>
    if b = byte 'u' then readCodePoint rest
    else match simpleEscape? b with
      | some c => .ok (c, rest)
      | none => failBefore .invalidEscape rest

/-- The text of collected bytes, the last one first. If they are not the bytes of characters, those
from the first that starts none count as unread. -/
def finishString (collected rest : List UInt8) : Except Fault (String × List UInt8) :=
  match Utf8.decode collected.reverse with
  | .ok text => .ok (.ofList text, rest)
  | .error position =>
    .error { cause := .invalidCharacter, unread := rest.length + (collected.length - position) }

def readString : (fuel : Nat) → (collected input : List UInt8) →
    Except Fault (String × List UInt8)
  | 0, _, input => failBefore .endInString input
  | _ + 1, _, [] => failBefore .endInString []
  | fuel + 1, collected, b :: rest =>
    if b = byte '"' then finishString collected rest
    else if b = byte '\\' then do
      let (c, rest) ← readEscape rest
      readString fuel ((Utf8.encodeChar c).reverse ++ collected) rest
    else if b < 0x20 then failBefore .controlCharacter rest
    else readString fuel (b :: collected) rest

def readWord : List UInt8 → List UInt8 → Except Fault (List UInt8)
  | [], input => .ok input
  | _ :: _, [] => failBefore .endInValue []
  | expected :: word, b :: rest =>
    if b = expected then readWord word rest else failBefore .expectedWord rest

def word (text : String) : List UInt8 := text.toList.map byte

mutual

/-- A value. `depth` bounds the nesting and `fuel` the number of calls. -/
def readValue : (fuel depth : Nat) → List UInt8 → Except Fault (Value × List UInt8)
  | 0, _, input => failAt .endInValue input
  | fuel + 1, depth, input =>
    match skipSpace input with
    | [] => failAt .endInValue []
    | b :: rest =>
      if b = byte 'n' then (readWord (word "ull") rest).map (Value.null, ·)
      else if b = byte 't' then (readWord (word "rue") rest).map (Value.bool true, ·)
      else if b = byte 'f' then (readWord (word "alse") rest).map (Value.bool false, ·)
      else if b = byte '-' then (readNumber true rest).map fun (n, rest) => (.number n, rest)
      else if isDigit b then
        (readNumber false (b :: rest)).map fun (n, rest) => (.number n, rest)
      else if b = byte '"' then
        (readString fuel [] rest).map fun (text, rest) => (.string text, rest)
      else if b = byte '[' then
        if depth ≤ 1 then failAt .tooDeep (b :: rest)
        else
          match skipSpace rest with
          | [] => failAt .endInList []
          | c :: after =>
            if c = byte ']' then .ok (.array [], after)
            else (readItems fuel (depth - 1) (c :: after)).map fun (items, rest) =>
              (.array items, rest)
      else if b = byte '{' then
        if depth ≤ 1 then failAt .tooDeep (b :: rest)
        else
          match skipSpace rest with
          | [] => failAt .endInObject []
          | c :: after =>
            if c = byte '}' then .ok (.object [], after)
            else (readMembers fuel (depth - 1) [] (c :: after)).map fun (members, rest) =>
              (.object members, rest)
      else failAt .expectedValue (b :: rest)

def readItems : (fuel depth : Nat) → List UInt8 → Except Fault (List Value × List UInt8)
  | 0, _, input => failAt .endInValue input
  | fuel + 1, depth, input => do
    let (item, rest) ← readValue fuel depth input
    match skipSpace rest with
    | [] => failAt .endInList []
    | b :: rest =>
      if b = byte ']' then return ([item], rest)
      else if b = byte ',' then
        match skipSpace rest with
        | [] => failAt .endInValue []
        | c :: after =>
          if c = byte ']' then failAt .trailingComma (c :: after)
          else
            let (items, rest) ← readItems fuel depth (c :: after)
            return (item :: items, rest)
      else failAt .expectedListSeparator (b :: rest)

def readMembers : (fuel depth : Nat) → List (String × Value) → List UInt8 →
    Except Fault (List (String × Value) × List UInt8)
  | 0, _, _, input => failAt .endInValue input
  | fuel + 1, depth, members, input =>
    match input with
    | [] => failAt .endInValue []
    | b :: rest =>
      if b ≠ byte '"' then failAt .nameNotString (b :: rest)
      else do
        let (name, rest) ← readString fuel [] rest
        match skipSpace rest with
        | [] => failAt .endInObject []
        | b :: rest =>
          if b ≠ byte ':' then failAt .expectedColon (b :: rest)
          else do
            let (value, rest) ← readValue fuel depth rest
            let members := Value.insertMember name value members
            match skipSpace rest with
            | [] => failAt .endInObject []
            | b :: rest =>
              if b = byte '}' then return (members, rest)
              else if b = byte ',' then
                match skipSpace rest with
                | [] => failAt .endInValue []
                | c :: after =>
                  if c = byte '}' then failAt .trailingComma (c :: after)
                  else readMembers fuel depth members (c :: after)
              else failAt .expectedObjectSeparator (b :: rest)

end

def readDocument (input : List UInt8) : Except Fault Value := do
  let (value, rest) ← readValue (2 * input.length + 2) 128 input
  match skipSpace rest with
  | [] => return value
  | b :: rest => failAt .trailingCharacters (b :: rest)

/-- A reader of a stream has taken every byte that it looked at, a reader of a text knows its place
without that. The two differ only where a number turns out to be too large. -/
inductive Input
  | stream
  | text
deriving DecidableEq, Repr

structure Error where
  cause : Cause
  line : Nat
  column : Nat
deriving DecidableEq, Repr

def Error.message (e : Error) : String :=
  e.cause.message ++ " at line " ++ e.line.repr ++ " column " ++ e.column.repr

def position (bytes : List UInt8) : Nat × Nat :=
  bytes.foldl (fun (line, column) b => if b = byte '\n' then (line + 1, 0) else (line, column + 1))
    (1, 0)

def Fault.toError (kind : Input) (input : List UInt8) (fault : Fault) : Error :=
  let unread := match kind with
    | .stream => if fault.ahead then fault.unread - 1 else fault.unread
    | .text => fault.unread
  let (line, column) := position (input.take (input.length - unread))
  { cause := fault.cause, line, column }

def read (kind : Input) (input : List UInt8) : Except Error Value :=
  (readDocument input).mapError (·.toError kind input)

end Reconcile.Json
