import Reconcile.Query.Parser

namespace Reconcile.Query.Cursor

open Json (byte)
open Text

inductive Trap
  /-- The cursor would leave the text. -/
  | outside
  /-- A piece would not begin and end between characters. -/
  | split
  /-- A round of a loop did not move the cursor ahead. -/
  | idle
deriving DecidableEq, Repr

inductive Halt
  | fault (error : Error)
  | trap (trap : Trap)
deriving DecidableEq, Repr

abbrev Reader (α : Type) := StateT Nat (Except Halt) α

variable {σ α : Type} (text : List Char)

def peekAt (distance : Nat) : Reader (Option UInt8) := do
  return (Utf8.encode text)[(← get) + distance]?

def peek : Reader (Option UInt8) := peekAt text 0

def advance (width : Nat) : Reader Unit := do
  let cursor ← get
  if cursor + width ≤ Utf8.size text then set (cursor + width) else throw (.trap .outside)

def faultAt (place : Nat) (reason : Reason) : Reader α :=
  throw (.fault { input := .ofList text, offset := place, reason })

def fault (reason : Reason) : Reader α := do faultAt text (← get) reason

def isBoundary (place : Nat) : Bool :=
  match (Utf8.encode text)[place]? with
  | some b => (Utf8.continuation? b).isNone
  | none => place == Utf8.size text

def slice (first last : Nat) : Reader (List Char) :=
  if first ≤ last ∧ isBoundary text first ∧ isBoundary text last then
    match Utf8.decode (((Utf8.encode text).take last).drop first) with
    | .ok piece => return piece
    | .error _ => throw (.trap .split)
  else throw (.trap .split)

inductive Round (σ α : Type)
  | again (state : σ)
  | leave (result : α)

/-- Rounds from a cursor on. A loop that goes on must have moved ahead inside the text. -/
def loopFrom (round : σ → Reader (Round σ α)) (state : σ) (cursor : Nat) :
    Except Halt (α × Nat) :=
  match round state cursor with
  | .error halt => .error halt
  | .ok (.leave result, next) => .ok (result, next)
  | .ok (.again state, next) =>
    if cursor < next ∧ next ≤ Utf8.size text then loopFrom round state next
    else .error (.trap .idle)
termination_by Utf8.size text - cursor

def loop (round : σ → Reader (Round σ α)) (state : σ) : Reader α := loopFrom text round state

def skipRound (go : UInt8 → Bool) (_ : Unit) : Reader (Round Unit Unit) := do
  match ← peek text with
  | none => return .leave ()
  | some b =>
    if go b then
      advance text 1
      return .again ()
    else return .leave ()

def skipWhile (go : UInt8 → Bool) : Reader Unit := loop text (skipRound text go) ()

def skipSpaces : Reader Unit := skipWhile text (· == byte ' ')

def expect (c : Char) : Reader Unit := do
  if (← peek text) = some (byte c) then advance text 1 else fault text (.expected c)

def run (ends : List Char) : Reader String := do
  let start ← get
  skipWhile text fun b => !(ends.map byte).contains b
  let stop ← get
  if start = stop then fault text .expectedName
  else
    let name ← slice text start stop
    return .ofList name

def name : Reader String := run text ['.', '[']

def filterName : Reader String := run text ['.', '[', ' ', ')', '=', '!', '<', '>']

/-- One byte between quotes, or two for a backslash and what it takes. `taken` holds the characters
up to the place `start`; those from there on are still to be cut out. -/
def quotedRound (quote : UInt8) : List Char × Nat → Reader (Round (List Char × Nat) String)
  | (taken, start) => do
    match ← peek text with
    | none => fault text .openQuote
    | some b =>
      if b = byte '\\' then
        let run ← slice text start (← get)
        advance text 1
        let ahead ← slice text (← get) (Utf8.size text)
        match ahead.head? with
        | none => fault text .openQuote
        | some escaped =>
          advance text (Utf8.width escaped)
          return .again (taken ++ run ++ [escaped], ← get)
      else if b = quote then
        let run ← slice text start (← get)
        advance text 1
        return .leave (.ofList (taken ++ run))
      else
        advance text 1
        return .again (taken, start)

def quoted (quote : UInt8) : Reader String := do
  advance text 1
  loop text (quotedRound text quote) ([], ← get)

def peekQuote : Reader (Option UInt8) := do
  return (← peek text).filter fun b => b == byte '\'' || b == byte '"'

def signed64 (written : List Char) : Except Reason Int :=
  match written with
  | '-' :: digits =>
    if decimalValue digits ≤ twoTo 63 then .ok (-decimalValue digits) else .error .indexTooSmall
  | digits =>
    if decimalValue digits < twoTo 63 then .ok (decimalValue digits) else .error .indexTooLarge

def sign : Reader Unit := do
  if (← peek text) = some (byte '-') then advance text 1 else return ()

def integer : Reader (Option Int) := do
  let start ← get
  sign text
  let digitsStart ← get
  skipWhile text Json.isDigit
  let stop ← get
  if digitsStart = stop then
    if start = stop then return none else fault text .expectedDigits
  else
    match signed64 (← slice text start stop) with
    | .ok n => return some n
    | .error reason => faultAt text start reason

def sliceEnd (start : Option Int) : Reader Selector := do
  skipSpaces text
  let stop ← integer text
  skipSpaces text
  if (← peek text) = some (byte ':') then fault text .sliceStep else return .slice start stop

def indexOrSlice : Reader Selector := do
  let start ← integer text
  skipSpaces text
  if (← peek text) = some (byte ':') then
    advance text 1
    sliceEnd text start
  else
    match start with
    | some position => return .index position
    | none => fault text .expectedItem

def operator? (first second : Option UInt8) : Option (Comparison × Nat) :=
  if first = some (byte '=') ∧ second = some (byte '=') then some (.eq, 2)
  else if first = some (byte '!') ∧ second = some (byte '=') then some (.ne, 2)
  else if first = some (byte '<') ∧ second = some (byte '=') then some (.le, 2)
  else if first = some (byte '>') ∧ second = some (byte '=') then some (.ge, 2)
  else if first = some (byte '<') then some (.lt, 1)
  else if first = some (byte '>') then some (.gt, 1)
  else none

def comparison : Reader Comparison := do
  match operator? (← peek text) (← peekAt text 1) with
  | some (comparison, width) =>
    advance text width
    return comparison
  | none => fault text .expectedOperator

def literal : Reader Literal := do
  match ← peekQuote text with
  | some quote =>
    let value ← quoted text quote
    return .string value
  | none =>
    let start ← get
    skipWhile text fun b => b != byte ' ' && b != byte ')'
    match bareLiteral? (← slice text start (← get)) with
    | some literal => return literal
    | none => faultAt text start .expectedLiteral

def bracketedName : Reader String := do
  skipSpaces text
  match ← peekQuote text with
  | some quote =>
    let name ← quoted text quote
    skipSpaces text
    expect text ']'
    return name
  | none => fault text .expectedFilterName

def fieldRound (names : List String) : Reader (Round (List String) (List String)) := do
  let next ← peek text
  if next = some (byte '.') then
    advance text 1
    let name ← filterName text
    return .again (names ++ [name])
  else if next = some (byte '[') then
    advance text 1
    let name ← bracketedName text
    return .again (names ++ [name])
  else return .leave names

def field : Reader (List String) := loop text (fieldRound text) []

def test : Reader (Option (Comparison × Literal)) := do
  if (← peek text) = some (byte ')') then return none
  else
    let comparison ← comparison text
    skipSpaces text
    let literal ← literal text
    skipSpaces text
    return some (comparison, literal)

def filter : Reader Selector := do
  advance text 1
  skipSpaces text
  expect text '('
  skipSpaces text
  expect text '@'
  let field ← field text
  skipSpaces text
  let test ← test text
  expect text ')'
  return .filter { field, test }

def bareItem : Reader Selector := do
  let next ← peek text
  if next = some (byte '*') then
    advance text 1
    return .wildcard
  else if next = some (byte '?') then filter text
  else if next = some (byte '(') then fault text .script
  else if next = none then fault text .openBracket
  else indexOrSlice text

def item : Reader Selector := do
  match ← peekQuote text with
  | some quote =>
    let name ← quoted text quote
    return .name name
  | none => bareItem text

def bracketRound (items : List Selector) : Reader (Round (List Selector) (List Selector)) := do
  skipSpaces text
  let item ← item text
  skipSpaces text
  let next ← peek text
  if next = some (byte ',') then
    advance text 1
    return .again (items ++ [item])
  else if next = some (byte ']') then
    advance text 1
    return .leave (items ++ [item])
  else if next = none then fault text .openBracket
  else fault text .expectedSeparator

def bracket : Reader Selector := do
  advance text 1
  let items ← loop text (bracketRound text) []
  return .ofItems items

def dotted : Reader Selector := do
  if (← peek text) = some (byte '*') then
    advance text 1
    return .wildcard
  else
    let name ← name text
    return .name name

def descendants : Reader Selector := do
  if (← peek text) = some (byte '[') then bracket text else dotted text

def segmentRound (segments : List Segment) : Reader (Round (List Segment) (List Segment)) := do
  let next ← peek text
  let second ← peekAt text 1
  if next = some (byte '.') ∧ second = some (byte '.') then
    advance text 2
    let selector ← descendants text
    return .again (segments ++ [.descendant selector])
  else if next = some (byte '.') then
    advance text 1
    let selector ← dotted text
    return .again (segments ++ [.child selector])
  else if next = some (byte '[') then
    let selector ← bracket text
    return .again (segments ++ [.child selector])
  else if next = none then return .leave segments
  else
    let ahead ← slice text (← get) (Utf8.size text)
    fault text (.unexpected (ahead.head?.getD '?'))

def path : Reader Path := do
  if (← peek text) = some (byte '$') then
    advance text 1
    let segments ← loop text (segmentRound text) []
    return { segments }
  else fault text .noRoot

/-- The path that a text denotes, read from the first byte of the trimmed text on. -/
def parse (text : String) : Except Halt Path :=
  (path (Text.trim text.toList) 0).map (·.1)

end Reconcile.Query.Cursor
