import Reconcile.Document.Json.Reader
import Reconcile.Query.Basic
import Reconcile.Query.Error
import Reconcile.Text.Blank
import Reconcile.Text.Digits

namespace Reconcile.Query

open Text

abbrev Parse (α : Type) := List Char → Except Stop (α × List Char)

def stop {α : Type} (reason : Reason) (rest : List Char) : Except Stop α := .error { reason, rest }

def skipSpaces (input : List Char) : List Char := input.dropWhile (· == ' ')

def expect (c : Char) (input : List Char) : Except Stop (List Char) :=
  match input with
  | d :: rest => if d = c then .ok rest else stop (.expected c) input
  | [] => stop (.expected c) input

def readRun (ends : List Char) (input : List Char) : Except Stop (String × List Char) :=
  match input.span fun c => !ends.contains c with
  | ([], rest) => stop .expectedName rest
  | (name, rest) => .ok (.ofList name, rest)

def readName : Parse String := readRun ['.', '[']

def readFilterName : Parse String := readRun ['.', '[', ' ', ')', '=', '!', '<', '>']

/-- What follows an opening quote; `name` holds the characters so far, the last one first. A
backslash takes the next character as it is. -/
def readQuoted (quote : Char) (name : List Char) : Parse String
  | [] => stop .openQuote []
  | ['\\'] => stop .openQuote []
  | '\\' :: c :: rest => readQuoted quote (c :: name) rest
  | c :: rest =>
    if c = quote then .ok (.ofList name.reverse, rest) else readQuoted quote (c :: name) rest

def isQuote (c : Char) : Bool := c == '\'' || c == '"'

def readInteger (input : List Char) : Except Stop (Option Int × List Char) :=
  let (negative, unsigned) := match input with
    | '-' :: rest => (true, rest)
    | _ => (false, input)
  match unsigned.span Char.isDigit with
  | ([], rest) => if negative then stop .expectedDigits rest else .ok (none, rest)
  | (digits, rest) =>
    let n := decimalValue digits
    if negative then
      if n ≤ twoTo 63 then .ok (some (-n), rest) else stop .indexTooSmall input
    else if n < twoTo 63 then .ok (some n, rest) else stop .indexTooLarge input

def readIndexOrSlice (input : List Char) : Except Stop (Selector × List Char) := do
  let (start, rest) ← readInteger input
  match skipSpaces rest, start with
  | ':' :: rest, _ =>
    let (end?, rest) ← readInteger (skipSpaces rest)
    match skipSpaces rest with
    | ':' :: rest => stop .sliceStep (':' :: rest)
    | rest => return (.slice start end?, rest)
  | rest, some position => return (.index position, rest)
  | rest, none => stop .expectedItem rest

def readComparison : Parse Comparison
  | '=' :: '=' :: rest => .ok (.eq, rest)
  | '!' :: '=' :: rest => .ok (.ne, rest)
  | '<' :: '=' :: rest => .ok (.le, rest)
  | '>' :: '=' :: rest => .ok (.ge, rest)
  | '<' :: rest => .ok (.lt, rest)
  | '>' :: rest => .ok (.gt, rest)
  | rest => stop .expectedOperator rest

/-- The literal that a JSON text denotes, if it is `null`, a boolean or a number. -/
def bareLiteral? (text : List Char) : Option Literal :=
  match Json.read .text (Utf8.encode text) with
  | .ok .null => some .null
  | .ok (.bool b) => some (.bool b)
  | .ok (.number n) => some (.number n)
  | _ => none

def readLiteral (input : List Char) : Except Stop (Literal × List Char) :=
  let word := input.span fun c => c != ' ' && c != ')'
  let bare := match bareLiteral? word.1 with
    | some literal => .ok (literal, word.2)
    | none => stop .expectedLiteral input
  match input with
  | c :: rest =>
    if isQuote c then (readQuoted c [] rest).map fun (text, rest) => (.string text, rest) else bare
  | [] => bare

def readField : (fuel : Nat) → Parse (List String)
  | 0, input => .ok ([], input)
  | fuel + 1, '.' :: rest => do
    let (name, rest) ← readFilterName rest
    let (names, rest) ← readField fuel rest
    return (name :: names, rest)
  | fuel + 1, '[' :: rest => do
    match skipSpaces rest with
    | c :: inner =>
      if isQuote c then
        let (name, rest) ← readQuoted c [] inner
        let rest ← expect ']' (skipSpaces rest)
        let (names, rest) ← readField fuel rest
        return (name :: names, rest)
      else stop .expectedFilterName (c :: inner)
    | [] => stop .expectedFilterName []
  | _ + 1, input => .ok ([], input)

def readTest (input : List Char) :
    Except Stop (Option (Comparison × Literal) × List Char) :=
  match skipSpaces input with
  | ')' :: rest => .ok (none, rest)
  | input => do
    let (comparison, rest) ← readComparison input
    let (literal, rest) ← readLiteral (skipSpaces rest)
    let rest ← expect ')' (skipSpaces rest)
    return (some (comparison, literal), rest)

def readFilter (input : List Char) : Except Stop (Selector × List Char) := do
  let rest ← expect '(' (skipSpaces input)
  let rest ← expect '@' (skipSpaces rest)
  let (field, rest) ← readField rest.length rest
  let (test, rest) ← readTest rest
  return (.filter { field, test }, rest)

def readItem (input : List Char) : Except Stop (Selector × List Char) :=
  match input with
  | [] => stop .openBracket []
  | '*' :: rest => .ok (.wildcard, rest)
  | '?' :: rest => readFilter rest
  | '(' :: rest => stop .script ('(' :: rest)
  | c :: rest =>
    if isQuote c then (readQuoted c [] rest).map fun (name, rest) => (.name name, rest)
    else readIndexOrSlice input

def readItems : (fuel : Nat) → Parse (List Selector)
  | 0, input => stop .openBracket input
  | fuel + 1, input => do
    let (item, rest) ← readItem (skipSpaces input)
    match skipSpaces rest with
    | ',' :: rest =>
      let (items, rest) ← readItems fuel rest
      return (item :: items, rest)
    | ']' :: rest => return ([item], rest)
    | [] => stop .openBracket []
    | rest => stop .expectedSeparator rest

def Selector.ofItems : List Selector → Selector
  | [item] => item
  | items => .union items

def readBracket (input : List Char) : Except Stop (Selector × List Char) :=
  (readItems (input.length + 1) input).map fun (items, rest) => (.ofItems items, rest)

def readDotted (input : List Char) : Except Stop (Selector × List Char) :=
  match input with
  | '*' :: rest => .ok (.wildcard, rest)
  | _ => (readName input).map fun (name, rest) => (.name name, rest)

def readSegment (input : List Char) : Except Stop (Segment × List Char) :=
  match input with
  | '.' :: '.' :: '[' :: rest =>
    (readBracket rest).map fun (selector, rest) => (.descendant selector, rest)
  | '.' :: '.' :: rest =>
    (readDotted rest).map fun (selector, rest) => (.descendant selector, rest)
  | '.' :: rest => (readDotted rest).map fun (selector, rest) => (.child selector, rest)
  | '[' :: rest => (readBracket rest).map fun (selector, rest) => (.child selector, rest)
  | c :: rest => stop (.unexpected c) (c :: rest)
  | [] => stop .expectedName []

/-- The segments up to the end. Each of them takes at least one character. -/
def readSegments : (fuel : Nat) → List Char → Except Stop (List Segment)
  | _, [] => .ok []
  | 0, rest => stop .expectedName rest
  | fuel + 1, input => do
    let (segment, rest) ← readSegment input
    let segments ← readSegments fuel rest
    return segment :: segments

def readPath (input : List Char) : Except Stop Path :=
  match input with
  | '$' :: rest => (readSegments rest.length rest).map fun segments => { segments }
  | _ => stop .noRoot input

end Query

/-- The path that a text denotes; blanks around it do not count. -/
def Path.parse (text : String) : Except Query.Error Path :=
  let input := Text.trim text.toList
  (Query.readPath input).mapError (·.toError input)

end Reconcile
