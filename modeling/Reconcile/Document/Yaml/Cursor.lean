import Reconcile.Text.Utf8

namespace Reconcile.Yaml

open Text

def isSpaceOrTab (c : Char) : Bool := c == ' ' || c == '\t'

def isBreak (c : Char) : Bool :=
  c == '\n' || c == '\r' || c == '\u0085' || c == '\u2028' || c == '\u2029'

def endsWord : Option Char → Bool
  | none => true
  | some c => isSpaceOrTab c || isBreak c

def endsLine : Option Char → Bool
  | none => true
  | some c => isBreak c

def isNameChar (c : Char) : Bool := c.isAlphanum || c == '-' || c == '_'

def isAllowed (c : Char) : Bool :=
  let n := c.toNat
  n == 0x9 || n == 0xA || n == 0xD || (0x20 ≤ n && n ≤ 0x7E) || n == 0x85
    || (0xA0 ≤ n && n ≤ 0xFFFD) || 0x10000 ≤ n

structure Cursor where
  rest : List Char
  index : Nat := 0
  line : Nat := 0
  column : Nat := 0

namespace Cursor

def peek (c : Cursor) : Option Char := c.rest.head?

def peekAt (c : Cursor) (n : Nat) : Option Char := c.rest[n]?

def skip (c : Cursor) (n : Nat) : Cursor :=
  { c with
    rest := c.rest.drop n
    index := c.index + Utf8.size (c.rest.take n)
    column := c.column + n }

def readWhile (p : Char → Bool) (c : Cursor) : List Char × Cursor :=
  let run := c.rest.takeWhile p
  (run, c.skip run.length)

def skipWhile (p : Char → Bool) (c : Cursor) : Cursor := (c.readWhile p).2

/-- What a line break stands for in a scalar, and the start of the next line. At another character
nothing happens. -/
def readBreak (c : Cursor) : List Char × Cursor :=
  let behind (n : Nat) := { c.skip n with line := c.line + 1, column := 0 }
  match c.rest with
  | '\r' :: '\n' :: _ => (['\n'], behind 2)
  | '\n' :: _ | '\r' :: _ | '\u0085' :: _ => (['\n'], behind 1)
  | '\u2028' :: _ => (['\u2028'], behind 1)
  | '\u2029' :: _ => (['\u2029'], behind 1)
  | _ => ([], c)

def skipBreak (c : Cursor) : Cursor := c.readBreak.2

def skipLineEnd (c : Cursor) : Option Cursor :=
  let c := c.skipWhile isSpaceOrTab
  let c := if c.peek == some '#' then c.skipWhile (!isBreak ·) else c
  if endsLine c.peek then some c.skipBreak else none

def atMark (c : Cursor) (mark : Char) : Bool :=
  c.column == 0 && c.rest.take 3 == [mark, mark, mark] && endsWord (c.peekAt 3)

def atDocumentMark (c : Cursor) : Bool := c.atMark '-' || c.atMark '.'

end Cursor

end Reconcile.Yaml
