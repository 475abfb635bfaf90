import Reconcile.Document.Yaml.Cursor

namespace Reconcile.Yaml

/-- The blanks and breaks between two words: blanks before a break do not count. -/
structure Gap where
  spaces : List Char := []
  onNewLine : Bool := false
  firstBreak : List Char := []
  moreBreaks : List Char := []

def Gap.text (gap : Gap) : List Char :=
  if !gap.onNewLine then gap.spaces
  else if gap.firstBreak = ['\n'] then
    if gap.moreBreaks.isEmpty then [' '] else gap.moreBreaks
  else gap.firstBreak ++ gap.moreBreaks

def Gap.addBreak (gap : Gap) (text : List Char) : Gap :=
  if gap.onNewLine then { gap with moreBreaks := gap.moreBreaks ++ text }
  else { gap with spaces := [], onNewLine := true, firstBreak := text }

def readGap (indent : Nat) : (fuel : Nat) → Gap → Cursor → Option (Gap × Cursor)
  | 0, gap, c => some (gap, c)
  | fuel + 1, gap, c =>
    match c.peek with
    | none => some (gap, c)
    | some x =>
      if isSpaceOrTab x then
        if !gap.onNewLine then
          readGap indent fuel { gap with spaces := gap.spaces ++ [x] } (c.skip 1)
        else if x == '\t' && c.column < indent then none
        else readGap indent fuel gap (c.skip 1)
      else if isBreak x then
        let (text, c) := c.readBreak
        readGap indent fuel (gap.addBreak text) c
      else some (gap, c)

def hexDigit? (c : Char) : Option Nat :=
  if c.isDigit then some (c.toNat - '0'.toNat)
  else if 'a' ≤ c ∧ c ≤ 'f' then some (c.toNat - 'a'.toNat + 10)
  else if 'A' ≤ c ∧ c ≤ 'F' then some (c.toNat - 'A'.toNat + 10)
  else none

def readCode (count : Nat) (c : Cursor) : Option (Char × Cursor) := do
  let digits := c.rest.take count
  guard (digits.length = count)
  let code ← digits.foldlM (fun n d => (hexDigit? d).map (n * 16 + ·)) 0
  if code.isValidChar then some (.ofNat code, c.skip count) else none

def escapes : List (Char × Char) :=
  [('0', '\x00'), ('a', '\x07'), ('b', '\x08'), ('t', '\t'), ('\t', '\t'), ('n', '\n'),
   ('v', '\x0b'), ('f', '\x0c'), ('r', '\r'), ('e', '\x1b'), (' ', ' '), ('"', '"'), ('/', '/'),
   ('\\', '\\'), ('N', '\u0085'), ('_', '\u00a0'), ('L', '\u2028'), ('P', '\u2029')]

def readEscape (c : Cursor) : Option (Char × Cursor) := do
  match ← c.peek with
  | 'x' => readCode 2 (c.skip 1)
  | 'u' => readCode 4 (c.skip 1)
  | 'U' => readCode 8 (c.skip 1)
  | x => return (← escapes.lookup x, c.skip 1)

/-- What follows an opening quote, up to and with the closing one; `text` holds the characters so
far, the last one first. Only double quotes know escapes, in single quotes a quote is doubled. -/
def readQuotedFrom (quote : Char) : (fuel : Nat) → (text : List Char) → Cursor →
    Option (List Char × Cursor)
  | 0, _, _ => none
  | fuel + 1, text, c => do
    guard !c.atDocumentMark
    let x ← c.peek
    if x == quote then
      if quote == '\'' && c.peekAt 1 == some quote then
        readQuotedFrom quote fuel (quote :: text) (c.skip 2)
      else some (text.reverse, c.skip 1)
    else if endsWord (some x) then
      let (gap, c) ← readGap 0 c.rest.length {} c
      readQuotedFrom quote fuel (gap.text.reverse ++ text) c
    else if quote == '"' && x == '\\' then
      if (c.peekAt 1).any isBreak then
        let c := (c.skip 1).skipBreak
        let (gap, c) ← readGap 0 c.rest.length { onNewLine := true } c
        readQuotedFrom quote fuel (gap.text.reverse ++ text) c
      else
        let (y, c) ← readEscape (c.skip 1)
        readQuotedFrom quote fuel (y :: text) c
    else readQuotedFrom quote fuel (x :: text) (c.skip 1)

def readQuoted (quote : Char) (c : Cursor) : Option (List Char × Cursor) :=
  readQuotedFrom quote (c.rest.length + 1) [] (c.skip 1)

def isFlowMark (c : Char) : Bool := c == ',' || c == '[' || c == ']' || c == '{' || c == '}'

/-- A word of a plain scalar. Between brackets it ends at a comma or a bracket, and a colon may not
stand before one. -/
def readPlainWord (flow : Bool) : (fuel : Nat) → (word : List Char) → Cursor →
    Option (List Char × Cursor)
  | 0, word, c => some (word.reverse, c)
  | fuel + 1, word, c =>
    match c.peek with
    | none => some (word.reverse, c)
    | some x =>
      if endsWord (some x) then some (word.reverse, c)
      else if flow && x == ':' && (c.peekAt 1).any fun y => isFlowMark y || y == '?' then none
      else if (x == ':' && endsWord (c.peekAt 1)) || (flow && isFlowMark x) then
        some (word.reverse, c)
      else readPlainWord flow fuel (x :: word) (c.skip 1)

/-- The words of a plain scalar and whether a line ended behind the last. `text` holds the
characters so far, the last one first, and `gap` what follows them. -/
def readPlainFrom (flow : Bool) (indent : Nat) : (fuel : Nat) → (text : List Char) → Gap → Cursor →
    Option (List Char × Bool × Cursor)
  | 0, text, gap, c => some (text.reverse, gap.onNewLine, c)
  | fuel + 1, text, gap, c => do
    if c.atDocumentMark || c.peek == some '#' then return (text.reverse, gap.onNewLine, c)
    let (word, c) ← readPlainWord flow c.rest.length [] c
    let (text, gap) :=
      if word.isEmpty then (text, gap) else (word.reverse ++ gap.text.reverse ++ text, {})
    if !(c.peek.any fun x => endsWord (some x)) then return (text.reverse, gap.onNewLine, c)
    let (gap, c) ← readGap indent c.rest.length gap c
    if !flow && c.column < indent then return (text.reverse, gap.onNewLine, c)
    readPlainFrom flow indent fuel text gap c

def readPlain (flow : Bool) (indent : Nat) (c : Cursor) : Option (List Char × Bool × Cursor) :=
  readPlainFrom flow indent (c.rest.length + 1) [] {} c

inductive Chomping
  | clip
  | strip
  | keep
deriving DecidableEq, Repr

/-- The indentation and the blank lines before a line of a block: the widest indentation, the
breaks, and the place where the line starts. An `indent` of 0 is still unknown. -/
def readBlankLines (indent : Nat) : (fuel widest : Nat) → (breaks : List Char) → Cursor →
    Option (Nat × List Char × Cursor)
  | 0, widest, breaks, c => some (widest, breaks, c)
  | fuel + 1, widest, breaks, c =>
    let spaces := (c.rest.takeWhile (· == ' ')).length
    let c := c.skip (if indent = 0 then spaces else min spaces (indent - c.column))
    let widest := max widest c.column
    if (indent = 0 || c.column < indent) && c.peek == some '\t' then none
    else if c.peek.any isBreak then
      let (text, c) := c.readBreak
      readBlankLines indent fuel widest (breaks ++ text) c
    else some (widest, breaks, c)

structure BlockText where
  text : List Char := []
  lineBreak : List Char := []
  blankLines : List Char
  indented : Bool := false

/-- Adds a line. In a folded block the break between two lines that start with no blank is dropped,
or becomes a space if no blank line stands between them. -/
def BlockText.addLine (block : BlockText) (literal : Bool) (line : List Char) : BlockText :=
  let indented := line.head?.any isSpaceOrTab
  let lineBreak :=
    if literal || block.lineBreak ≠ ['\n'] || block.indented || indented then block.lineBreak
    else if block.blankLines.isEmpty then [' ']
    else []
  { text := block.text ++ lineBreak ++ block.blankLines ++ line, blankLines := [], indented }

def BlockText.finish (block : BlockText) : Chomping → List Char
  | .strip => block.text
  | .clip => block.text ++ block.lineBreak
  | .keep => block.text ++ block.lineBreak ++ block.blankLines

def readBlockLines (literal : Bool) (indent : Nat) : (fuel : Nat) → BlockText → Cursor →
    Option (BlockText × Cursor)
  | 0, block, c => some (block, c)
  | fuel + 1, block, c => do
    if c.column ≠ indent || c.rest.isEmpty then return (block, c)
    let (line, c) := c.readWhile (!isBreak ·)
    let (lineBreak, c) := c.readBreak
    let (_, blankLines, c) ← readBlankLines indent (c.rest.length + 1) 0 [] c
    readBlockLines literal indent fuel
      { block.addLine literal line with lineBreak, blankLines } c

def chomping? : Option Char → Option Chomping
  | some '+' => some .keep
  | some '-' => some .strip
  | _ => none

def readIndicator (c : Cursor) : Option (Nat × Cursor) :=
  match c.peek with
  | some x =>
    if x == '0' then none
    else if x.isDigit then some (x.toNat - '0'.toNat, c.skip 1)
    else some (0, c)
  | none => some (0, c)

def readHeader (c : Cursor) : Option (Chomping × Nat × Cursor) := do
  match chomping? c.peek with
  | some chomping =>
    let (width, c) ← readIndicator (c.skip 1)
    return (chomping, width, c)
  | none =>
    let (width, c) ← readIndicator c
    match chomping? c.peek with
    | some chomping => return (chomping, width, c.skip 1)
    | none => return (.clip, width, c)

def readBlock (literal : Bool) (parent : Int) (c : Cursor) : Option (List Char × Cursor) := do
  let (chomping, width, c) ← readHeader (c.skip 1)
  let c ← c.skipLineEnd
  let given := if width = 0 then 0 else (max parent 0).toNat + width
  let (widest, blankLines, c) ← readBlankLines given (c.rest.length + 1) 0 [] c
  let indent := if given = 0 then max widest (max (parent + 1).toNat 1) else given
  let (block, c) ← readBlockLines literal indent (c.rest.length + 1) { blankLines } c
  return (block.finish chomping, c)

end Reconcile.Yaml
