import Reconcile.Document.Yaml.Token

namespace Reconcile.Yaml

/-- A place where a key may start, if a colon follows on its line within 1024 bytes. -/
structure Candidate where
  number : Nat
  required : Bool
  index : Nat
  line : Nat
  column : Nat

/-- The reader between two tokens. A key is known only by the colon behind it: its place is a
candidate until then, and the colon puts the key token there. -/
structure Lexer where
  cursor : Cursor
  tokens : List Token := []
  count : Nat := 0
  /-- The column of the innermost block collection and those around it, -1 outside of all. -/
  indent : Int := -1
  outerIndents : List Int := []
  keyAllowed : Bool := true
  candidate : Option Candidate := none
  outerCandidates : List (Option Candidate) := []

namespace Lexer

def inFlow (s : Lexer) : Bool := !s.outerCandidates.isEmpty

def push (s : Lexer) (token : Token) : Lexer :=
  { s with tokens := token :: s.tokens, count := s.count + 1 }

def insertAt (s : Lexer) (number : Nat) (token : Token) : Lexer :=
  let later := s.count - number
  { s with
    tokens := s.tokens.take later ++ token :: s.tokens.drop later
    count := s.count + 1 }

/-- Past blanks, comments and line breaks. A tab may not stand where a key may start. -/
def skipToToken : (fuel : Nat) → Lexer → Lexer
  | 0, s => s
  | fuel + 1, s =>
    let c := s.cursor
    let c := if c.column = 0 ∧ c.peek = some '\ufeff' then c.skip 1 else c
    let tabs := s.inFlow || !s.keyAllowed
    let c := c.skipWhile fun x => x == ' ' || (tabs && x == '\t')
    let c := if c.peek == some '#' then c.skipWhile (!isBreak ·) else c
    if c.peek.any isBreak then
      skipToToken fuel
        { s with cursor := c.skipBreak, keyAllowed := s.keyAllowed || !s.inFlow }
    else { s with cursor := c }

def dropCandidate (s : Lexer) : Option Lexer :=
  if s.candidate.any (·.required) then none else some { s with candidate := none }

def isStale (c : Cursor) (candidate : Candidate) : Bool :=
  candidate.line < c.line || candidate.index + 1024 < c.index

def dropStale (s : Lexer) : Option Lexer := do
  let fresh (candidate : Option Candidate) : Option (Option Candidate) :=
    match candidate with
    | some k => if isStale s.cursor k then if k.required then none else some none else some (some k)
    | none => some none
  return { s with
    candidate := ← fresh s.candidate
    outerCandidates := ← s.outerCandidates.mapM fresh }

def saveCandidate (s : Lexer) : Option Lexer := do
  if s.keyAllowed then
    let s ← s.dropCandidate
    return { s with candidate := some {
      number := s.count
      required := !s.inFlow && s.indent == s.cursor.column
      index := s.cursor.index
      line := s.cursor.line
      column := s.cursor.column } }
  else return s

def openBlock (s : Lexer) (column number : Nat) (start : Token) : Lexer :=
  if s.inFlow || column ≤ s.indent then s
  else
    { s.insertAt number start with indent := column, outerIndents := s.indent :: s.outerIndents }

def closeBlocks (s : Lexer) (column : Int) : Lexer :=
  if s.inFlow then s else go s.outerIndents s
where
  go : List Int → Lexer → Lexer
    | [], s => s
    | outer :: rest, s =>
      if column < s.indent then
        go rest { s.push .blockEnd with indent := outer, outerIndents := rest }
      else s

def take (s : Lexer) (width : Nat) (token : Token) : Lexer :=
  { s.push token with cursor := s.cursor.skip width }

def readOutside (s : Lexer) (read : Cursor → Option (Token × Cursor)) : Option Lexer := do
  let s ← (s.closeBlocks (-1)).dropCandidate
  let (token, cursor) ← read s.cursor
  return { s.push token with cursor, keyAllowed := false }

def readDocumentMark (s : Lexer) (token : Token) : Option Lexer :=
  s.readOutside fun c => some (token, c.skip 3)

def readEnd (s : Lexer) : Option Lexer := s.readOutside fun c => some (.streamEnd, c)

def readFlowStart (s : Lexer) (token : Token) : Option Lexer := do
  let s ← s.saveCandidate
  return { s.take 1 token with
    candidate := none, outerCandidates := s.candidate :: s.outerCandidates, keyAllowed := true }

def readFlowEnd (s : Lexer) (token : Token) : Option Lexer := do
  let s ← s.dropCandidate
  let s := match s.outerCandidates with
    | candidate :: rest => { s with candidate, outerCandidates := rest }
    | [] => s
  return { s.take 1 token with keyAllowed := false }

def readFlowEntry (s : Lexer) : Option Lexer := do
  let s ← s.dropCandidate
  return { s.take 1 .flowEntry with keyAllowed := true }

def readBlockEntry (s : Lexer) : Option Lexer := do
  guard (s.inFlow || s.keyAllowed)
  let s ← (s.openBlock s.cursor.column s.count .blockSequenceStart).dropCandidate
  return { s.take 1 .blockEntry with keyAllowed := true }

def readKey (s : Lexer) : Option Lexer := do
  guard (s.inFlow || s.keyAllowed)
  let s ← (s.openBlock s.cursor.column s.count .blockMappingStart).dropCandidate
  return { s.take 1 .key with keyAllowed := !s.inFlow }

def readValue (s : Lexer) : Option Lexer := do
  match s.candidate with
  | some k =>
    let s := (s.insertAt k.number .key).openBlock k.column k.number .blockMappingStart
    return { s.take 1 .value with candidate := none, keyAllowed := false }
  | none =>
    guard (s.inFlow || s.keyAllowed)
    let s := s.openBlock s.cursor.column s.count .blockMappingStart
    return { s.take 1 .value with keyAllowed := !s.inFlow }

def readKeyStart (s : Lexer) (read : Cursor → Option (Token × Cursor)) : Option Lexer := do
  let s ← s.saveCandidate
  let (token, cursor) ← read s.cursor
  return { s.push token with cursor, keyAllowed := false }

def readBlockScalar (s : Lexer) (literal : Bool) : Option Lexer := do
  let s ← s.dropCandidate
  let (text, cursor) ← readBlock literal s.indent s.cursor
  return { s.push (.scalar text false) with cursor, keyAllowed := true }

def readQuotedScalar (s : Lexer) (quote : Char) : Option Lexer :=
  s.readKeyStart fun c => (readQuoted quote c).map fun (text, c) => (.scalar text false, c)

def readPlainScalar (s : Lexer) : Option Lexer := do
  let s ← s.saveCandidate
  let (text, onNewLine, cursor) ← readPlain s.inFlow (s.indent + 1).toNat s.cursor
  return { s.push (.scalar text true) with cursor, keyAllowed := onNewLine }

def indicators : List Char := "-?:,[]\x7b\x7d#&*!|>'\"%@`".toList

def startsPlain (flow : Bool) (x : Char) (next : Option Char) : Bool :=
  !(endsWord (some x) || indicators.contains x)
    || (x == '-' && !next.any isSpaceOrTab)
    || (!flow && (x == '?' || x == ':') && !endsWord next)

def readToken (s : Lexer) : Option Lexer :=
  let c := s.cursor
  let next := c.peekAt 1
  match c.peek with
  | none => s.readEnd
  | some x =>
    if c.column = 0 ∧ x = '%' then s.readOutside Token.readDirective
    else if c.atMark '-' then s.readDocumentMark .documentStart
    else if c.atMark '.' then s.readDocumentMark .documentEnd
    else if x = '[' then s.readFlowStart .flowSequenceStart
    else if x = '\x7b' then s.readFlowStart .flowMappingStart
    else if x = ']' then s.readFlowEnd .flowSequenceEnd
    else if x = '\x7d' then s.readFlowEnd .flowMappingEnd
    else if x = ',' then s.readFlowEntry
    else if x = '-' ∧ endsWord next then s.readBlockEntry
    else if x = '?' ∧ (s.inFlow ∨ endsWord next) then s.readKey
    else if x = ':' ∧ (s.inFlow ∨ endsWord next) then s.readValue
    else if x = '*' then
      s.readKeyStart fun c => (Token.readAnchorName c).map fun (name, c) => (.alias name, c)
    else if x = '&' then
      s.readKeyStart fun c => (Token.readAnchorName c).map fun (name, c) => (.anchor name, c)
    else if x = '!' then
      s.readKeyStart fun c => (Token.readTag s.inFlow c).map fun (name, c) => (.tag name, c)
    else if x = '|' ∧ !s.inFlow then s.readBlockScalar true
    else if x = '>' ∧ !s.inFlow then s.readBlockScalar false
    else if x = '\'' ∨ x = '"' then s.readQuotedScalar x
    else if startsPlain s.inFlow x next then s.readPlainScalar
    else none

def run : (fuel : Nat) → Lexer → Option (List Token)
  | 0, _ => none
  | fuel + 1, s => do
    let s ← (s.skipToToken (s.cursor.rest.length + 1)).dropStale
    let s ← (s.closeBlocks s.cursor.column).readToken
    if s.tokens.head? = some .streamEnd then return s.tokens.reverse else run fuel s

end Lexer

def Token.ofText (text : List Char) : Option (List Token) :=
  Lexer.run (text.length + 1) { cursor := { rest := text } }

end Reconcile.Yaml
