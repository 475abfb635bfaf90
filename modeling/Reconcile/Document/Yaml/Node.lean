import Reconcile.Document.Yaml.Lexer

namespace Reconcile.Yaml

structure Label where
  anchor : Option Nat := none
  tag : Option Tag := none
deriving DecidableEq, Repr

inductive Node
  | alias (target : Nat)
  | scalar (label : Label) (text : List Char) (plain : Bool)
  | sequence (label : Label) (items : List Node)
  | mapping (label : Label) (members : List (Node × Node))

namespace Node

def absent : Node := .scalar {} [] true

/-- The names of anchors with their numbers, the last one first. A name that is used again takes
the number after those of the other names, which the next new name takes too. -/
abbrev Anchors := List (List Char × Nat)

def Anchors.define (anchors : Anchors) (name : List Char) : Nat × Anchors :=
  (anchors.length, (name, anchors.length) :: anchors.filter (·.1 != name))

structure State where
  tokens : List Token
  anchors : Anchors := []

def readLabel (handles : Handles) (s : State) : Option (Label × State) := do
  let (anchor, tag, tokens) := match s.tokens with
    | .anchor a :: .tag t :: rest | .tag t :: .anchor a :: rest => (some a, some t, rest)
    | .anchor a :: rest => (some a, none, rest)
    | .tag t :: rest => (none, some t, rest)
    | rest => (none, none, rest)
  let tag ← match tag with
    | some name => (handles.expand name).map some
    | none => some none
  match anchor with
  | some name =>
    let (number, anchors) := s.anchors.define name
    return ({ anchor := some number, tag }, { tokens, anchors })
  | none => return ({ tag }, { s with tokens })

def endsBlockItem : Token → Bool
  | .blockEntry | .blockEnd => true
  | _ => false

def endsBlockMember : Token → Bool
  | .key | .value | .blockEnd => true
  | _ => false

def endsIndentlessItem (token : Token) : Bool := endsBlockItem token || endsBlockMember token

def endsFlowItem : Token → Bool
  | .flowEntry | .flowSequenceEnd => true
  | _ => false

def endsFlowMember : Token → Bool
  | .flowEntry | .flowMappingEnd => true
  | _ => false

def readComma (first : Bool) (s : State) : Option State :=
  match first, s.tokens with
  | true, _ => some s
  | false, .flowEntry :: rest => some { s with tokens := rest }
  | false, _ => none

mutual

/-- A node. Block collections are possible if `block`, and a sequence that is not indented if
`indentless`. -/
def read (handles : Handles) : (fuel : Nat) → (block indentless : Bool) → State →
    Option (Node × State)
  | 0, _, _, _ => none
  | fuel + 1, block, indentless, s =>
    match s.tokens with
    | .alias name :: tokens => do return (.alias (← s.anchors.lookup name), { s with tokens })
    | _ => do
      let (label, s) ← readLabel handles s
      match s.tokens with
      | .scalar text plain :: tokens => return (.scalar label text plain, { s with tokens })
      | .blockEntry :: _ =>
        if indentless then
          let (items, s) ← readIndentless handles fuel s
          return (.sequence label items, s)
        else readAbsent label s
      | .blockSequenceStart :: tokens =>
        if block then
          let (items, s) ← readBlockItems handles fuel { s with tokens }
          return (.sequence label items, s)
        else readAbsent label s
      | .blockMappingStart :: tokens =>
        if block then
          let (members, s) ← readBlockMembers handles fuel { s with tokens }
          return (.mapping label members, s)
        else readAbsent label s
      | .flowSequenceStart :: tokens => do
        let (items, s) ← readFlowItems handles fuel true { s with tokens }
        return (.sequence label items, s)
      | .flowMappingStart :: tokens => do
        let (members, s) ← readFlowMembers handles fuel true { s with tokens }
        return (.mapping label members, s)
      | _ => readAbsent label s
where
  readAbsent (label : Label) (s : State) : Option (Node × State) :=
    if label = {} then none else some (.scalar label [] true, s)

def readUnless (handles : Handles) (ends : Token → Bool) (block indentless : Bool) :
    (fuel : Nat) → State → Option (Node × State)
  | 0, _ => none
  | fuel + 1, s =>
    if s.tokens.head?.any ends then some (absent, s) else read handles fuel block indentless s

def readBlockItems (handles : Handles) : (fuel : Nat) → State → Option (List Node × State)
  | 0, _ => none
  | fuel + 1, s =>
    match s.tokens with
    | .blockEntry :: tokens => do
      let (item, s) ← readUnless handles endsBlockItem true false fuel { s with tokens }
      let (items, s) ← readBlockItems handles fuel s
      return (item :: items, s)
    | .blockEnd :: tokens => some ([], { s with tokens })
    | _ => none

def readIndentless (handles : Handles) : (fuel : Nat) → State → Option (List Node × State)
  | 0, _ => none
  | fuel + 1, s =>
    match s.tokens with
    | .blockEntry :: tokens => do
      let (item, s) ← readUnless handles endsIndentlessItem true false fuel { s with tokens }
      let (items, s) ← readIndentless handles fuel s
      return (item :: items, s)
    | _ => some ([], s)

def readMemberValue (handles : Handles) (ends : Token → Bool) (block : Bool) :
    (fuel : Nat) → State → Option (Node × State)
  | 0, _ => none
  | fuel + 1, s =>
    match s.tokens with
    | .value :: tokens => readUnless handles ends block block fuel { s with tokens }
    | _ => some (absent, s)

def readBlockMembers (handles : Handles) : (fuel : Nat) → State →
    Option (List (Node × Node) × State)
  | 0, _ => none
  | fuel + 1, s =>
    match s.tokens with
    | .key :: tokens => do
      let (key, s) ← readUnless handles endsBlockMember true true fuel { s with tokens }
      let (value, s) ← readMemberValue handles endsBlockMember true fuel s
      let (members, s) ← readBlockMembers handles fuel s
      return ((key, value) :: members, s)
    | .blockEnd :: tokens => some ([], { s with tokens })
    | _ => none

def readFlowItems (handles : Handles) : (fuel : Nat) → (first : Bool) → State →
    Option (List Node × State)
  | 0, _, _ => none
  | fuel + 1, first, s =>
    match s.tokens with
    | .flowSequenceEnd :: tokens => some ([], { s with tokens })
    | _ => do
      let s ← readComma first s
      match s.tokens with
      | .flowSequenceEnd :: tokens => return ([], { s with tokens })
      | _ =>
        let (item, s) ← readFlowItem handles fuel s
        let (items, s) ← readFlowItems handles fuel false s
        return (item :: items, s)

/-- An item of a sequence in brackets: a node or a single member. A member without a key takes the
token that stands in its place. -/
def readFlowItem (handles : Handles) : (fuel : Nat) → State → Option (Node × State)
  | 0, _ => none
  | fuel + 1, s =>
    match s.tokens with
    | .key :: tokens => do
      let s := { s with tokens }
      let (key, s) ←
        if s.tokens.head?.any fun t => t == .value || endsFlowItem t then
          some (absent, { s with tokens := s.tokens.tail })
        else read handles fuel false false s
      let (value, s) ← readMemberValue handles endsFlowItem false fuel s
      return (.mapping {} [(key, value)], s)
    | _ => read handles fuel false false s

def readFlowMembers (handles : Handles) : (fuel : Nat) → (first : Bool) → State →
    Option (List (Node × Node) × State)
  | 0, _, _ => none
  | fuel + 1, first, s =>
    match s.tokens with
    | .flowMappingEnd :: tokens => some ([], { s with tokens })
    | _ => do
      let s ← readComma first s
      match s.tokens with
      | .flowMappingEnd :: tokens => return ([], { s with tokens })
      | .key :: tokens =>
        let ends := fun t => t == .value || endsFlowMember t
        let (key, s) ← readUnless handles ends false false fuel { s with tokens }
        let (value, s) ← readMemberValue handles endsFlowMember false fuel s
        let (members, s) ← readFlowMembers handles fuel false s
        return ((key, value) :: members, s)
      | _ =>
        let (key, s) ← read handles fuel false false s
        let (members, s) ← readFlowMembers handles fuel false s
        return ((key, absent) :: members, s)

end

/-- The directives before a document. At most one gives the version, and it is 1.1 or 1.2. -/
def readDirectives (versioned : Bool) (handles : Handles) :
    List Token → Option (Handles × List Token)
  | .version major minor :: tokens =>
    if versioned || major ≠ 1 || !(minor == 1 || minor == 2) then none
    else readDirectives true handles tokens
  | .tagDirective handle meaning :: tokens =>
    if (handles.lookup handle).isSome then none
    else readDirectives versioned ((handle, meaning) :: handles) tokens
  | tokens => some (handles, tokens)

def endsDocument : Token → Bool
  | .version .. | .tagDirective .. | .documentStart | .documentEnd | .streamEnd => true
  | _ => false

def readDocument (tokens : List Token) : Option (Node × State) := do
  let (handles, rest) ← readDirectives false [] tokens
  let handles := handles ++ Handles.default
  let fuel := 4 * tokens.length + 4
  match rest with
  | .documentStart :: rest => readUnless handles endsDocument true false fuel { tokens := rest }
  | _ =>
    if rest.length < tokens.length then none
    else read handles fuel true false { tokens }

def isEnd : List Token → Bool
  | .documentEnd :: tokens => isEnd tokens
  | [.streamEnd] => true
  | _ => false

def ofTokens? (tokens : List Token) : Option Node := do
  if tokens == [.streamEnd] then return absent
  let (root, s) ← readDocument tokens
  if isEnd s.tokens then return root else none

mutual

def events : Node → Nat
  | .alias _ => 1
  | .scalar .. => 1
  | .sequence _ items => 2 + itemEvents items
  | .mapping _ members => 2 + memberEvents members

def itemEvents : List Node → Nat
  | [] => 0
  | item :: items => item.events + itemEvents items

def memberEvents : List (Node × Node) → Nat
  | [] => 0
  | (key, value) :: members => key.events + value.events + memberEvents members

end

mutual

def anchored (node : Node) : List (Nat × Node) :=
  match node with
  | .alias _ => []
  | .scalar label _ _ => label.anchor.toList.map (·, node)
  | .sequence label items => label.anchor.toList.map (·, node) ++ itemsAnchored items
  | .mapping label members => label.anchor.toList.map (·, node) ++ membersAnchored members

def itemsAnchored : List Node → List (Nat × Node)
  | [] => []
  | item :: items => item.anchored ++ itemsAnchored items

def membersAnchored : List (Node × Node) → List (Nat × Node)
  | [] => []
  | (key, value) :: members => key.anchored ++ value.anchored ++ membersAnchored members

end

end Node

end Reconcile.Yaml
