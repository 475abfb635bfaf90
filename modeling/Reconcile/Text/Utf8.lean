namespace Reconcile.Text.Utf8

def encodeChar (c : Char) : List UInt8 :=
  let n := c.toNat
  if n < 0x80 then [.ofNat n]
  else if n < 0x800 then [.ofNat (0xC0 + n / 0x40), .ofNat (0x80 + n % 0x40)]
  else if n < 0x10000 then
    [.ofNat (0xE0 + n / 0x1000), .ofNat (0x80 + n / 0x40 % 0x40), .ofNat (0x80 + n % 0x40)]
  else
    [.ofNat (0xF0 + n / 0x40000), .ofNat (0x80 + n / 0x1000 % 0x40),
     .ofNat (0x80 + n / 0x40 % 0x40), .ofNat (0x80 + n % 0x40)]

def encode (text : List Char) : List UInt8 := text.flatMap encodeChar

def width (c : Char) : Nat := (encodeChar c).length

def size (text : List Char) : Nat := (encode text).length

def continuation? (b : UInt8) : Option Nat :=
  if 0x80 ≤ b ∧ b < 0xC0 then some (b.toNat - 0x80) else none

/-- The character with code `n`, if there is one and no shorter form holds it: those start at
`least`. -/
def char? (least n : Nat) : Option Char :=
  if least ≤ n ∧ n.isValidChar then some (.ofNat n) else none

def pair? (a b : UInt8) : Option Char := do
  let x ← continuation? b
  char? 0x80 ((a.toNat - 0xC0) * 0x40 + x)

def triple? (a b c : UInt8) : Option Char := do
  let x ← continuation? b
  let y ← continuation? c
  char? 0x800 ((a.toNat - 0xE0) * 0x1000 + x * 0x40 + y)

def quadruple? (a b c d : UInt8) : Option Char := do
  let x ← continuation? b
  let y ← continuation? c
  let z ← continuation? d
  char? 0x10000 ((a.toNat - 0xF0) * 0x40000 + x * 0x1000 + y * 0x40 + z)

/-- The number of bytes that a first byte announces; 0 if it can be none. -/
def announced (a : UInt8) : Nat :=
  if a < 0x80 then 1
  else if a < 0xC0 then 0
  else if a < 0xE0 then 2
  else if a < 0xF0 then 3
  else if a < 0xF8 then 4
  else 0

def attach (start : Nat) : Option Char → Except Nat (List Char) → Except Nat (List Char)
  | none, _ => .error start
  | some c, rest => rest.map (c :: ·)

/-- The characters of the bytes, or the position of the first byte that starts none, where the
first byte is at `start`. -/
def decodeFrom (start : Nat) : List UInt8 → Except Nat (List Char)
  | [] => .ok []
  | a :: rest =>
    match announced a, rest with
    | 1, rest => attach start (char? 0 a.toNat) (decodeFrom (start + 1) rest)
    | 2, b :: rest => attach start (pair? a b) (decodeFrom (start + 2) rest)
    | 3, b :: c :: rest => attach start (triple? a b c) (decodeFrom (start + 3) rest)
    | 4, b :: c :: d :: rest => attach start (quadruple? a b c d) (decodeFrom (start + 4) rest)
    | _, _ => .error start

def decode (bytes : List UInt8) : Except Nat (List Char) := decodeFrom 0 bytes

end Reconcile.Text.Utf8
