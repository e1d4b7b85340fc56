import HostBoundary.Text.Ascii

/-!
# Base64

Binary values travel inside JSON text in the standard base64 alphabet.  Three
bytes become four symbols of six bits; a last group of one or two bytes becomes
two or three symbols, and `=` fills it up to four.

## Lenient reading

Reading first drops *every* `=`, wherever it stands, so that padding may be
missing, doubled or misplaced.  What remains has to be a sequence of symbols
whose length is not one more than a multiple of four, since a single symbol
holds less than a byte.  The bits of the last symbol that do not fill a byte
are ignored.

## Which byte is blamed

A refusal names one byte and its position in the text *as given*, the dropped
padding included (`blame?`).  That byte is the first one outside the alphabet.
Where the length itself is wrong, the last remaining byte is suspected first:
it is blamed if it is outside the alphabet, or if every byte is inside.
-/

namespace HostBoundary

namespace Base64

/-- The padding byte `=`. -/
def pad : UInt8 := 61

/-- The symbol of a number below 64. -/
def symbol (n : UInt8) : UInt8 :=
  if n < 26 then n + 65
  else if n < 52 then n + 71
  else if n < 62 then n - 4
  else if n = 62 then 43
  else 47

/-- The number that a symbol stands for, for the 64 bytes that are symbols. -/
def value? (b : UInt8) : Option UInt8 :=
  if 65 ≤ b && b ≤ 90 then some (b - 65)
  else if 97 ≤ b && b ≤ 122 then some (b - 71)
  else if 48 ≤ b && b ≤ 57 then some (b + 4)
  else if b = 43 then some 62
  else if b = 47 then some 63
  else none

/-- The bytes of the alphabet. -/
def isSymbol (b : UInt8) : Bool := (value? b).isSome

/-! ## Writing -/

/-- The symbols of the bytes, padded to a multiple of four. -/
def symbols : Bytes → Bytes
  | [] => []
  | [a] => [symbol (a / 4), symbol (a % 4 * 16), pad, pad]
  | [a, b] => [symbol (a / 4), symbol (a % 4 * 16 + b / 16), symbol (b % 16 * 4), pad]
  | a :: b :: c :: rest =>
    symbol (a / 4) :: symbol (a % 4 * 16 + b / 16) :: symbol (b % 16 * 4 + c / 64)
      :: symbol (c % 64) :: symbols rest

/-- The base64 text of the bytes. -/
def encode (bytes : Bytes) : String := Ascii.text (symbols bytes)

/-! ## Reading -/

/-- The bytes that six-bit numbers make up, four numbers to three bytes. -/
def join : List UInt8 → Bytes
  | a :: b :: c :: d :: rest =>
    (a * 4 + b / 16) :: (b % 16 * 16 + c / 4) :: (c % 4 * 64 + d) :: join rest
  | [a, b, c] => [a * 4 + b / 16, b % 16 * 16 + c / 4]
  | [a, b] => [a * 4 + b / 16]
  | [_] => []
  | [] => []

/-- A byte that makes a text unreadable, and where it stands. -/
structure Refusal where
  /-- The blamed byte. -/
  byte : UInt8
  /-- Its position in the text, padding counted. -/
  position : Nat
deriving DecidableEq, Repr

/-- The bytes of a text that are not padding, each with its position. -/
def kept (text : Bytes) : List (UInt8 × Nat) :=
  text.zipIdx.filter fun entry => entry.1 != pad

/-- The byte to blame, if the remaining bytes are unreadable. -/
def blame? (bytes : List (UInt8 × Nat)) : Option (UInt8 × Nat) :=
  let outside := bytes.find? fun entry => !isSymbol entry.1
  if bytes.length % 4 = 1 then
    match bytes.getLast? with
    | some last => if isSymbol last.1 then outside.or (some last) else some last
    | none => none
  else outside

/-- The bytes that a base64 text stands for. -/
def decode (text : Bytes) : Except Refusal Bytes :=
  match blame? (kept text) with
  | some (byte, position) => .error ⟨byte, position⟩
  | none => .ok (join ((kept text).filterMap fun entry => value? entry.1))

/-- The bytes that a base64 text stands for, none for an unreadable text. -/
def decodeOrEmpty (text : Bytes) : Bytes :=
  match decode text with
  | .ok bytes => bytes
  | .error _ => []

end Base64

end HostBoundary
