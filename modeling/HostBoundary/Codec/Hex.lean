import HostBoundary.Text.Ascii

/-!
# Hexadecimal

Addresses and token ids are written in lowercase hexadecimal, two digits to a
byte, the high half first.  Reading accepts both letter cases and one leading
`0x`.

## Refusals

An odd count of digits is refused before any digit is looked at.  Otherwise the
first byte that is no digit is named, with its position after the `0x`.  The
wording shows that byte as the character of the same number in single
quotation marks, with the unprintable ones escaped (`quoted`).
-/

namespace HostBoundary

namespace Hex

/-! ## Writing -/

/-- The lowercase digit of a number below 16. -/
def digit (n : UInt8) : UInt8 := if n < 10 then n + 48 else n + 87

/-- The digits of the bytes. -/
def digits (bytes : Bytes) : Bytes := bytes.flatMap fun b => [digit (b / 16), digit (b % 16)]

/-- The hexadecimal text of the bytes. -/
def encode (bytes : Bytes) : String := Ascii.text (digits bytes)

/-- The hexadecimal text of the bytes behind `0x`. -/
def encodeMarked (bytes : Bytes) : String := "0x" ++ encode bytes

/-- The hexadecimal text of the UTF-8 bytes of a text. -/
def encodeText (text : String) : String := encode (Utf8.encode text)

/-! ## Reading -/

/-- The number that a digit stands for. -/
def value? (b : UInt8) : Option UInt8 :=
  if 48 ≤ b && b ≤ 57 then some (b - 48)
  else if 97 ≤ b && b ≤ 102 then some (b - 87)
  else if 65 ≤ b && b ≤ 70 then some (b - 55)
  else none

/-- Why a text is not hexadecimal. -/
inductive Refusal where
  /-- The count of digits is odd. -/
  | oddLength
  /-- A byte is no digit. -/
  | badDigit (byte : UInt8) (position : Nat)
deriving DecidableEq, Repr

/-- The bytes that pairs of digits stand for, where the first digit stands at
`position`. -/
def pairs (position : Nat) : Bytes → Except Refusal Bytes
  | high :: low :: rest =>
    match value? high, value? low with
    | none, _ => .error (.badDigit high position)
    | some _, none => .error (.badDigit low (position + 1))
    | some h, some l =>
      match pairs (position + 2) rest with
      | .ok bytes => .ok ((h * 16 + l) :: bytes)
      | .error refusal => .error refusal
  | [_] => .error .oddLength
  | [] => .ok []

/-- The text behind one leading `0x`, if there is one. -/
def stripMark : Bytes → Bytes
  | 48 :: 120 :: rest => rest
  | text => text

/-- The bytes that a hexadecimal text stands for. -/
def decode (text : Bytes) : Except Refusal Bytes :=
  let digits := stripMark text
  if digits.length % 2 = 1 then .error .oddLength else pairs 0 digits

/-! ## Wording -/

/-- A byte as a quoted character.  The control characters, the delete block,
the no-break space and the soft hyphen are escaped, as are the apostrophe and
the backslash. -/
def quoted (b : UInt8) : String :=
  let shown :=
    if b = 0 then "\\0"
    else if b = 9 then "\\t"
    else if b = 10 then "\\n"
    else if b = 13 then "\\r"
    else if b = 39 then "\\'"
    else if b = 92 then "\\\\"
    else if b < 32 || (127 ≤ b && b ≤ 160) || b = 173 then
      "\\u\x7b" ++ String.ofList (Nat.toDigits 16 b.toNat) ++ "\x7d"
    else String.singleton (Char.ofUInt8 b)
  "'" ++ shown ++ "'"

/-- The wording of a refusal. -/
def Refusal.message : Refusal → String
  | .oddLength => "Odd number of digits"
  | .badDigit byte position =>
    "Invalid character " ++ quoted byte ++ " at position " ++ toString position

end Hex

end HostBoundary
