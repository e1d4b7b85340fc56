/-!
# Byte strings

Everything that crosses the boundary between a contract and its host is a byte
string: call arguments, replies, and the linear memory that both sides see.
Byte strings are lists, so that a region of memory is a `take` of a `drop` and
two regions compose by `++`.

## Main definitions

* `Bytes` — byte strings.
* `Bytes.findFrom` — the first occurrence of a pattern at or after a position.
* `Bytes.occurrences` — how often a pattern occurs.
* `Bytes.littleEndian`, `Bytes.fromLittleEndian` — numbers as bytes, the least
  significant byte first.

## The search

A search answers a *position*, not the rest of the text, because the callers
compare and continue from positions.  The scan carries the position of its
current suffix (`searchAt`), so it needs no arithmetic after the fact, and the
suffix is consumed structurally.  The empty pattern has no occurrence: a search
for nothing never succeeds.
-/

namespace HostBoundary

/-- A byte string. -/
abbrev Bytes := List UInt8

namespace Bytes

/-! ## Named bytes -/

/-- The quotation mark. -/
def quote : UInt8 := 34

/-- The colon. -/
def colon : UInt8 := 58

/-- The opening brace. -/
def openBrace : UInt8 := 123

/-- The closing brace. -/
def closeBrace : UInt8 := 125

/-- The space. -/
def space : UInt8 := 32

/-- The horizontal tab. -/
def tab : UInt8 := 9

/-- The ten decimal digits. -/
def isDigit (b : UInt8) : Bool := 48 ≤ b && b ≤ 57

/-! ## Search -/

/-- The position of the first suffix that begins with `needle`, where the
suffix in hand stands at position `here`. -/
def searchAt (needle : Bytes) : Nat → Bytes → Option Nat
  | _, [] => none
  | here, b :: rest =>
    if needle.isPrefixOf (b :: rest) then some here else searchAt needle (here + 1) rest

/-- The first position at or after `start` where `needle` occurs in `hay`.  The
empty needle occurs nowhere, and nothing occurs past the end. -/
def findFrom (hay needle : Bytes) (start : Nat) : Option Nat :=
  if needle.isEmpty then none else searchAt needle start (hay.drop start)

@[simp] theorem searchAt_nil (needle : Bytes) (here : Nat) :
    searchAt needle here [] = none := rfl

theorem searchAt_cons (needle : Bytes) (here : Nat) (b : UInt8) (rest : Bytes) :
    searchAt needle here (b :: rest) =
      if needle.isPrefixOf (b :: rest) then some here
      else searchAt needle (here + 1) rest := rfl

@[simp] theorem findFrom_nil_needle (hay : Bytes) (start : Nat) :
    findFrom hay [] start = none := rfl

/-- How many positions of the text begin with `needle`.  For a needle that
cannot overlap itself this counts the disjoint occurrences. -/
def occurrences (needle : Bytes) : Bytes → Nat
  | [] => 0
  | b :: rest =>
    occurrences needle rest + if needle.isPrefixOf (b :: rest) then 1 else 0

/-! ## Numbers as bytes -/

/-- The `width` lowest bytes of `n`, the least significant one first. -/
def littleEndian : (width : Nat) → (n : Nat) → Bytes
  | 0, _ => []
  | width + 1, n => UInt8.ofNat n :: littleEndian width (n / 256)

/-- The number that the bytes spell, the least significant one first. -/
def fromLittleEndian : Bytes → Nat
  | [] => 0
  | b :: rest => b.toNat + 256 * fromLittleEndian rest

@[simp] theorem length_littleEndian (width n : Nat) :
    (littleEndian width n).length = width := by
  induction width generalizing n with
  | zero => rfl
  | succ width ih => simp [littleEndian, ih]

/-- The eight bytes of a 64-bit number. -/
def ofUInt64 (n : UInt64) : Bytes := littleEndian 8 n.toNat

@[simp] theorem length_ofUInt64 (n : UInt64) : (ofUInt64 n).length = 8 := by
  simp [ofUInt64]

end Bytes

end HostBoundary
