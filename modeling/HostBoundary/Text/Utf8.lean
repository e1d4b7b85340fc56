import HostBoundary.Bytes

/-!
# Texts as UTF-8 bytes

Texts cross the boundary as UTF-8.  A text *is* a valid byte string, so
`encode` forgets that validity and `decode?` checks it; the two are inverse to
each other in both directions (`decode?_encode`, `encode_of_decode?`).

## Ill-formed bytes

Two readers have to say more than "not a text": the host records what it was
sent with U+FFFD in the place of each part that is not a character, and a
failed read names the part that it stopped at.  Both follow one division of a
byte string into *pieces*.  A piece is a whole character, or the longest run of
bytes that begins a character but does not complete it, or a single byte that
begins none (`pieces`).  `decodeLossy` leaves a valid text alone and otherwise
replaces each such run by one replacement character.
-/

namespace HostBoundary

namespace Utf8

/-- The UTF-8 bytes of a text. -/
def encode (text : String) : Bytes := text.toByteArray.data.toList

/-- The text that the bytes spell, if they are valid UTF-8. -/
def decode? (bytes : Bytes) : Option String := String.fromUTF8? ⟨bytes.toArray⟩

/-- The text that the bytes spell, and the empty text for ill-formed bytes. -/
def decodeOrEmpty (bytes : Bytes) : String := (decode? bytes).getD ""

@[simp] theorem encode_empty : encode "" = [] := rfl

@[simp] theorem encode_append (s t : String) : encode (s ++ t) = encode s ++ encode t := by
  simp [encode, String.toByteArray_append]

@[simp] theorem decode?_encode (text : String) : decode? (encode text) = some text := by
  simp [decode?, encode, String.fromUTF8?, text.isValidUTF8, String.fromUTF8]

/-- Only the bytes of a text decode to it. -/
theorem encode_of_decode? {bytes : Bytes} {text : String} (h : decode? bytes = some text) :
    encode text = bytes := by
  unfold decode? String.fromUTF8? at h
  split at h
  · cases h; rfl
  · cases h

theorem decode?_eq_some_iff {bytes : Bytes} {text : String} :
    decode? bytes = some text ↔ encode text = bytes :=
  ⟨encode_of_decode?, fun h => h ▸ decode?_encode text⟩

theorem encode_injective {s t : String} (h : encode s = encode t) : s = t := by
  have := decode?_encode s
  rw [h, decode?_encode] at this
  exact (Option.some.inj this).symm

theorem encode_inj {s t : String} : encode s = encode t ↔ s = t :=
  ⟨encode_injective, congrArg encode⟩

theorem encode_eq_nil {text : String} : encode text = [] ↔ text = "" := @encode_inj text ""

@[simp] theorem decodeOrEmpty_encode (text : String) : decodeOrEmpty (encode text) = text := by
  simp [decodeOrEmpty]

/-! ## Pieces -/

/-- One piece of a byte string. -/
inductive Piece where
  /-- The bytes of one character. -/
  | whole (bytes : Bytes)
  /-- Bytes that begin no character, or that begin one and are followed by a
  byte that does not continue it. -/
  | broken (bytes : Bytes)
  /-- Bytes that begin a character, where the byte string ends. -/
  | cutShort (bytes : Bytes)
deriving DecidableEq, Repr

namespace Piece

/-- The bytes that the piece consists of. -/
def bytes : Piece → Bytes
  | whole bytes | broken bytes | cutShort bytes => bytes

end Piece

/-- How many bytes follow a leading byte that is not ASCII, and the range that
the first of them has to lie in.  The narrow ranges keep out the overlong
spellings, the surrogates and what lies above U+10FFFF. -/
def continuation? (lead : UInt8) : Option (Nat × UInt8 × UInt8) :=
  if lead < 0xC2 then none
  else if lead < 0xE0 then some (1, 0x80, 0xBF)
  else if lead = 0xE0 then some (2, 0xA0, 0xBF)
  else if lead = 0xED then some (2, 0x80, 0x9F)
  else if lead < 0xF0 then some (2, 0x80, 0xBF)
  else if lead = 0xF0 then some (3, 0x90, 0xBF)
  else if lead < 0xF4 then some (3, 0x80, 0xBF)
  else if lead = 0xF4 then some (3, 0x80, 0x8F)
  else none

/-- The piece at the front of `lead :: rest`. -/
def frontPiece (lead : UInt8) (rest : Bytes) : Piece :=
  if lead < 0x80 then .whole [lead]
  else match continuation? lead, rest with
    | none, _ => .broken [lead]
    | some _, [] => .cutShort [lead]
    | some (more, low, high), second :: others =>
      if second < low || high < second then .broken [lead]
      else
        let following :=
          (others.take (more - 1)).takeWhile fun b => 0x80 ≤ b && b ≤ 0xBF
        let taken := lead :: second :: following
        if following.length + 1 = more then .whole taken
        else if following.length = others.length then .cutShort taken
        else .broken taken

/-- The pieces of a byte string, at most `fuel` of them. -/
def piecesUpTo : (fuel : Nat) → Bytes → List Piece
  | 0, _ => []
  | _, [] => []
  | fuel + 1, lead :: rest =>
    let piece := frontPiece lead rest
    piece :: piecesUpTo fuel (rest.drop (piece.bytes.length - 1))

/-- The pieces of a byte string, in order.  Each holds at least one byte, so
there are no more of them than bytes. -/
def pieces (bytes : Bytes) : List Piece := piecesUpTo bytes.length bytes

/-- The text with one replacement character for each ill-formed piece. -/
def replaceIllFormed (bytes : Bytes) : String :=
  String.join <| (pieces bytes).map fun
    | .whole bytes => decodeOrEmpty bytes
    | .broken _ | .cutShort _ => "\uFFFD"

/-- The text that the bytes spell, where each ill-formed piece reads as U+FFFD. -/
def decodeLossy (bytes : Bytes) : String :=
  (decode? bytes).getD (replaceIllFormed bytes)

@[simp] theorem decodeLossy_encode (text : String) : decodeLossy (encode text) = text := by
  simp [decodeLossy]

/-! ## Naming the first ill-formed piece -/

/-- Where a byte string stops being a text. -/
structure IllFormed where
  /-- The count of bytes before the piece. -/
  position : Nat
  /-- The length of the piece, or nothing when the byte string ends within a
  character. -/
  length? : Option Nat
deriving DecidableEq, Repr

/-- The first ill-formed piece, when the pieces begin at `position`. -/
def firstIllFormed (position : Nat) : List Piece → Option IllFormed
  | [] => none
  | .whole bytes :: rest => firstIllFormed (position + bytes.length) rest
  | .broken bytes :: _ => some ⟨position, some bytes.length⟩
  | .cutShort _ :: _ => some ⟨position, none⟩

/-- The wording of a failed read. -/
def IllFormed.message (found : IllFormed) : String :=
  match found.length? with
  | some length =>
    "invalid utf-8 sequence of " ++ toString length ++ " bytes from index "
      ++ toString found.position
  | none => "incomplete utf-8 byte sequence from index " ++ toString found.position

/-- Why the bytes are not a text; the empty text when they are one. -/
def complaint (bytes : Bytes) : String :=
  ((firstIllFormed 0 (pieces bytes)).map IllFormed.message).getD ""

end Utf8

end HostBoundary
