import HostBoundary.Guest.World

/-!
# Memory of the contract

The contract moves bytes into and out of linear memory.  A write always comes
with the allocation that makes room for it, so there is no way to write into a
region that somebody else holds; reads go anywhere inside the arena.

## Sentinels

Each allocation has two forms.  `reserve`, `writeBytes` and `writeText` say why
they failed; `allocate`, `allocateBytes` and `allocateText` answer the null
pointer instead.  A text that is none reads as the empty one (`readText`), and
a number at the null pointer as zero (`readNumber`).
-/

namespace HostBoundary

namespace Guest

/-! ## Allocation -/

/-- Where `length` fresh bytes begin, or the null pointer. -/
def allocate (length : UInt32) : Guest UInt32 := do
  let pointer ← call (Host.allocate length)
  if pointer = nullPointer then emit (.allocationRefused length)
  return pointer

/-- A fresh region of `length` bytes. -/
def reserve (length : UInt32) : Guest (Except BoundaryError Buffer) := do
  let pointer ← allocate length
  if pointer = nullPointer then return .error .outOfMemory
  else return .ok ⟨pointer, length⟩

/-- A fresh region that holds the bytes. -/
def writeBytes (bytes : Bytes) : Guest (Except BoundaryError Buffer) :=
  match narrow bytes.length with
  | .error error => return .error error
  | .ok length => do
    match ← reserve length with
    | .error error => return .error error
    | .ok buffer =>
      if !bytes.isEmpty then call (Host.write buffer.pointer bytes)
      return .ok buffer

/-- A fresh region that holds the text. -/
def writeText (text : String) : Guest (Except BoundaryError Buffer) :=
  writeBytes (Utf8.encode text)

/-- The pointer of a region, or the null pointer. -/
def pointerOrNull : Except BoundaryError Buffer → UInt32
  | .ok buffer => buffer.pointer
  | .error _ => nullPointer

/-- Where a copy of the text begins, or the null pointer. -/
def allocateText (text : String) : Guest UInt32 := do return pointerOrNull (← writeText text)

/-- Where a copy of the bytes begins, or the null pointer. -/
def allocateBytes (bytes : Bytes) : Guest UInt32 := do return pointerOrNull (← writeBytes bytes)

/-! ## Reading -/

/-- The bytes of a region.  Nothing is read at the null pointer or where the
length is zero. -/
def readBytes (pointer length : UInt32) : Guest Bytes :=
  if pointer = nullPointer || length = 0 then return []
  else call (Host.read pointer length)

/-- The bytes of a buffer. -/
def readBuffer (buffer : Buffer) : Guest Bytes := readBytes buffer.pointer buffer.length

/-- The text of a region. -/
def readText? (pointer length : UInt32) : Guest (Except BoundaryError String) := do
  return decodeUtf8 (← readBytes pointer length)

/-- The text of a region, the empty text for bytes that are none. -/
def readText (pointer length : UInt32) : Guest String := do
  match ← readText? pointer length with
  | .ok text => return text
  | .error error =>
    emit (.bytesDiscarded pointer length error)
    return ""

/-- The number that eight bytes spell, zero at the null pointer. -/
def readNumber (pointer : UInt32) : Guest UInt64 := do
  match readUInt64 (← readBytes pointer 8) with
  | .ok n => return n
  | .error _ => return 0

end Guest

end HostBoundary
