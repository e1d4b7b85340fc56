import HostBoundary.Error

/-!
# Buffers

A buffer is a region of linear memory: where it begins and how long it is.  It
is a pair of numbers and says nothing about what lies there, so it is only
meaningful beside the memory it was allocated in.  The null pointer stands for
"no region".
-/

namespace HostBoundary

/-- The pointer that the host never hands out. -/
def nullPointer : UInt32 := 0

/-- A region of linear memory. -/
structure Buffer where
  /-- Where the region begins. -/
  pointer : UInt32
  /-- How many bytes it holds. -/
  length : UInt32
deriving DecidableEq, Repr

namespace Buffer

/-- No region. -/
def empty : Buffer := ⟨nullPointer, 0⟩

instance : Inhabited Buffer := ⟨empty⟩

/-- Whether the region holds no bytes. -/
def isEmpty (buffer : Buffer) : Bool := buffer.length = 0

/-- Whether the region is nowhere. -/
def isNull (buffer : Buffer) : Bool := buffer.pointer = nullPointer

/-- Whether there is anything to read. -/
def isReadable (buffer : Buffer) : Bool := !buffer.isNull && !buffer.isEmpty

/-- The front of the region, of at most `length` bytes. -/
def truncate (buffer : Buffer) (length : UInt32) : Buffer :=
  ⟨buffer.pointer, min length buffer.length⟩

/-- The buffer that eight bytes spell, the pointer first. -/
def ofBytes (bytes : Bytes) : Except BoundaryError Buffer :=
  if bytes.length = 8 then do
    return ⟨← readUInt32 (bytes.take 4), ← readUInt32 (bytes.drop 4)⟩
  else .error .tooWide

end Buffer

end HostBoundary
