import HostBoundary.Bytes

/-!
# Linear memory

A linear memory has a size and bytes.  The bytes are worked out when they are first
looked at: a contract may ask for regions of four gigabytes, and a host that is only
asked where they begin does not have to fill them.

Two memories with the same bytes are the same (`LinearMemory.ext_bytes`), so nothing
that is proved about a memory depends on whether its bytes were looked at.
-/

namespace HostBoundary

/-- A linear memory. -/
structure LinearMemory where
  /-- How many bytes it has. -/
  size : Nat
  /-- The bytes. -/
  contents : Thunk Bytes
  /-- There are as many. -/
  length_contents : contents.get.length = size

namespace LinearMemory

/-- The bytes of a memory. -/
def bytes (memory : LinearMemory) : Bytes := memory.contents.get

/-- The memory of these bytes. -/
def ofBytes (bytes : Bytes) : LinearMemory := ⟨bytes.length, .pure bytes, rfl⟩

@[simp] theorem bytes_ofBytes (bytes : Bytes) : (ofBytes bytes).bytes = bytes := rfl

@[simp] theorem length_bytes (memory : LinearMemory) : memory.bytes.length = memory.size :=
  memory.length_contents

/-- The memory with so many zeros behind it. -/
def grow (memory : LinearMemory) (count : Nat) : LinearMemory where
  size := memory.size + count
  contents := .mk fun _ => memory.bytes ++ List.replicate count 0
  length_contents := by
    show (memory.bytes ++ List.replicate count 0).length = _
    rw [List.length_append, List.length_replicate, length_bytes]

/-- A memory is the bytes that it has. -/
theorem ext_bytes {memory other : LinearMemory} (same : memory.bytes = other.bytes) :
    memory = other := by
  obtain ⟨size, ⟨contents⟩, length⟩ := memory
  obtain ⟨otherSize, ⟨otherContents⟩, otherLength⟩ := other
  have contents_eq : contents = otherContents := funext fun _ => same
  subst contents_eq
  subst length otherLength
  rfl

theorem grow_eq (memory : LinearMemory) (count : Nat) :
    memory.grow count = ofBytes (memory.bytes ++ List.replicate count 0) :=
  ext_bytes rfl

end LinearMemory

end HostBoundary
