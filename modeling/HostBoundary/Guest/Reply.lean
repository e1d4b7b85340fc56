import HostBoundary.Guest.Memory

/-!
# Replies in a buffer

Most questions are answered into a buffer that the contract provides.  The host
says how much it wrote; nothing at all, and more than the buffer holds, both
mean that there is no answer (`reply?`).

The buffer is reserved after the arguments of the question were written, so its
size never disturbs them.
-/

namespace HostBoundary

namespace Guest

/-! ## Capacities -/

/-- Room for a state value, a description or a controlled state. -/
def lookupCapacity : UInt32 := 8192

/-- Room for a receipt. -/
def receiptCapacity : UInt32 := 4096

/-- Room for the base58 text of an address. -/
def base58Capacity : UInt32 := 64

/-- Room for a chain id. -/
def chainIdCapacity : UInt32 := 64

/-- Room for the id of a claim. -/
def claimIdCapacity : UInt32 := 64

/-- Room for an address. -/
def addressCapacity : UInt32 := 20

/-- Room for a hash. -/
def hashCapacity : UInt32 := 32

/-- Room for a version. -/
def versionCapacity : UInt32 := 8

/-- What the calls that append outputs answer in place of an index. -/
def outputFailed : UInt32 := 0xFFFFFFFF

/-! ## Replies -/

/-- The bytes that the host writes into a fresh buffer, if it writes any. -/
def reply? (capacity : UInt32) (ask : (pointer capacity : UInt32) → HostCall UInt32) :
    Guest (Option Bytes) := do
  match ← reserve capacity with
  | .error _ => return none
  | .ok buffer =>
    let written ← call (ask buffer.pointer buffer.length)
    if written = 0 || capacity < written then
      emit (.nothingWritten written capacity)
      return none
    else
      return some (← readBuffer (buffer.truncate written))

/-- A reply that is a hash, if it has the length of one. -/
def replyHash? (ask : (pointer : UInt32) → HostCall UInt32) : Guest (Option Hash) := do
  return (← reply? hashCapacity fun pointer _ => ask pointer).bind FixedBytes.ofBytes?

/-- A reply that is an address.  A short one is aligned to the left. -/
def replyAddress? (ask : (pointer : UInt32) → HostCall UInt32) : Guest (Option Address) := do
  return (← reply? addressCapacity fun pointer _ => ask pointer).map FixedBytes.ofFront

/-- A reply that is a text.  The trace tells about one that is none. -/
def replyText? (capacity : UInt32) (ask : (pointer capacity : UInt32) → HostCall UInt32) :
    Guest (Option String) := do
  match ← reply? capacity ask with
  | none => return none
  | some bytes =>
    match Utf8.decode? bytes with
    | some text => return some text
    | none =>
      emit (.replyNotText (Utf8.complaint bytes))
      return none

/-! ## Arguments -/

/-- An argument that may be missing, as a buffer.  A missing one, an empty one,
and one that there is no room for are all sent as the empty buffer. -/
def optionalBytes : Option Bytes → Guest Buffer
  | none => return .empty
  | some bytes =>
    if bytes.isEmpty then return .empty
    else do
      match ← writeBytes bytes with
      | .ok buffer => return buffer
      | .error _ => return .empty

/-- A text that may be missing, as a buffer. -/
def optionalText (text : Option String) : Guest Buffer :=
  optionalBytes (text.map Utf8.encode)

end Guest

end HostBoundary
