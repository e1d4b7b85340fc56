import HostBoundary.Host.Environment

/-!
# Lookups

Questions about what is stored: the state of the contract, confirmed states,
outputs, resources, balances and the texts of addresses.  Arguments are read
from the arena; a reply is written into the buffer that the caller names.

The one lookup that answers a status instead of a length is that of a confirmed
state: zero when the value and its version were written, one otherwise.
-/

namespace HostBoundary

namespace Host

/-! ## State -/

/-- Writes the value of a key. -/
def stateValue (key keyLength pointer capacity : UInt32) : HostCall UInt32 := do
  let key ← readArgument key keyLength
  fill pointer capacity (((← configured Setup.state).find? key).getD [])

/-- Writes a confirmed value and its version, and answers whether it did not. -/
def confirmedState (id idLength pointer capacity versionPointer : UInt32) : HostCall UInt32 := do
  let id ← readArgument id idLength
  match (← configured Setup.chainState).find? id with
  | none => return 1
  | some (value, version) =>
    if (← fill pointer capacity value) = 0 then return 1
    else
      write versionPointer (Bytes.ofUInt64 version)
      return 0

/-- The version of a state, zero when it is not known. -/
def stateVersion (id idLength : UInt32) : HostCall UInt64 := do
  let id ← readArgument id idLength
  return ((← configured Setup.stateVersions).find? id).getD 0

/-! ## Outputs, resources and balances -/

/-- Writes the description of an output. -/
def utxoDescription (tx txLength index pointer capacity : UInt32) : HostCall UInt32 := do
  let tx ← readArgument tx txLength
  let description := ((← configured Setup.utxos).find? (tx, index)).getD ""
  fill pointer capacity (Utf8.encode description)

/-- One when an output is known, zero otherwise. -/
def utxoExists (tx txLength index : UInt32) : HostCall UInt32 := do
  let tx ← readArgument tx txLength
  return if (← configured Setup.utxos).contains (tx, index) then 1 else 0

/-- Writes the description of a resource. -/
def resourceDescription (hash hashLength pointer capacity : UInt32) : HostCall UInt32 := do
  let hash ← readArgument hash hashLength
  let description := ((← configured Setup.resources).find? hash).getD ""
  fill pointer capacity (Utf8.encode description)

/-- One when a resource is known, zero otherwise. -/
def resourceExists (hash hashLength : UInt32) : HostCall UInt32 := do
  let hash ← readArgument hash hashLength
  return if (← configured Setup.resources).contains hash then 1 else 0

/-- The balance of an address in a token. -/
def balance (address token tokenLength : UInt32) : HostCall UInt64 := do
  let address ← readArgument address addressCapacity
  let token ← readArgument token tokenLength
  return ((← configured Setup.balances).find? (address, token)).getD 0

/-! ## Texts of addresses -/

/-- Writes the base58 text of an address. -/
def base58OfAddress (address pointer capacity : UInt32) : HostCall UInt32 := do
  let address ← readArgument address addressCapacity
  let text := ((← configured Setup.base58).find? address).getD ""
  fill pointer capacity (Utf8.encode text)

/-- The first key whose value is `value`. -/
def keyOf? (value : String) (entries : List (Bytes × String)) : Option Bytes :=
  (entries.find? fun entry => entry.2 == value).map (·.1)

/-- Writes the address of a base58 text. -/
def addressOfBase58 (text textLength pointer : UInt32) : HostCall UInt32 := do
  let text ← readText text textLength
  let address := (keyOf? text (← configured Setup.base58).entries).getD []
  fill pointer addressCapacity address

end Host

end HostBoundary
