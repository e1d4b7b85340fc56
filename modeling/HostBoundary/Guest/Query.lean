import HostBoundary.Guest.Reply
import HostBoundary.Host.Lookup
import HostBoundary.Host.Recording
import HostBoundary.Record.Outcome
import HostBoundary.Record.Output
import HostBoundary.Record.Resource

/-!
# Questions to the host

One function for each thing that a contract can ask.  None of them fails
loudly: a lookup answers nothing, an identity falls back to zeros, a number to
zero.  A question is asked in a fixed order (write the arguments, reserve the
buffer, call, read the reply) and ends at the first allocation that is not
granted.

Where the answer has a type that cannot say "nothing", giving up leaves a line
in the trace (`orAbandon`).
-/

namespace HostBoundary

namespace Guest

/-! ## The call and its block -/

/-- The version of the boundary: major, minor and patch. -/
def abiVersion : Guest UInt32 := call Host.abiVersion

/-- Whether the major version is the expected one. -/
def isCompatible (expected : UInt32) : Guest Bool := do
  return (← abiVersion) >>> 16 == expected >>> 16

/-- Who calls, zeros when the host does not say. -/
def caller : Guest Address := do return (← replyAddress? Host.caller).getD .zero

/-- The contract that is called, zeros when the host does not say. -/
def contractAddress : Guest Address := do
  return (← replyAddress? Host.contractAddress).getD .zero

/-- The time of the current block. -/
def timestamp : Guest UInt64 := call Host.timestamp

/-- The height of the current block. -/
def blockHeight : Guest UInt64 := call Host.blockHeight

/-- The hash of a block. -/
def blockHash? (height : UInt64) : Guest (Option Hash) := replyHash? (Host.blockHash height)

/-- The root of the transactions of a block. -/
def merkleRoot? (height : UInt64) : Guest (Option Hash) := replyHash? (Host.merkleRoot height)

/-- The root of the state after a block. -/
def stateRoot? (height : UInt64) : Guest (Option Hash) := replyHash? (Host.stateRoot height)

/-- The miner of a block. -/
def minerAddress? (height : UInt64) : Guest (Option Address) := replyAddress? (Host.miner height)

/-- The current transaction, zeros when the host does not say. -/
def txHash : Guest Hash := do return (← replyHash? Host.txHash).getD .zero

/-- The index of the current transaction. -/
def txIndex : Guest UInt32 := call Host.txIndex

/-- The identifier of the chain. -/
def chainId? : Guest (Option Bytes) := reply? chainIdCapacity fun pointer _ => Host.chainId pointer

/-- The parameters that the contract was deployed with. -/
def initParams? (maxLength : UInt32) : Guest (Option Bytes) := reply? maxLength Host.initParams

/-- The parameters of the current call.  The host has one place for both. -/
def contractParams? (maxLength : UInt32) : Guest (Option Bytes) := initParams? maxLength

/-! ## State -/

/-- The value of a key. -/
def stateValue? (key : String) : Guest (Option Bytes) := do
  match ← writeText key with
  | .error _ => return none
  | .ok key => reply? lookupCapacity (Host.stateValue key.pointer key.length)

/-- The confirmed value of a state and its version.  The host does not say how
long the value is, so it spans the whole buffer. -/
def confirmedState? (stateId : String) : Guest (Option StateResult) := do
  let .ok id ← writeText stateId | return none
  let .ok value ← reserve lookupCapacity | return none
  let .ok version ← reserve versionCapacity | return none
  let code ← call <|
    Host.confirmedState id.pointer id.length value.pointer value.length version.pointer
  if code = 0 then
    let bytes ← readBuffer value
    return some ⟨bytes, ← readNumber version.pointer⟩
  else
    emit (.noConfirmedState code)
    return none

/-- The version of a state. -/
def stateVersion (stateId : String) : Guest UInt64 := do
  orAbandon (← writeText stateId) 0 fun id => call (Host.stateVersion id.pointer id.length)

/-! ## Outputs, resources and balances -/

/-- The output at an out point, with its raw description. -/
def utxo? (point : OutPoint) : Guest (Option Utxo) := do
  match ← writeBytes point.txHash.toBytes with
  | .error _ => return none
  | .ok tx =>
    let ask := Host.utxoDescription tx.pointer tx.length point.index
    return (← replyText? lookupCapacity ask).map fun json =>
      let utxo := Utxo.ofDescription point json
      { utxo with output := { utxo.output with data := Utf8.encode json } }

/-- Whether there is an output at an out point. -/
def utxoExists (point : OutPoint) : Guest Bool := do
  orAbandon (← writeBytes point.txHash.toBytes) false fun tx => do
    return (← call (Host.utxoExists tx.pointer tx.length point.index)) == 1

/-- The resource with a content hash. -/
def resource? (contentHash : Hash) : Guest (Option Resource) := do
  match ← writeBytes contentHash.toBytes with
  | .error _ => return none
  | .ok hash =>
    return (← replyText? lookupCapacity (Host.resourceDescription hash.pointer hash.length)).map
      (Resource.ofDescription contentHash)

/-- Whether there is a resource with a content hash. -/
def resourceExists (contentHash : Hash) : Guest Bool := do
  orAbandon (← writeBytes contentHash.toBytes) false fun hash => do
    return (← call (Host.resourceExists hash.pointer hash.length)) == 1

/-- The balance of an address in a token, the native one if none is named. -/
def balance (address : Address) (tokenId : Option String) : Guest UInt64 := do
  orAbandon (← writeBytes address.toBytes) 0 fun address => do
    let token ← optionalText tokenId
    call (Host.balance address.pointer token.pointer token.length)

/-! ## Texts of addresses -/

/-- The base58 text of an address. -/
def base58Of? (address : Address) : Guest (Option String) := do
  match ← writeBytes address.toBytes with
  | .error _ => return none
  | .ok address =>
    return (← reply? base58Capacity (Host.base58OfAddress address.pointer)).bind Utf8.decode?

/-- The address of a base58 text. -/
def addressOfBase58? (text : String) : Guest (Option Address) := do
  match ← writeText text with
  | .error _ => return none
  | .ok text => replyAddress? (Host.addressOfBase58 text.pointer text.length)

/-- The base58 text of an address, its hexadecimal text where there is none. -/
def addressText (address : Address) : Guest String := do
  return (← base58Of? address).getD address.toHex

end Guest

end HostBoundary
