import HostBoundary.Guest.Reply
import HostBoundary.Host.Recording
import HostBoundary.Transaction.Batch

/-!
# What a contract tells the host

Answers, events and messages; outputs; claims and their evidence.

## Mandatory and optional arguments

A call that appends an output gives up when a mandatory argument finds no room,
with a line in the trace and a sentinel for an answer.  An optional argument
that finds no room is sent as absent instead.  Since the arguments are written
in order and a refused allocation is followed by refused ones only, an argument
is missing exactly from the first refusal on.
-/

namespace HostBoundary

namespace Guest

/-! ## Answers, events, messages -/

/-- Writes the bytes, makes the call on them, and reads its status. -/
def send (bytes : Bytes) (act : (pointer length : UInt32) → HostCall UInt32) :
    Guest (Except BoundaryError Unit) := do
  match ← writeBytes bytes with
  | .error error => return .error error
  | .ok buffer => return BoundaryError.ofStatus (← call (act buffer.pointer buffer.length))

/-- Answers the call with the data. -/
def setReturnData (data : Bytes) : Guest (Except BoundaryError Unit) :=
  send data Host.setReturnData

/-- Emits an event. -/
def emitEvent (event : String) : Guest (Except BoundaryError Unit) :=
  send (Utf8.encode event) Host.emitEvent

/-- Logs a debug message. -/
def logDebug (message : String) : Guest (Except BoundaryError Unit) :=
  send (Utf8.encode message) Host.logDebug

/-! ## Outputs -/

/-- Creates a plain asset output and answers its index. -/
def createOutput (recipient : Address) (amount : UInt64) (tokenId : Option String) :
    Guest UInt32 := do
  orAbandon (← writeBytes recipient.toBytes) outputFailed fun recipient => do
    let token ← optionalText tokenId
    call (Host.createOutput recipient.pointer amount token.pointer token.length)

/-- Creates an asset output with locking conditions and answers its index. -/
def createLockedOutput (recipient : Address) (amount : UInt64)
    (tokenId lockingConditions : Option String) : Guest UInt32 := do
  orAbandon (← writeBytes recipient.toBytes) outputFailed fun recipient => do
    let token ← optionalText tokenId
    let locking ← optionalText lockingConditions
    call <| Host.createLockedOutput recipient.pointer recipient.length amount
      token.pointer token.length locking.pointer locking.length

/-- Appends a state output and answers its index. -/
def appendState (stateId : Bytes) (version : UInt64) (execHash : Hash)
    (publicInputs : Option Bytes) (parentHash : Option Hash) : Guest UInt32 := do
  orAbandon (← writeBytes stateId) outputFailed fun id => do
    orAbandon (← writeBytes execHash.toBytes) outputFailed fun execHash => do
      let inputs ← optionalBytes publicInputs
      let parent ← optionalBytes (parentHash.map FixedBytes.toBytes)
      call <| Host.appendState id.pointer id.length version execHash.pointer
        inputs.pointer inputs.length parent.pointer

/-- Appends a resource output and answers its index. -/
def appendResource (resource : Bytes) (owner : Address) (lockingConditions : Option String) :
    Guest UInt32 := do
  orAbandon (← writeBytes resource) outputFailed fun resource => do
    orAbandon (← writeBytes owner.toBytes) outputFailed fun owner => do
      let locking ← optionalText lockingConditions
      call <| Host.appendResource resource.pointer resource.length owner.pointer owner.length
        locking.pointer locking.length

/-- Creates one asset output for each item and answers how many.  An empty batch
is not sent. -/
def createBatch (items : List BatchItem) : Guest UInt32 := do
  if items.isEmpty then return outputFailed
  else
    orAbandon (← writeText (batchText items)) outputFailed fun batch =>
      call (Host.createBatch batch.pointer batch.length)

/-! ## Claims -/

/-- Declares an external state that is expected, and answers the id of the claim. -/
def declareState? (claim : String) : Guest (Option String) := do
  match ← writeText claim with
  | .error _ => return none
  | .ok claim => replyText? claimIdCapacity (Host.declareState claim.pointer claim.length)

/-- Attaches evidence to a declared claim, and answers whether it was taken. -/
def provideEvidence (claimId evidence : String) : Guest Bool := do
  orAbandon (← writeText claimId) false fun id => do
    orAbandon (← writeText evidence) false fun evidence => do
      return (← call <| Host.provideEvidence id.pointer id.length
        evidence.pointer evidence.length) == 1

/-- The controlled state of a declared claim. -/
def controlledState? (claimId : String) : Guest (Option String) := do
  match ← writeText claimId with
  | .error _ => return none
  | .ok id => replyText? lookupCapacity (Host.controlledState id.pointer id.length)

end Guest

end HostBoundary
