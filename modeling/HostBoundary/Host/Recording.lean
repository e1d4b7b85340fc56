import HostBoundary.Host.Environment
import HostBoundary.Transaction.Receipt

/-!
# Calls that the host records

What a contract tells the host ends up in its records: the answer of the call,
events and debug messages, outputs and batches of outputs, drafts, and evidence
for claims.  A call reads its arguments before it records anything, so one whose
arguments reach over the end of the arena leaves no record.

## Numbering

Outputs are numbered in the order of the calls, assets, states and resources
together; a batch takes as many numbers as it has recipients.  A host with an
`appendStatus` answers that instead, and does not count.

The count has 32 bits.  It wraps around to zero behind the largest number, as it does in a
release build; a build that checks its arithmetic stops at that call instead.
-/

namespace HostBoundary

namespace Host

/-! ## Answers, events, messages -/

/-- Takes the answer of the contract. -/
def setReturnData (pointer length : UInt32) : HostCall UInt32 := do
  let data ← readArgument pointer length
  record fun r => { r with returnData := some data }
  return 0

/-- Takes an event. -/
def emitEvent (pointer length : UInt32) : HostCall UInt32 := do
  let event ← readText pointer length
  record fun r => { r with events := r.events ++ [event] }
  return 0

/-- Takes a debug message. -/
def logDebug (pointer length : UInt32) : HostCall UInt32 := do
  let message ← readText pointer length
  record fun r => { r with logs := r.logs ++ [message] }
  configured Setup.logStatus

/-! ## Outputs -/

/-- The number of the next output, which is counted.  The count wraps around at 32 bits,
where a build with checked arithmetic stops. -/
def nextOutput : HostCall UInt32 := do
  match ← configured Setup.appendStatus with
  | some status => return status
  | none =>
    let index := (← get).records.outputCount
    record fun r => { r with outputCount := index + 1 }
    return index

/-- Takes an asset output. -/
def recordAsset (asset : AssetRecord) : HostCall UInt32 := do
  record fun r => { r with assetOutputs := r.assetOutputs ++ [asset] }
  nextOutput

/-- Takes a plain asset output. -/
def createOutput (recipient : UInt32) (amount : UInt64) (token tokenLength : UInt32) :
    HostCall UInt32 := do
  let recipient ← readArgument recipient addressCapacity
  let tokenId ← readText token tokenLength
  recordAsset { recipient, amount, tokenId, lockingConditions := "" }

/-- Takes an asset output with locking conditions. -/
def createLockedOutput (recipient recipientLength : UInt32) (amount : UInt64)
    (token tokenLength locking lockingLength : UInt32) : HostCall UInt32 := do
  let recipient ← readArgument recipient recipientLength
  let tokenId ← readText token tokenLength
  let lockingConditions ← readText locking lockingLength
  recordAsset { recipient, amount, tokenId, lockingConditions }

/-- Takes a state output.  The parent hash is absent at the null pointer. -/
def appendState (id idLength : UInt32) (version : UInt64)
    (execHash inputs inputsLength parent : UInt32) : HostCall UInt32 := do
  let stateId ← readArgument id idLength
  let execHash ← readArgument execHash hashCapacity
  let publicInputs ← readArgument inputs inputsLength
  let parentHash ←
    if parent = nullPointer then pure none
    else do
      let bytes ← read parent hashCapacity
      pure (some bytes)
  record fun r =>
    { r with stateOutputs :=
        r.stateOutputs ++ [{ stateId, version, execHash, publicInputs, parentHash }] }
  nextOutput

/-- Takes a resource output. -/
def appendResource (resource resourceLength owner ownerLength locking lockingLength : UInt32) :
    HostCall UInt32 := do
  let resource ← readArgument resource resourceLength
  let owner ← readArgument owner ownerLength
  let lockingConditions ← readText locking lockingLength
  record fun r =>
    { r with resourceOutputs :=
        r.resourceOutputs ++ [{ resource, owner, lockingConditions }] }
  nextOutput

/-- How many recipients a batch names.  The pattern cannot overlap itself. -/
def recipientCount (batch : String) : Nat :=
  Bytes.occurrences (Utf8.encode "\"recipient\":") (Utf8.encode batch)

/-- Takes a batch of outputs and answers how many it holds.  The outputs counted so far and
those of the batch add up modulo 32 bits, where a build with checked arithmetic stops if
the sum does not fit. -/
def createBatch (pointer length : UInt32) : HostCall UInt32 := do
  let batch ← readText pointer length
  let count := UInt32.ofNat (recipientCount batch)
  record fun r => { r with batches := r.batches ++ [batch] }
  match ← configured Setup.appendStatus with
  | some status => return status
  | none =>
    record fun r => { r with outputCount := r.outputCount + count }
    return count

/-! ## Drafts -/

/-- Takes a draft and writes the receipt, cut off at the end of its buffer.
Answers the build status, and writes nothing unless that is zero. -/
def buildTransaction (draft draftLength receipt receiptLength : UInt32) : HostCall UInt32 := do
  let draft ← readText draft draftLength
  record fun r => { r with drafts := r.drafts ++ [draft] }
  let status ← configured Setup.buildStatus
  if status = 0 then
    write receipt ((← configured Setup.receipt).take receiptLength.toNat)
  return status

/-! ## Claims -/

/-- Writes the id of a claim. -/
def declareState (claim claimLength pointer capacity : UInt32) : HostCall UInt32 := do
  let claim ← readText claim claimLength
  let id := ((← configured Setup.claimIds).find? claim).getD ""
  fill pointer capacity (Utf8.encode id)

/-- Takes evidence under an id that is configured for some claim, whether or not
that claim was declared.  Answers one when it did and zero otherwise. -/
def provideEvidence (id idLength evidence evidenceLength : UInt32) : HostCall UInt32 := do
  let id ← readText id idLength
  if (← configured Setup.claimIds).values.contains id then
    let evidence ← readText evidence evidenceLength
    record fun r => { r with evidence := r.evidence ++ [(id, evidence)] }
    return 1
  else return 0

/-- Writes the controlled state of a claim. -/
def controlledState (id idLength pointer capacity : UInt32) : HostCall UInt32 := do
  let id ← readText id idLength
  let state := ((← configured Setup.controlledState).find? id).getD ""
  fill pointer capacity (Utf8.encode state)

end Host

end HostBoundary
