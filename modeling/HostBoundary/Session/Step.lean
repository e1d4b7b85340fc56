import HostBoundary.Contract.Token
import HostBoundary.Guest.Invocation
import HostBoundary.Session.Answer

/-!
# Steps

A step is one thing that can be done across the boundary, with its arguments.
The steps are grouped as the operations are:

* `MemoryStep` — allocating, writing and reading linear memory;
* `RawStep` — host calls at a pointer of one's own choice;
* `QueryStep` — questions to the host;
* `ReportStep` — what the host is told;
* `BuilderStep` — work on one of several transaction builders.

The groups differ in what they may change.  All but the last act on the world
alone; a builder step also changes its builder; `Step.run` adds the entry
points of the contract, which share one invocation, and the changes from
outside: settings and the reset to a fresh host.
-/

namespace HostBoundary

/-! ## Memory -/

/-- Allocating, writing and reading. -/
inductive MemoryStep where
  | allocate (length : UInt32)
  | reserve (length : UInt32)
  | writeBytes (bytes : Bytes)
  | writeText (text : String)
  | allocateText (text : String)
  | allocateBytes (bytes : Bytes)
  | readBytes (pointer length : UInt32)
  | readBuffer (buffer : Buffer)
  | readText (pointer length : UInt32)
  | readTextStrictly (pointer length : UInt32)
  | readNumber (pointer : UInt32)

/-- Carries out a step on memory. -/
def MemoryStep.run : MemoryStep → Guest Answer
  | allocate length => .word <$> Guest.allocate length
  | reserve length => .ofExcept .region <$> Guest.reserve length
  | writeBytes bytes => .ofExcept .region <$> Guest.writeBytes bytes
  | writeText text => .ofExcept .region <$> Guest.writeText text
  | allocateText text => .word <$> Guest.allocateText text
  | allocateBytes bytes => .word <$> Guest.allocateBytes bytes
  | readBytes pointer length => .bytes <$> Guest.readBytes pointer length
  | readBuffer buffer => .bytes <$> Guest.readBuffer buffer
  | readText pointer length => .text <$> Guest.readText pointer length
  | readTextStrictly pointer length => .ofExcept .text <$> Guest.readText? pointer length
  | readNumber pointer => .number <$> Guest.readNumber pointer

/-! ## Raw calls -/

/-- Host calls at any pointer. -/
inductive RawStep where
  | read (pointer length : UInt32)
  | write (pointer : UInt32) (bytes : Bytes)
  | emitEvent (pointer length : UInt32)
  | setReturnData (pointer length : UInt32)
  | caller (pointer : UInt32)
  | txHash (pointer : UInt32)

/-- Makes a raw call. -/
def RawStep.run : RawStep → Guest Answer
  | read pointer length => .bytes <$> Guest.call (Host.read pointer length)
  | write pointer bytes => do
    Guest.call (Host.write pointer bytes)
    return .nothing
  | emitEvent pointer length => .word <$> Guest.call (Host.emitEvent pointer length)
  | setReturnData pointer length => .word <$> Guest.call (Host.setReturnData pointer length)
  | caller pointer => .word <$> Guest.call (Host.caller pointer)
  | txHash pointer => .word <$> Guest.call (Host.txHash pointer)

/-! ## Questions -/

/-- Questions to the host. -/
inductive QueryStep where
  | abiVersion
  | txIndex
  | caller
  | contractAddress
  | txHash
  | timestamp
  | blockHeight
  | chainId
  | isCompatible (expected : UInt32)
  | blockHash (height : UInt64)
  | merkleRoot (height : UInt64)
  | stateRoot (height : UInt64)
  | minerAddress (height : UInt64)
  | initParams (maxLength : UInt32)
  | contractParams (maxLength : UInt32)
  | stateValue (key : String)
  | confirmedState (stateId : String)
  | stateVersion (stateId : String)
  | utxo (point : OutPoint)
  | utxoExists (point : OutPoint)
  | resource (contentHash : Hash)
  | resourceExists (contentHash : Hash)
  | balance (address : Address) (tokenId : Option String)
  | base58Of (address : Address)
  | addressOfBase58 (text : String)
  | addressText (address : Address)

/-- Asks a question. -/
def QueryStep.run : QueryStep → Guest Answer
  | abiVersion => .word <$> Guest.abiVersion
  | txIndex => .word <$> Guest.txIndex
  | caller => .ofIdentity <$> Guest.caller
  | contractAddress => .ofIdentity <$> Guest.contractAddress
  | txHash => .ofIdentity <$> Guest.txHash
  | timestamp => .number <$> Guest.timestamp
  | blockHeight => .number <$> Guest.blockHeight
  | chainId => .ofOption .bytes <$> Guest.chainId?
  | isCompatible expected => .truth <$> Guest.isCompatible expected
  | blockHash height => .ofOption .ofIdentity <$> Guest.blockHash? height
  | merkleRoot height => .ofOption .ofIdentity <$> Guest.merkleRoot? height
  | stateRoot height => .ofOption .ofIdentity <$> Guest.stateRoot? height
  | minerAddress height => .ofOption .ofIdentity <$> Guest.minerAddress? height
  | initParams maxLength => .ofOption .bytes <$> Guest.initParams? maxLength
  | contractParams maxLength => .ofOption .bytes <$> Guest.contractParams? maxLength
  | stateValue key => .ofOption .bytes <$> Guest.stateValue? key
  | confirmedState stateId => .ofOption .state <$> Guest.confirmedState? stateId
  | stateVersion stateId => .number <$> Guest.stateVersion stateId
  | utxo point => .ofOption .utxo <$> Guest.utxo? point
  | utxoExists point => .truth <$> Guest.utxoExists point
  | resource contentHash => .ofOption .resource <$> Guest.resource? contentHash
  | resourceExists contentHash => .truth <$> Guest.resourceExists contentHash
  | balance address tokenId => .number <$> Guest.balance address tokenId
  | base58Of address => .ofOption .text <$> Guest.base58Of? address
  | addressOfBase58 text => .ofOption .ofIdentity <$> Guest.addressOfBase58? text
  | addressText address => .text <$> Guest.addressText address

/-! ## Reports -/

/-- What the host is told. -/
inductive ReportStep where
  | setReturnData (data : Bytes)
  | emitEvent (event : String)
  | logDebug (message : String)
  | createOutput (recipient : Address) (amount : UInt64) (tokenId : Option String)
  | createLockedOutput (recipient : Address) (amount : UInt64)
      (tokenId lockingConditions : Option String)
  | appendState (stateId : Bytes) (version : UInt64) (execHash : Hash)
      (publicInputs : Option Bytes) (parentHash : Option Hash)
  | appendResource (resource : Bytes) (owner : Address) (lockingConditions : Option String)
  | createBatch (items : List BatchItem)
  | declareState (claim : String)
  | provideEvidence (claimId evidence : String)
  | controlledState (claimId : String)

/-- Tells the host. -/
def ReportStep.run : ReportStep → Guest Answer
  | setReturnData data => .ofExcept (fun _ => .nothing) <$> Guest.setReturnData data
  | emitEvent event => .ofExcept (fun _ => .nothing) <$> Guest.emitEvent event
  | logDebug message => .ofExcept (fun _ => .nothing) <$> Guest.logDebug message
  | createOutput recipient amount tokenId => .word <$> Guest.createOutput recipient amount tokenId
  | createLockedOutput recipient amount tokenId locking =>
    .word <$> Guest.createLockedOutput recipient amount tokenId locking
  | appendState stateId version execHash publicInputs parentHash =>
    .word <$> Guest.appendState stateId version execHash publicInputs parentHash
  | appendResource resource owner locking => .word <$> Guest.appendResource resource owner locking
  | createBatch items => .word <$> Guest.createBatch items
  | declareState claim => .ofOption .text <$> Guest.declareState? claim
  | provideEvidence claimId evidence => .truth <$> Guest.provideEvidence claimId evidence
  | controlledState claimId => .ofOption .text <$> Guest.controlledState? claimId

/-! ## Builders -/

/-- Work on a transaction builder. -/
inductive BuilderStep where
  | start
  | addOutput (output : OutputDraft)
  | addIntent (intent : IntentDraft)
  | setSignMode (mode : SignMode)
  | finalize
  | build

/-- Works on a builder, and answers with the builder that is left. -/
def BuilderStep.run (builder : Builder) : BuilderStep → Guest (Answer × Builder)
  | start => return (.builder .fresh, .fresh)
  | addOutput output =>
    let builder := builder.addOutput output
    return (.builder builder, builder)
  | addIntent intent =>
    let builder := builder.addIntent intent
    return (.builder builder, builder)
  | setSignMode mode =>
    let builder := builder.setSignMode mode
    return (.builder builder, builder)
  | finalize => do
    let (result, builder) ← Guest.finalize builder
    return (.outcome result, builder)
  | build => do
    let receipt ← Guest.build builder.draft
    return (.ofExcept (fun receipt => .text receipt.json) receipt, builder)

/-! ## All steps -/

/-- What a session holds beside the world: its builders, and the invocation
that its calls share. -/
structure Locals where
  /-- The builders by slot. -/
  builders : Table UInt32 Builder
  /-- The invocation, once it was loaded. -/
  invocation : Option Invocation

namespace Locals

/-- No builder and no invocation. -/
def none : Locals := ⟨.empty, .none⟩

/-- The builder in a slot.  A slot that was never used holds a fresh one. -/
def builder (locals : Locals) (slot : UInt32) : Builder :=
  (locals.builders.find? slot).getD .fresh

/-- Puts a builder into a slot. -/
def setBuilder (locals : Locals) (slot : UInt32) (builder : Builder) : Locals :=
  { locals with builders := locals.builders.insert slot builder }

end Locals

/-- One thing that can be done across the boundary. -/
inductive Step where
  | configure (setting : Setting)
  | reset
  | dump
  | memory (step : MemoryStep)
  | raw (step : RawStep)
  | query (step : QueryStep)
  | report (step : ReportStep)
  | builder (slot : UInt32) (step : BuilderStep)
  | loadInvocation
  | transfer
  | vote (proposal choice : String)

namespace Step

/-- The invocation that the calls of a session share, loaded if there is none. -/
def sharedInvocation (locals : Locals) : Guest Invocation :=
  match locals.invocation with
  | some invocation => return invocation
  | none => Guest.loadInvocation

/-- Enters the contract with the shared invocation. -/
def enter (locals : Locals) (entry : Invocation → Guest UInt32) : Guest (Answer × Locals) := do
  let invocation ← sharedInvocation locals
  let status ← entry invocation
  return (.word status, { locals with invocation := some invocation })

/-- Carries out a step. -/
def run (locals : Locals) : Step → Guest (Answer × Locals)
  | configure setting => do
    modify fun world => { world with host := world.host.configure setting }
    return (.nothing, locals)
  | reset => do
    modify fun world => { world with host := .initial }
    return (.nothing, locals)
  | dump => do
    let host := (← get).host
    return (.told host.records host.policy.budget, locals)
  | memory step => do return (← step.run, locals)
  | raw step => do return (← step.run, locals)
  | query step => do return (← step.run, locals)
  | report step => do return (← step.run, locals)
  | builder slot step => do
    let (answer, left) ← step.run (locals.builder slot)
    return (answer, locals.setBuilder slot left)
  | loadInvocation => do
    let invocation ← Guest.loadInvocation
    return (.invocation invocation, { locals with invocation := some invocation })
  | transfer => enter locals Token.transfer
  | vote proposal choice => enter locals fun invocation => Token.vote invocation proposal choice

end Step

end HostBoundary
