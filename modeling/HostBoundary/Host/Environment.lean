import HostBoundary.Host.Arena

/-!
# Questions about the call

Who calls, which block and which transaction this is.  Numbers are answered
directly; byte strings are written into a buffer, whose capacity the host takes
for granted.  A height that is not known answers like an empty reply.
-/

namespace HostBoundary

namespace Host

/-- The capacity that the host takes for granted for an address. -/
def addressCapacity : UInt32 := 20

/-- The capacity that the host takes for granted for a hash. -/
def hashCapacity : UInt32 := 32

/-- The capacity that the host takes for granted for a chain id. -/
def chainIdCapacity : UInt32 := 64

/-- The version of the boundary. -/
def abiVersion : HostCall UInt32 := configured Setup.abiVersion

/-- The time of the current block. -/
def timestamp : HostCall UInt64 := configured Setup.timestamp

/-- The height of the current block. -/
def blockHeight : HostCall UInt64 := configured Setup.blockHeight

/-- The index of the current transaction. -/
def txIndex : HostCall UInt32 := configured Setup.txIndex

/-- Writes the caller. -/
def caller (pointer : UInt32) : HostCall UInt32 := do
  fill pointer addressCapacity (← configured Setup.caller)

/-- Writes the contract that is called. -/
def contractAddress (pointer : UInt32) : HostCall UInt32 := do
  fill pointer addressCapacity (← configured Setup.contractAddress)

/-- Writes the current transaction. -/
def txHash (pointer : UInt32) : HostCall UInt32 := do
  fill pointer hashCapacity (← configured Setup.txHash)

/-- Writes the identifier of the chain. -/
def chainId (pointer : UInt32) : HostCall UInt32 := do
  fill pointer chainIdCapacity (← configured Setup.chainId)

/-- Writes the parameters of the call. -/
def initParams (pointer capacity : UInt32) : HostCall UInt32 := do
  fill pointer capacity (← configured Setup.initParams)

/-- Writes what a table holds for a height. -/
def atHeight (table : Setup → Table UInt64 Bytes) (capacity : UInt32) (height : UInt64)
    (pointer : UInt32) : HostCall UInt32 := do
  fill pointer capacity (((← configured table).find? height).getD [])

/-- Writes the hash of a block. -/
def blockHash (height : UInt64) (pointer : UInt32) : HostCall UInt32 :=
  atHeight Setup.blockHashes hashCapacity height pointer

/-- Writes the root of the transactions of a block. -/
def merkleRoot (height : UInt64) (pointer : UInt32) : HostCall UInt32 :=
  atHeight Setup.merkleRoots hashCapacity height pointer

/-- Writes the root of the state after a block. -/
def stateRoot (height : UInt64) (pointer : UInt32) : HostCall UInt32 :=
  atHeight Setup.stateRoots hashCapacity height pointer

/-- Writes the miner of a block. -/
def miner (height : UInt64) (pointer : UInt32) : HostCall UInt32 :=
  atHeight Setup.miners addressCapacity height pointer

end Host

end HostBoundary
