import HostBoundary.Buffer
import HostBoundary.Host.LinearMemory
import HostBoundary.Host.Table
import HostBoundary.Identity

/-!
# The host

A host is a value with five parts:

* the *memory* that it shares with the contract, whose bytes are the *arena*;
* the *allocation policy*, which says how many more regions it grants;
* the *requests* for regions that were made, each with what was answered;
* the *setup*, what it was configured to answer;
* the *records*, what it was told.

## Who changes what

A call by a contract may extend the arena, write into it, use up the policy,
and add to the requests and the records.  No call changes the setup: it changes only from
outside, by a `Setting`.  Keeping the parts apart makes that visible in the
types: a call that is defined by its effect on the records has no way to touch
the setup.

The arena begins with eight bytes that are never allocated, so that the null
pointer is nobody's region.
-/

namespace HostBoundary

/-- Which allocations the host grants. -/
structure AllocationPolicy where
  /-- Whether it refuses every allocation. -/
  refuses : Bool
  /-- How many more it grants, if there is a limit. -/
  budget : Option Nat
deriving DecidableEq, Repr

/-- A request for a region, and what it was answered with. -/
structure AllocationRequest where
  /-- How many bytes were asked for. -/
  size : UInt32
  /-- Where they begin, or the null pointer. -/
  pointer : UInt32
deriving DecidableEq, Repr

namespace AllocationRequest

/-- Whether the region was granted. -/
def granted (request : AllocationRequest) : Bool := request.pointer != nullPointer

end AllocationRequest

/-- What the host was configured to answer. -/
structure Setup where
  /-- The version of the boundary: major, minor and patch. -/
  abiVersion : UInt32
  /-- Who calls. -/
  caller : Bytes
  /-- The contract that is called. -/
  contractAddress : Bytes
  /-- The time of the current block. -/
  timestamp : UInt64
  /-- The height of the current block. -/
  blockHeight : UInt64
  /-- Block hashes by height. -/
  blockHashes : Table UInt64 Bytes
  /-- Roots of the transaction trees by height. -/
  merkleRoots : Table UInt64 Bytes
  /-- Roots of the state trees by height. -/
  stateRoots : Table UInt64 Bytes
  /-- Miners by height. -/
  miners : Table UInt64 Bytes
  /-- The current transaction. -/
  txHash : Bytes
  /-- Its index in the block. -/
  txIndex : UInt32
  /-- The identifier of the chain. -/
  chainId : Bytes
  /-- The parameters of the call. -/
  initParams : Bytes
  /-- The state of the contract by key. -/
  state : Table Bytes Bytes
  /-- Confirmed values and versions by state id. -/
  chainState : Table Bytes (Bytes × UInt64)
  /-- Versions by state id. -/
  stateVersions : Table Bytes UInt64
  /-- Descriptions of outputs by transaction and index. -/
  utxos : Table (Bytes × UInt32) String
  /-- Descriptions of resources by content hash. -/
  resources : Table Bytes String
  /-- Balances by address and token id; the native token has the empty id. -/
  balances : Table (Bytes × Bytes) UInt64
  /-- Base58 texts by address. -/
  base58 : Table Bytes String
  /-- Claim ids by declared claim. -/
  claimIds : Table String String
  /-- Controlled states by claim id. -/
  controlledState : Table String String
  /-- What a successful build writes. -/
  receipt : Bytes
  /-- What a build answers. -/
  buildStatus : UInt32
  /-- What the calls that append outputs answer, if not the index. -/
  appendStatus : Option UInt32
  /-- What a debug message is answered with. -/
  logStatus : UInt32

/-- An asset output that the host was asked for.  The locking conditions are
empty for a plain output. -/
structure AssetRecord where
  recipient : Bytes
  amount : UInt64
  tokenId : String
  lockingConditions : String
deriving DecidableEq, Repr

/-- A state output that the host was asked for. -/
structure StateRecord where
  stateId : Bytes
  version : UInt64
  execHash : Bytes
  publicInputs : Bytes
  parentHash : Option Bytes
deriving DecidableEq, Repr

/-- A resource output that the host was asked for. -/
structure ResourceRecord where
  resource : Bytes
  owner : Bytes
  lockingConditions : String
deriving DecidableEq, Repr

/-- What the host was told, each list in the order of the calls. -/
structure Records where
  /-- The answer of the contract, if it gave one. -/
  returnData : Option Bytes
  /-- Emitted events. -/
  events : List String
  /-- Debug messages. -/
  logs : List String
  /-- Drafts that were sent for building. -/
  drafts : List String
  /-- Appended state outputs. -/
  stateOutputs : List StateRecord
  /-- Appended resource outputs. -/
  resourceOutputs : List ResourceRecord
  /-- Created asset outputs. -/
  assetOutputs : List AssetRecord
  /-- Accepted evidence: the claim id and the evidence. -/
  evidence : List (String × String)
  /-- Batches of outputs. -/
  batches : List String
  /-- How many outputs were numbered. -/
  outputCount : UInt32
deriving DecidableEq, Repr

/-- A host. -/
structure Host where
  /-- The shared linear memory. -/
  memory : LinearMemory
  /-- Which allocations it grants. -/
  policy : AllocationPolicy
  /-- The allocations that were asked for, in order. -/
  requests : List AllocationRequest
  /-- What it was configured to answer. -/
  setup : Setup
  /-- What it was told. -/
  records : Records

namespace Host

/-- The bytes of the shared memory. -/
def arena (host : Host) : Bytes := host.memory.bytes

/-- The host with other bytes in its memory. -/
def withArena (host : Host) (arena : Bytes) : Host := { host with memory := .ofBytes arena }

@[simp] theorem arena_withArena (host : Host) (arena : Bytes) :
    (host.withArena arena).arena = arena := rfl

/-- The memory knows how long the arena is. -/
@[simp] theorem size_memory (host : Host) : host.memory.size = host.arena.length :=
  host.memory.length_contents.symm

/-- A memory grows at the end of the arena. -/
theorem grow_memory (host : Host) (count : Nat) :
    host.memory.grow count = .ofBytes (host.arena ++ List.replicate count 0) :=
  host.memory.grow_eq count

end Host

/-! ## A fresh host -/

/-- The policy of a host that grants whatever fits. -/
def AllocationPolicy.unlimited : AllocationPolicy := ⟨false, none⟩

/-- The receipt that a host writes unless it is told otherwise. -/
def defaultReceipt : String := "\x7b\"tx_hash\":\"mock\",\"error\":null\x7d"

/-- The setup of a host that knows nothing. -/
def Setup.initial : Setup where
  abiVersion := 0x00010000
  caller := []
  contractAddress := []
  timestamp := 0
  blockHeight := 0
  blockHashes := .empty
  merkleRoots := .empty
  stateRoots := .empty
  miners := .empty
  txHash := []
  txIndex := 0
  chainId := []
  initParams := []
  state := .empty
  chainState := .empty
  stateVersions := .empty
  utxos := .empty
  resources := .empty
  balances := .empty
  base58 := .empty
  claimIds := .empty
  controlledState := .empty
  receipt := Utf8.encode defaultReceipt
  buildStatus := 0
  appendStatus := none
  logStatus := 0

/-- The records of a host that was told nothing. -/
def Records.none : Records where
  returnData := .none
  events := []
  logs := []
  drafts := []
  stateOutputs := []
  resourceOutputs := []
  assetOutputs := []
  evidence := []
  batches := []
  outputCount := 0

namespace Host

/-- How many bytes at the front of the arena are never allocated. -/
def arenaBase : Nat := 8

/-- A fresh host. -/
def initial : Host where
  memory := .ofBytes (List.replicate arenaBase 0)
  policy := .unlimited
  requests := []
  setup := .initial
  records := .none

instance : Inhabited Host := ⟨initial⟩

end Host

/-! ## Settings -/

/-- An entry of one of the tables that the host answers from, by its key. -/
inductive SetupEntry where
  | blockHash (height : UInt64)
  | merkleRoot (height : UInt64)
  | stateRoot (height : UInt64)
  | miner (height : UInt64)
  | state (key : Bytes)
  | chainState (key : Bytes)
  | stateVersion (key : Bytes)
  | utxo (txHash : Bytes) (index : UInt32)
  | resource (contentHash : Bytes)
  | balance (address tokenId : Bytes)
  | base58 (address : Bytes)
  | claimId (claim : String)
  | controlledState (id : String)

/-- The setup without an entry. -/
def Setup.forget (s : Setup) : SetupEntry → Setup
  | .blockHash height => { s with blockHashes := s.blockHashes.erase height }
  | .merkleRoot height => { s with merkleRoots := s.merkleRoots.erase height }
  | .stateRoot height => { s with stateRoots := s.stateRoots.erase height }
  | .miner height => { s with miners := s.miners.erase height }
  | .state key => { s with state := s.state.erase key }
  | .chainState key => { s with chainState := s.chainState.erase key }
  | .stateVersion key => { s with stateVersions := s.stateVersions.erase key }
  | .utxo tx index => { s with utxos := s.utxos.erase (tx, index) }
  | .resource contentHash => { s with resources := s.resources.erase contentHash }
  | .balance address tokenId => { s with balances := s.balances.erase (address, tokenId) }
  | .base58 address => { s with base58 := s.base58.erase address }
  | .claimId claim => { s with claimIds := s.claimIds.erase claim }
  | .controlledState id => { s with controlledState := s.controlledState.erase id }

/-- Only tables forget. -/
@[simp] theorem Setup.appendStatus_forget (s : Setup) (entry : SetupEntry) :
    (s.forget entry).appendStatus = s.appendStatus := by
  cases entry <;> rfl

/-- A change of what the host answers or grants.  Of a table, an entry is either set or
forgotten. -/
inductive Setting where
  | failAlloc (refuses : Bool)
  | allocBudget (budget : Option Nat)
  | abiVersion (version : UInt32)
  | caller (bytes : Bytes)
  | contractAddress (bytes : Bytes)
  | timestamp (time : UInt64)
  | blockHeight (height : UInt64)
  | blockHash (height : UInt64) (bytes : Bytes)
  | merkleRoot (height : UInt64) (bytes : Bytes)
  | stateRoot (height : UInt64) (bytes : Bytes)
  | miner (height : UInt64) (bytes : Bytes)
  | txHash (bytes : Bytes)
  | txIndex (index : UInt32)
  | chainId (bytes : Bytes)
  | initParams (bytes : Bytes)
  | state (key value : Bytes)
  | chainState (key value : Bytes) (version : UInt64)
  | stateVersion (key : Bytes) (version : UInt64)
  | utxo (txHash : Bytes) (index : UInt32) (description : String)
  | resource (contentHash : Bytes) (description : String)
  | balance (address tokenId : Bytes) (amount : UInt64)
  | base58 (address : Bytes) (text : String)
  | claimId (claim id : String)
  | controlledState (id state : String)
  | receipt (bytes : Bytes)
  | buildStatus (status : UInt32)
  | appendStatus (status : Option UInt32)
  | logStatus (status : UInt32)
  | forget (entry : SetupEntry)

namespace Setting

/-- The policy after a setting. -/
def onPolicy : Setting → AllocationPolicy → AllocationPolicy
  | failAlloc refuses, policy => { policy with refuses }
  | allocBudget budget, policy => { policy with budget }
  | _, policy => policy

/-- The setup after a setting. -/
def onSetup : Setting → Setup → Setup
  | abiVersion version, s => { s with abiVersion := version }
  | caller bytes, s => { s with caller := bytes }
  | contractAddress bytes, s => { s with contractAddress := bytes }
  | timestamp time, s => { s with timestamp := time }
  | blockHeight height, s => { s with blockHeight := height }
  | blockHash height bytes, s => { s with blockHashes := s.blockHashes.insert height bytes }
  | merkleRoot height bytes, s => { s with merkleRoots := s.merkleRoots.insert height bytes }
  | stateRoot height bytes, s => { s with stateRoots := s.stateRoots.insert height bytes }
  | miner height bytes, s => { s with miners := s.miners.insert height bytes }
  | txHash bytes, s => { s with txHash := bytes }
  | txIndex index, s => { s with txIndex := index }
  | chainId bytes, s => { s with chainId := bytes }
  | initParams bytes, s => { s with initParams := bytes }
  | state key value, s => { s with state := s.state.insert key value }
  | chainState key value version, s =>
    { s with chainState := s.chainState.insert key (value, version) }
  | stateVersion key version, s => { s with stateVersions := s.stateVersions.insert key version }
  | utxo tx index description, s =>
    { s with utxos := s.utxos.insert (tx, index) description }
  | resource contentHash description, s =>
    { s with resources := s.resources.insert contentHash description }
  | balance address tokenId amount, s =>
    { s with balances := s.balances.insert (address, tokenId) amount }
  | base58 address text, s => { s with base58 := s.base58.insert address text }
  | claimId claim id, s => { s with claimIds := s.claimIds.insert claim id }
  | controlledState id value, s =>
    { s with controlledState := s.controlledState.insert id value }
  | receipt bytes, s => { s with receipt := bytes }
  | buildStatus status, s => { s with buildStatus := status }
  | appendStatus status, s => { s with appendStatus := status }
  | logStatus status, s => { s with logStatus := status }
  | forget entry, s => s.forget entry
  | failAlloc _, s | allocBudget _, s => s

end Setting

/-- The host after a setting.  Arena, requests and records stay as they are. -/
def Host.configure (host : Host) (setting : Setting) : Host :=
  { host with
    policy := setting.onPolicy host.policy
    setup := setting.onSetup host.setup }

end HostBoundary
