import HostBoundary.Proofs.Growth
import HostBoundary.Session.Step

/-!
# Every operation is safe

One lemma for each host call, and one for each operation of the contract side
that makes it.  Each follows the definition it is about, one rule for one line,
and checks at the call that every argument may be read and that the reply has
room where the host will write it.

Questions leave all records alone, so they are safe for every view.  A report
is safe for every view that does not show what the report changes; each lemma
names that change.
-/

namespace HostBoundary

variable {β : Type} {view : Records → β} {base : Nat} {held : List Buffer}

/-! ## Host calls -/

namespace HostCall

section Questions

variable {pointer capacity : UInt32}

theorem safe_fillConfigured {ask : Setup → Bytes}
    (place : Writable base held pointer capacity.toNat) :
    Safe view base held (do Host.fill pointer capacity (← Host.configured ask)) :=
  (safe_configured ask).bind fun _ => safe_fill place

theorem safe_atHeight {table : Setup → Table UInt64 Bytes} (height : UInt64)
    (place : Writable base held pointer capacity.toNat) :
    Safe view base held (Host.atHeight table capacity height pointer) :=
  (safe_configured table).bind fun _ => safe_fill place

variable {key keyLength : UInt32} (argument : Readable held key keyLength)

include argument

theorem safe_stateValue (place : Writable base held pointer capacity.toNat) :
    Safe view base held (Host.stateValue key keyLength pointer capacity) :=
  (safe_readArgument argument).bind fun _ => (safe_configured _).bind fun _ => safe_fill place

theorem safe_confirmedState {version : UInt32}
    (place : Writable base held pointer capacity.toNat) (versionPlace : Writable base held version 8) :
    Safe view base held (Host.confirmedState key keyLength pointer capacity version) := by
  refine (safe_readArgument argument).bind fun id => (safe_configured _).bind fun states => ?_
  split
  · exact safe_pure 1
  · refine (safe_fill place).bind fun written => ?_
    split
    · exact safe_pure 1
    · refine (safe_write ?_).bind fun _ => safe_pure 0
      rwa [Bytes.length_ofUInt64]

theorem safe_stateVersion : Safe view base held (Host.stateVersion key keyLength) :=
  (safe_readArgument argument).bind fun _ => (safe_configured _).bind fun _ => safe_pure _

theorem safe_utxoDescription {index : UInt32}
    (place : Writable base held pointer capacity.toNat) :
    Safe view base held (Host.utxoDescription key keyLength index pointer capacity) :=
  (safe_readArgument argument).bind fun _ => (safe_configured _).bind fun _ => safe_fill place

theorem safe_utxoExists {index : UInt32} :
    Safe view base held (Host.utxoExists key keyLength index) :=
  (safe_readArgument argument).bind fun _ => (safe_configured _).bind fun _ => safe_pure _

theorem safe_resourceDescription (place : Writable base held pointer capacity.toNat) :
    Safe view base held (Host.resourceDescription key keyLength pointer capacity) :=
  (safe_readArgument argument).bind fun _ => (safe_configured _).bind fun _ => safe_fill place

theorem safe_resourceExists : Safe view base held (Host.resourceExists key keyLength) :=
  (safe_readArgument argument).bind fun _ => (safe_configured _).bind fun _ => safe_pure _

theorem safe_balance {address : UInt32}
    (holder : Readable held address Host.addressCapacity) :
    Safe view base held (Host.balance address key keyLength) :=
  (safe_readArgument holder).bind fun _ => (safe_readArgument argument).bind fun _ =>
    (safe_configured _).bind fun _ => safe_pure _

theorem safe_addressOfBase58
    (place : Writable base held pointer Host.addressCapacity.toNat) :
    Safe view base held (Host.addressOfBase58 key keyLength pointer) :=
  (safe_readText argument).bind fun _ => (safe_configured _).bind fun _ => safe_fill place

omit argument

theorem safe_base58OfAddress {address : UInt32}
    (holder : Readable held address Host.addressCapacity)
    (place : Writable base held pointer capacity.toNat) :
    Safe view base held (Host.base58OfAddress address pointer capacity) :=
  (safe_readArgument holder).bind fun _ => (safe_configured _).bind fun _ => safe_fill place

end Questions

section Reports

/-- The view shows neither outputs nor batches nor their number. -/
def OutputsUnseen (view : Records → β) : Prop :=
  ∀ (r : Records) (assets : List AssetRecord) (states : List StateRecord)
    (resources : List ResourceRecord) (batches : List String) (count : UInt32),
    view { r with
      assetOutputs := assets, stateOutputs := states, resourceOutputs := resources
      batches := batches, outputCount := count } = view r

variable {pointer length token tokenLength locking lockingLength : UInt32}

theorem safe_setReturnData (unseen : ∀ r data, view { r with returnData := data } = view r)
    (argument : Readable held pointer length) :
    Safe view base held (Host.setReturnData pointer length) :=
  (safe_readArgument argument).bind fun data =>
    (safe_record fun r => unseen r (some data)).bind fun _ => safe_pure 0

theorem safe_emitEvent (unseen : ∀ r events, view { r with events := events } = view r)
    (argument : Readable held pointer length) :
    Safe view base held (Host.emitEvent pointer length) :=
  (safe_readText argument).bind fun event =>
    (safe_record fun r => unseen r (r.events ++ [event])).bind fun _ => safe_pure 0

theorem safe_logDebug (unseen : ∀ r logs, view { r with logs := logs } = view r)
    (argument : Readable held pointer length) :
    Safe view base held (Host.logDebug pointer length) :=
  (safe_readText argument).bind fun message =>
    (safe_record fun r => unseen r (r.logs ++ [message])).bind fun _ => safe_configured _

theorem safe_nextOutput (unseen : OutputsUnseen view) : Safe view base held Host.nextOutput := by
  refine (safe_configured Setup.appendStatus).bind fun status => ?_
  cases status with
  | some status => exact safe_pure status
  | none =>
    exact safe_get.bind fun host =>
      (safe_record fun r => unseen r r.assetOutputs r.stateOutputs r.resourceOutputs r.batches
        (host.records.outputCount + 1)).bind fun _ => safe_pure _

theorem safe_recordAsset (unseen : OutputsUnseen view) (asset : AssetRecord) :
    Safe view base held (Host.recordAsset asset) :=
  (safe_record fun r => unseen r (r.assetOutputs ++ [asset]) r.stateOutputs r.resourceOutputs
    r.batches r.outputCount).bind fun _ => safe_nextOutput unseen

theorem safe_createOutput (unseen : OutputsUnseen view) {recipient : UInt32} {amount : UInt64}
    (payee : Readable held recipient Host.addressCapacity)
    (tokenId : Readable held token tokenLength) :
    Safe view base held (Host.createOutput recipient amount token tokenLength) :=
  (safe_readArgument payee).bind fun _ => (safe_readText tokenId).bind fun _ =>
    safe_recordAsset unseen _

theorem safe_createLockedOutput (unseen : OutputsUnseen view)
    {recipient recipientLength : UInt32} {amount : UInt64}
    (payee : Readable held recipient recipientLength)
    (tokenId : Readable held token tokenLength)
    (conditions : Readable held locking lockingLength) :
    Safe view base held (Host.createLockedOutput recipient recipientLength amount
      token tokenLength locking lockingLength) :=
  (safe_readArgument payee).bind fun _ => (safe_readText tokenId).bind fun _ =>
    (safe_readText conditions).bind fun _ => safe_recordAsset unseen _

/-- The parent hash is read with the length of a hash, where it is not null. -/
theorem safe_appendState (unseen : OutputsUnseen view)
    {id idLength execHash inputs inputsLength parent : UInt32} {version : UInt64}
    (stateId : Readable held id idLength) (hash : Readable held execHash Host.hashCapacity)
    (publicInputs : Readable held inputs inputsLength)
    (parentHash : Readable held parent Host.hashCapacity) :
    Safe view base held
      (Host.appendState id idLength version execHash inputs inputsLength parent) := by
  refine (safe_readArgument stateId).bind fun stateId => (safe_readArgument hash).bind fun hash =>
    (safe_readArgument publicInputs).bind fun publicInputs => ?_
  -- the same record follows, with a parent hash or without
  have taken : ∀ parentHash, Safe view base held (do
      Host.record fun r => { r with stateOutputs :=
        r.stateOutputs ++ [⟨stateId, version, hash, publicInputs, parentHash⟩] }
      Host.nextOutput) := fun _ =>
    (safe_record fun r => unseen r r.assetOutputs (r.stateOutputs ++ _) r.resourceOutputs
      r.batches r.outputCount).bind fun _ => safe_nextOutput unseen
  dsimp only
  split
  · exact taken none
  · next present =>
    obtain ⟨buffer, mem, covers⟩ :=
      (parentHash.resolve_left present).resolve_left (by decide)
    exact (safe_read mem covers).bind fun bytes => taken (some bytes)

theorem safe_appendResource (unseen : OutputsUnseen view)
    {resource resourceLength owner ownerLength : UInt32}
    (content : Readable held resource resourceLength)
    (holder : Readable held owner ownerLength)
    (conditions : Readable held locking lockingLength) :
    Safe view base held (Host.appendResource resource resourceLength owner ownerLength
      locking lockingLength) :=
  (safe_readArgument content).bind fun _ => (safe_readArgument holder).bind fun _ =>
    (safe_readText conditions).bind fun _ =>
      (safe_record fun r => unseen r r.assetOutputs r.stateOutputs (r.resourceOutputs ++ _)
        r.batches r.outputCount).bind fun _ => safe_nextOutput unseen

theorem safe_createBatch (unseen : OutputsUnseen view) (argument : Readable held pointer length) :
    Safe view base held (Host.createBatch pointer length) := by
  refine (safe_readText argument).bind fun batch => ?_
  refine (safe_record fun r => unseen r r.assetOutputs r.stateOutputs r.resourceOutputs
    (r.batches ++ [batch]) r.outputCount).bind fun _ => ?_
  refine (safe_configured Setup.appendStatus).bind fun status => ?_
  cases status with
  | some status => exact safe_pure status
  | none =>
    exact (safe_record fun r => unseen r r.assetOutputs r.stateOutputs r.resourceOutputs
      r.batches (r.outputCount + UInt32.ofNat (Host.recipientCount batch))).bind
        fun _ => safe_pure _

theorem safe_buildTransaction (unseen : ∀ r drafts, view { r with drafts := drafts } = view r)
    {receipt receiptLength : UInt32} (argument : Readable held pointer length)
    (place : Writable base held receipt receiptLength.toNat) :
    Safe view base held (Host.buildTransaction pointer length receipt receiptLength) := by
  refine (safe_readText argument).bind fun draft => ?_
  refine (safe_record fun r => unseen r (r.drafts ++ [draft])).bind fun _ => ?_
  refine (safe_configured Setup.buildStatus).bind fun status => ?_
  split
  · refine (safe_configured Setup.receipt).bind fun bytes => ?_
    obtain ⟨above, buffer, mem, same, fits⟩ := place
    -- the receipt is cut off at its room before it is written
    refine (safe_write ⟨above, buffer, mem, same, ?_⟩).bind fun _ => safe_pure status
    exact Nat.le_trans (List.length_take_le _ _) fits
  · exact safe_pure status

theorem safe_declareState {capacity : UInt32} {claim claimLength : UInt32}
    (argument : Readable held claim claimLength)
    (place : Writable base held pointer capacity.toNat) :
    Safe view base held (Host.declareState claim claimLength pointer capacity) :=
  (safe_readText argument).bind fun _ => (safe_configured _).bind fun _ => safe_fill place

theorem safe_provideEvidence (unseen : ∀ r evidence, view { r with evidence := evidence } = view r)
    {id idLength evidence evidenceLength : UInt32} (claim : Readable held id idLength)
    (proof : Readable held evidence evidenceLength) :
    Safe view base held (Host.provideEvidence id idLength evidence evidenceLength) := by
  refine (safe_readText claim).bind fun id => (safe_configured _).bind fun claims => ?_
  split
  · exact (safe_readText proof).bind fun evidence =>
      (safe_record fun r => unseen r (r.evidence ++ [(id, evidence)])).bind fun _ => safe_pure 1
  · exact safe_pure 0

theorem safe_controlledState {capacity : UInt32} {id idLength : UInt32}
    (argument : Readable held id idLength)
    (place : Writable base held pointer capacity.toNat) :
    Safe view base held (Host.controlledState id idLength pointer capacity) :=
  (safe_readText argument).bind fun _ => (safe_configured _).bind fun _ => safe_fill place

end Reports

end HostCall

/-! ## Memory -/

namespace Guest

theorem safe_allocate (length : UInt32) : Safe view base held (allocate length) := by
  intro world pos reached _
  have nonempty : world.host.SparesNull := Nat.lt_of_lt_of_le pos reached
  by_cases grants : world.host.Grants
  · refine ⟨_, _, allocate_of_grants grants nonempty length, ?_⟩
    refine Host.growth_granted grants ?_ pos reached
    rw [List.length_replicate]
    exact length.toNat_lt
  · exact ⟨_, _, allocate_of_not_grants grants length, Host.growth_refused grants length⟩

theorem safe_reserve (length : UInt32) : Safe view base held (reserve length) := by
  rw [← bind_pure (reserve length)]
  exact safe_bind_reserve (fun _ => safe_pure _) fun _ _ _ => safe_pure _

theorem safe_writeBytes (bytes : Bytes) : Safe view base held (writeBytes bytes) := by
  rw [← bind_pure (writeBytes bytes)]
  exact safe_bind_writeBytes (fun _ => safe_pure _) fun _ _ => safe_pure _

theorem safe_allocateBytes (bytes : Bytes) : Safe view base held (allocateBytes bytes) :=
  (safe_writeBytes bytes).bind fun _ => safe_pure _

theorem safe_readText? {pointer length : UInt32} (readable : Readable held pointer length) :
    Safe view base held (readText? pointer length) :=
  (safe_readBytes readable).bind fun _ => safe_pure _

theorem safe_readText {pointer length : UInt32} (readable : Readable held pointer length) :
    Safe view base held (readText pointer length) := by
  refine (safe_readText? readable).bind fun text => ?_
  cases text with
  | ok text => exact safe_pure text
  | error error => exact (safe_emit _).bind fun _ => safe_pure ""

/-! ## Questions -/

theorem safe_configured {α : Type} (ask : Setup → α) :
    Safe view base held (call (Host.configured ask)) :=
  safe_call (HostCall.safe_configured ask)

theorem safe_caller : Safe view base held caller :=
  (safe_replyAddress? fun _ _ _ place => HostCall.safe_fillConfigured place).bind
    fun _ => safe_pure _

theorem safe_contractAddress : Safe view base held contractAddress :=
  (safe_replyAddress? fun _ _ _ place => HostCall.safe_fillConfigured place).bind
    fun _ => safe_pure _

theorem safe_txHash : Safe view base held txHash :=
  (safe_replyHash? fun _ _ _ place => HostCall.safe_fillConfigured place).bind
    fun _ => safe_pure _

theorem safe_blockHash? (height : UInt64) : Safe view base held (blockHash? height) :=
  safe_replyHash? fun _ _ _ place => HostCall.safe_atHeight height place

theorem safe_merkleRoot? (height : UInt64) : Safe view base held (merkleRoot? height) :=
  safe_replyHash? fun _ _ _ place => HostCall.safe_atHeight height place

theorem safe_stateRoot? (height : UInt64) : Safe view base held (stateRoot? height) :=
  safe_replyHash? fun _ _ _ place => HostCall.safe_atHeight height place

theorem safe_minerAddress? (height : UInt64) : Safe view base held (minerAddress? height) :=
  safe_replyAddress? fun _ _ _ place => HostCall.safe_atHeight height place

theorem safe_chainId? : Safe view base held chainId? :=
  safe_reply? fun _ _ _ place => HostCall.safe_fillConfigured place

theorem safe_initParams? (maxLength : UInt32) : Safe view base held (initParams? maxLength) :=
  safe_reply? fun _ _ _ place => HostCall.safe_fillConfigured place

theorem safe_stateValue? (key : String) : Safe view base held (stateValue? key) :=
  safe_bind_writeBytes (fun _ => safe_pure none) fun _ _ =>
    safe_reply? fun _ _ sub place =>
      HostCall.safe_stateValue ((Readable.of_mem List.mem_cons_self).mono sub) place

/-- Two buffers are reserved for the one answer, and each is written for itself. -/
theorem safe_confirmedState? (stateId : String) :
    Safe view base held (confirmedState? stateId) := by
  refine safe_bind_writeBytes (fun _ => safe_pure none) fun id _ => ?_
  refine safe_bind_reserve (fun _ => safe_pure none) fun value valueSize valueAbove => ?_
  refine safe_bind_reserve (fun _ => safe_pure none) fun version versionSize versionAbove => ?_
  have valueMem : value ∈ version :: value :: id :: held := by simp
  have idMem : id ∈ version :: value :: id :: held := by simp
  have versionRoom : 8 ≤ version.length.toNat := by
    rw [versionSize]
    decide
  refine (safe_call (HostCall.safe_confirmedState (.of_mem idMem)
    (.of_mem valueAbove valueMem (Nat.le_refl _))
    (.of_mem versionAbove List.mem_cons_self versionRoom))).bind fun code => ?_
  split
  · refine (safe_readBytes (.of_mem valueMem)).bind fun _ => ?_
    exact (safe_readNumber (.of_length List.mem_cons_self (by rw [versionSize]; rfl))).bind
      fun _ => safe_pure _
  · exact (safe_emit _).bind fun _ => safe_pure none

/-- A call that gives up without its one argument. -/
theorem safe_bind_orAbandon {bytes : Bytes} {γ : Type} {fail : γ} {next : Buffer → Guest γ}
    (safe : ∀ buffer : Buffer, buffer.length.toNat = bytes.length →
      Safe view base (buffer :: held) (next buffer)) :
    Safe view base held (writeBytes bytes >>= fun outcome => orAbandon outcome fail next) :=
  safe_bind_writeBytes (fun _ => (safe_emit _).bind fun _ => safe_pure fail) safe

theorem safe_stateVersion (stateId : String) : Safe view base held (stateVersion stateId) :=
  safe_bind_orAbandon fun _ _ =>
    safe_call (HostCall.safe_stateVersion (.of_mem List.mem_cons_self))

theorem safe_utxo? (point : OutPoint) : Safe view base held (utxo? point) :=
  safe_bind_writeBytes (fun _ => safe_pure none) fun _ _ =>
    (safe_replyText? fun _ _ sub place => HostCall.safe_utxoDescription
      ((Readable.of_mem List.mem_cons_self).mono sub) place).bind fun _ => safe_pure _

theorem safe_utxoExists (point : OutPoint) : Safe view base held (utxoExists point) :=
  safe_bind_orAbandon fun _ _ =>
    (safe_call (HostCall.safe_utxoExists (.of_mem List.mem_cons_self))).bind fun _ => safe_pure _

theorem safe_resource? (contentHash : Hash) : Safe view base held (resource? contentHash) :=
  safe_bind_writeBytes (fun _ => safe_pure none) fun _ _ =>
    (safe_replyText? fun _ _ sub place => HostCall.safe_resourceDescription
      ((Readable.of_mem List.mem_cons_self).mono sub) place).bind fun _ => safe_pure _

theorem safe_resourceExists (contentHash : Hash) :
    Safe view base held (resourceExists contentHash) :=
  safe_bind_orAbandon fun _ _ =>
    (safe_call (HostCall.safe_resourceExists (.of_mem List.mem_cons_self))).bind
      fun _ => safe_pure _

theorem safe_balance (address : Address) (tokenId : Option String) :
    Safe view base held (balance address tokenId) :=
  safe_bind_orAbandon fun _ size =>
    safe_bind_optionalBytes fun _ _ sub sent =>
      safe_call (HostCall.safe_balance (Readable.optional sent)
        ((Readable.identity List.mem_cons_self size rfl).mono sub))

theorem safe_base58Of? (address : Address) : Safe view base held (base58Of? address) :=
  safe_bind_writeBytes (fun _ => safe_pure none) fun _ size =>
    (safe_reply? fun _ _ sub place => HostCall.safe_base58OfAddress
      ((Readable.identity List.mem_cons_self size rfl).mono sub) place).bind fun _ => safe_pure _

theorem safe_addressOfBase58? (text : String) : Safe view base held (addressOfBase58? text) :=
  safe_bind_writeBytes (fun _ => safe_pure none) fun _ _ =>
    safe_replyAddress? fun _ _ sub place => HostCall.safe_addressOfBase58
      ((Readable.of_mem List.mem_cons_self).mono sub) place

theorem safe_addressText (address : Address) : Safe view base held (addressText address) :=
  (safe_base58Of? address).bind fun _ => safe_pure _

/-! ## Reports -/

theorem safe_send {bytes : Bytes} {act : UInt32 → UInt32 → HostCall UInt32}
    (safe : ∀ (pointer length : UInt32) (more : List Buffer), Readable more pointer length →
      HostCall.Safe view base more (act pointer length)) :
    Safe view base held (send bytes act) :=
  safe_bind_writeBytes (fun _ => safe_pure _) fun buffer _ =>
    (safe_call (safe buffer.pointer buffer.length _ (.of_mem List.mem_cons_self))).bind
      fun _ => safe_pure _

theorem safe_setReturnData (unseen : ∀ r data, view { r with returnData := data } = view r)
    (data : Bytes) : Safe view base held (setReturnData data) :=
  safe_send fun _ _ _ argument => HostCall.safe_setReturnData unseen argument

theorem safe_emitEvent (unseen : ∀ r events, view { r with events := events } = view r)
    (event : String) : Safe view base held (emitEvent event) :=
  safe_send fun _ _ _ argument => HostCall.safe_emitEvent unseen argument

theorem safe_logDebug (unseen : ∀ r logs, view { r with logs := logs } = view r)
    (message : String) : Safe view base held (logDebug message) :=
  safe_send fun _ _ _ argument => HostCall.safe_logDebug unseen argument

open HostCall (OutputsUnseen)

theorem safe_createOutput (unseen : OutputsUnseen view) (recipient : Address) (amount : UInt64)
    (tokenId : Option String) : Safe view base held (createOutput recipient amount tokenId) :=
  safe_bind_orAbandon fun _ size =>
    safe_bind_optionalBytes fun _ _ sub sent =>
      safe_call (HostCall.safe_createOutput unseen
        ((Readable.identity List.mem_cons_self size rfl).mono sub) (Readable.optional sent))

theorem safe_createLockedOutput (unseen : OutputsUnseen view) (recipient : Address)
    (amount : UInt64) (tokenId lockingConditions : Option String) :
    Safe view base held (createLockedOutput recipient amount tokenId lockingConditions) :=
  safe_bind_orAbandon fun _ _ =>
    safe_bind_optionalBytes fun _ _ sub sent =>
      safe_bind_optionalBytes fun _ _ sub' sent' =>
        safe_call (HostCall.safe_createLockedOutput unseen
          ((Readable.of_mem List.mem_cons_self).mono (List.Subset.trans sub sub'))
          ((Readable.optional sent).mono sub') (Readable.optional sent'))

theorem safe_appendState (unseen : OutputsUnseen view) (stateId : Bytes) (version : UInt64)
    (execHash : Hash) (publicInputs : Option Bytes) (parentHash : Option Hash) :
    Safe view base held (appendState stateId version execHash publicInputs parentHash) := by
  refine safe_bind_orAbandon fun id _ => safe_bind_orAbandon fun hash hashSize => ?_
  refine safe_bind_optionalBytes fun inputs _ sub sent => ?_
  refine safe_bind_optionalBytes fun parent _ sub' sent' => ?_
  have both := List.Subset.trans sub sub'
  have idArgument : Readable (hash :: id :: held) id.pointer id.length :=
    .of_mem (List.mem_cons_of_mem _ List.mem_cons_self)
  exact safe_call (HostCall.safe_appendState unseen (idArgument.mono both)
    ((Readable.identity List.mem_cons_self hashSize rfl).mono both)
    ((Readable.optional sent).mono sub') (Readable.optionalIdentity sent' rfl))

theorem safe_appendResource (unseen : OutputsUnseen view) (resource : Bytes) (owner : Address)
    (lockingConditions : Option String) :
    Safe view base held (appendResource resource owner lockingConditions) := by
  refine safe_bind_orAbandon fun content _ => safe_bind_orAbandon fun holder _ => ?_
  refine safe_bind_optionalBytes fun locking _ sub sent => ?_
  have contentArgument :
      Readable (holder :: content :: held) content.pointer content.length :=
    .of_mem (List.mem_cons_of_mem _ List.mem_cons_self)
  exact safe_call (HostCall.safe_appendResource unseen (contentArgument.mono sub)
    ((Readable.of_mem List.mem_cons_self).mono sub) (Readable.optional sent))

theorem safe_createBatch (unseen : OutputsUnseen view) (items : List BatchItem) :
    Safe view base held (createBatch items) := by
  unfold createBatch
  split
  · exact safe_pure outputFailed
  · exact safe_bind_orAbandon fun _ _ =>
      safe_call (HostCall.safe_createBatch unseen (.of_mem List.mem_cons_self))

theorem safe_declareState? (claim : String) : Safe view base held (declareState? claim) :=
  safe_bind_writeBytes (fun _ => safe_pure none) fun _ _ =>
    safe_replyText? fun _ _ sub place => HostCall.safe_declareState
      ((Readable.of_mem List.mem_cons_self).mono sub) place

theorem safe_provideEvidence
    (unseen : ∀ r evidence, view { r with evidence := evidence } = view r)
    (claimId evidence : String) : Safe view base held (provideEvidence claimId evidence) := by
  refine safe_bind_orAbandon fun id _ => safe_bind_orAbandon fun evidence _ => ?_
  have idArgument : Readable (evidence :: id :: held) id.pointer id.length :=
    .of_mem (List.mem_cons_of_mem _ List.mem_cons_self)
  exact (safe_call (HostCall.safe_provideEvidence unseen idArgument
    (.of_mem List.mem_cons_self))).bind fun _ => safe_pure _

theorem safe_controlledState? (claimId : String) :
    Safe view base held (controlledState? claimId) :=
  safe_bind_writeBytes (fun _ => safe_pure none) fun _ _ =>
    safe_replyText? fun _ _ sub place => HostCall.safe_controlledState
      ((Readable.of_mem List.mem_cons_self).mono sub) place

/-! ## Transactions -/

theorem safe_build (unseen : ∀ r drafts, view { r with drafts := drafts } = view r)
    (draft : Draft) : Safe view base held (build draft) := by
  refine safe_bind_writeBytes (fun _ => safe_pure _) fun text _ => ?_
  refine safe_bind_reserve (fun _ => safe_pure _) fun receipt _ above => ?_
  have textArgument : Readable (receipt :: text :: held) text.pointer text.length :=
    .of_mem (List.mem_cons_of_mem _ List.mem_cons_self)
  refine (safe_call (HostCall.safe_buildTransaction unseen textArgument
    (.of_mem above List.mem_cons_self (Nat.le_refl _)))).bind fun code => ?_
  cases BoundaryError.ofStatus code with
  | error error => exact safe_pure _
  | ok _ => exact (safe_readBytes (.of_mem List.mem_cons_self)).bind fun _ => safe_pure _

theorem safe_finalize (unseen : ∀ r drafts, view { r with drafts := drafts } = view r)
    (builder : Builder) : Safe view base held (finalize builder) := by
  unfold finalize
  split
  · exact safe_pure _
  · refine (safe_build unseen builder.draft).bind fun outcome => ?_
    cases outcome with
    | ok receipt => exact (safe_emit _).bind fun _ => safe_pure _
    | error error => exact (safe_emit _).bind fun _ => safe_pure _

/-! ## The invocation -/

theorem safe_loadInvocation : Safe view base held loadInvocation :=
  safe_caller.bind fun _ => safe_contractAddress.bind fun _ => (safe_configured _).bind fun _ =>
    (safe_configured _).bind fun _ => (safe_emit _).bind fun _ => safe_pure _

end Guest

/-! ## The contract -/

namespace Token

open Guest

/-- The view shows nothing of what a transfer reports. -/
structure TransferUnseen (view : Records → β) : Prop where
  returnData : ∀ r data, view { r with returnData := data } = view r
  events : ∀ r events, view { r with events := events } = view r
  logs : ∀ r logs, view { r with logs := logs } = view r
  drafts : ∀ r drafts, view { r with drafts := drafts } = view r

theorem safe_announce (unseen : TransferUnseen view) (sender : Address)
    (request : TransferRequest) : Safe view base held (announce sender request) := by
  refine (safe_addressText _).bind fun _ => (safe_addressText _).bind fun _ => ?_
  refine (safe_emitEvent unseen.events _).bind fun emitted => ?_
  cases emitted with
  | error error => exact safe_pure _
  | ok _ =>
    refine (safe_setReturnData unseen.returnData _).bind fun answered => ?_
    cases answered <;> exact safe_pure _

theorem safe_rejectTransfer (unseen : ∀ r logs, view { r with logs := logs } = view r) :
    Safe view base held rejectTransfer := by
  refine (safe_logDebug unseen _).bind fun logged => ?_
  cases logged with
  | error error => exact (safe_emit _).bind fun _ => safe_pure _
  | ok _ => exact safe_pure _

theorem safe_perform (unseen : TransferUnseen view) (sender : Address)
    (request : TransferRequest) : Safe view base held (perform sender request) := by
  refine (safe_balance _ _).bind fun balance => ?_
  split
  · exact safe_rejectTransfer unseen.logs
  · refine (safe_finalize unseen.drafts _).bind fun outcome => ?_
    dsimp only
    split
    · exact safe_announce unseen sender request
    · exact safe_pure _

theorem safe_transfer (unseen : TransferUnseen view) (invocation : Invocation) :
    Safe view base held (transfer invocation) := by
  refine (safe_initParams? _).bind fun params => ?_
  cases params.bind request? with
  | none => exact safe_pure _
  | some request => exact (safe_perform unseen _ request).bind fun _ => safe_pure _

theorem safe_vote (unseen : ∀ r drafts, view { r with drafts := drafts } = view r)
    (invocation : Invocation) (proposal choice : String) :
    Safe view base held (vote invocation proposal choice) :=
  (safe_stateVersion _).bind fun _ => (safe_finalize unseen _).bind fun _ => safe_pure _

end Token

end HostBoundary
