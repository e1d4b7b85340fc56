import HostBoundary.Proofs.Exchange

/-!
# What an output call leaves

A call that appends an output writes its arguments one after the other and then
tells the host where they are.  A mandatory argument that finds no room ends the
call; an optional one that finds no room is sent as absent.  The four calls
differ in their arguments, so this module lists those (`OutputCall.mandatory`,
`OutputCall.optional`) and says once what becomes of them.

## Which arguments find room

`OutputCall.lengths call n` are the regions of the mandatory arguments and of
the first `n` optional ones.  An argument comes before the first refusal exactly
when the host provides the regions up to its own.  A missing argument and an
empty one have no region, so they never use up the room of a later one.

## Main results

* `OutputCall.run_outcome` — what each of the four calls comes to, whichever
  allocations are granted.
-/

namespace HostBoundary

open Guest

/-! ## The calls and their records -/

/-- A call that appends an output. -/
inductive OutputCall where
  | plain (recipient : Address) (amount : UInt64) (tokenId : Option String)
  | locked (recipient : Address) (amount : UInt64) (tokenId lockingConditions : Option String)
  | state (stateId : Bytes) (version : UInt64) (execHash : Hash) (publicInputs : Option Bytes)
      (parentHash : Option Hash)
  | resource (content : Bytes) (owner : Address) (lockingConditions : Option String)

/-- What the host records of an output. -/
inductive OutputRecord where
  | asset (record : AssetRecord)
  | state (record : StateRecord)
  | resource (record : ResourceRecord)

/-- The records with an output behind those of its kind. -/
def OutputRecord.append (records : Records) : OutputRecord → Records
  | asset record => { records with assetOutputs := records.assetOutputs ++ [record] }
  | state record => { records with stateOutputs := records.stateOutputs ++ [record] }
  | resource record => { records with resourceOutputs := records.resourceOutputs ++ [record] }

/-- The records with one more output counted, unless the host answers a status of
its own. -/
def Records.counted (setup : Setup) (records : Records) : Records :=
  match setup.appendStatus with
  | some _ => records
  | .none => { records with outputCount := records.outputCount + 1 }

/-- What a host answers for the next output: its status, if it has one, or else
the number of the output. -/
def Host.outputNumber (host : Host) : UInt32 :=
  host.setup.appendStatus.getD host.records.outputCount

namespace OutputCall

/-- Makes the call. -/
def run : OutputCall → Guest UInt32
  | plain recipient amount tokenId => createOutput recipient amount tokenId
  | locked recipient amount tokenId locking => createLockedOutput recipient amount tokenId locking
  | state stateId version execHash inputs parent =>
    appendState stateId version execHash inputs parent
  | resource content owner locking => appendResource content owner locking

/-- The arguments that a call does not go on without, in order. -/
def mandatory : OutputCall → List Bytes
  | plain recipient .. => [recipient.toBytes]
  | locked recipient .. => [recipient.toBytes]
  | state stateId _ execHash .. => [stateId, execHash.toBytes]
  | resource content owner _ => [content, owner.toBytes]

/-- The arguments that may be absent, in order. -/
def optional : OutputCall → List (Option Bytes)
  | plain _ _ tokenId => [tokenId.map Utf8.encode]
  | locked _ _ tokenId locking => [tokenId.map Utf8.encode, locking.map Utf8.encode]
  | state _ _ _ inputs parent => [inputs, parent.map FixedBytes.toBytes]
  | resource _ _ locking => [locking.map Utf8.encode]

/-- All arguments are shorter than the address space. -/
def Short (call : OutputCall) : Prop :=
  (∀ bytes ∈ call.mandatory, bytes.length < UInt32.size) ∧
    ∀ argument ∈ call.optional, ∀ bytes ∈ argument, bytes.length < UInt32.size

instance (call : OutputCall) : Decidable call.Short := inferInstanceAs (Decidable (_ ∧ _))

/-- The regions of the mandatory arguments and of the first optional ones. -/
def lengths (call : OutputCall) : Nat → List Nat
  | 0 => call.mandatory.map List.length
  | count + 1 => call.lengths count ++ argumentLengths (call.optional.getD count none)

/-- **What the host records of a call**: the mandatory arguments and the numbers
as they are, and each optional argument unless it was empty or found no room. -/
def Sends (host : Host) (call : OutputCall) (output : OutputRecord) : Prop :=
  let room (count : Nat) := host.Provides (call.lengths count)
  match call, output with
  | plain recipient amount tokenId, .asset record =>
    record.recipient = recipient.toBytes ∧ record.amount = amount ∧
      Recorded "" tokenId (room 1) record.tokenId ∧ record.lockingConditions = ""
  | locked recipient amount tokenId locking, .asset record =>
    record.recipient = recipient.toBytes ∧ record.amount = amount ∧
      Recorded "" tokenId (room 1) record.tokenId ∧
      Recorded "" locking (room 2) record.lockingConditions
  | state stateId version execHash inputs parent, .state record =>
    record.stateId = stateId ∧ record.version = version ∧ record.execHash = execHash.toBytes ∧
      Recorded [] inputs (room 1) record.publicInputs ∧
      Recorded none (parent.map fun hash => some hash.toBytes) (room 2) record.parentHash
  | resource content owner locking, .resource record =>
    record.resource = content ∧ record.owner = owner.toBytes ∧
      Recorded "" locking (room 1) record.lockingConditions
  | _, _ => False

end OutputCall

/-! ## What the host finds of an argument -/

section Sent

variable {host before : Host} {lengths : List Nat} {buffer : Buffer}

/-- The text that the host reads. -/
theorem SentAs.readText {text : Option String}
    (sent : SentAs before lengths host.arena (text.map Utf8.encode) buffer) :
    ∃ field, Host.readText buffer.pointer buffer.length host = .ok field host ∧
      Recorded "" text (before.Provides (lengths ++ argumentLengths (text.map Utf8.encode)))
        field := by
  cases text with
  | none =>
    cases sent
    exact ⟨"", rfl, .inr rfl, iff_of_true rfl (.inl rfl)⟩
  | some text =>
    cases sent with
    | absent missing =>
      refine ⟨"", rfl, .inr rfl, iff_of_true rfl (.inr ?_)⟩
      rcases missing with none | empty | refused
      · cases none
      · exact .inl (congrArg some (Utf8.encode_eq_nil.mp (Option.some.inj empty)))
      · exact .inr refused
    | present nonempty room holds =>
      refine ⟨text, Host.readText_holds holds, .inl rfl,
        iff_of_false (mt Utf8.encode_eq_nil.mpr nonempty) ?_⟩
      rintro (none | empty | refused)
      · cases none
      · exact nonempty (Utf8.encode_eq_nil.mpr (Option.some.inj empty))
      · exact refused room

/-- The hash that the host finds: none at the null pointer, and otherwise what it
reads there. -/
theorem SentAs.readHash {hash : Option Hash}
    (sent : SentAs before lengths host.arena (hash.map FixedBytes.toBytes) buffer) :
    ∃ field, Recorded none (hash.map fun hash => some hash.toBytes)
        (before.Provides (lengths ++ argumentLengths (hash.map FixedBytes.toBytes))) field ∧
      ((field = none ∧ buffer.pointer = nullPointer) ∨
        ∃ bytes, field = some bytes ∧ buffer.pointer ≠ nullPointer ∧
          Host.read buffer.pointer Host.hashCapacity host = .ok bytes host) := by
  cases hash with
  | none =>
    cases sent
    exact ⟨none, ⟨.inr rfl, iff_of_true rfl (.inl rfl)⟩, .inl ⟨rfl, rfl⟩⟩
  | some hash =>
    cases sent with
    | absent missing =>
      refine ⟨none, ⟨.inr rfl, iff_of_true rfl (.inr (.inr ?_))⟩, .inl ⟨rfl, rfl⟩⟩
      rcases missing with none | empty | refused
      · cases none
      · have length := hash.length_toBytes
        rw [Option.some.inj empty] at length
        cases length
      · exact refused
    | present nonempty room holds =>
      have size : buffer.length = Host.hashCapacity := holds.length_of_identity rfl
      refine ⟨some hash.toBytes, ⟨.inl rfl, iff_of_false nofun ?_⟩,
        .inr ⟨_, rfl, holds.notNull, size ▸ Host.read_holds holds⟩⟩
      rintro (none | none | refused)
      · cases none
      · cases none
      · exact refused room

end Sent

/-! ## What the host does with the arguments -/

namespace Host

variable {host : Host}

theorem nextOutput_run (host : Host) :
    nextOutput host = .ok host.outputNumber (host.told (Records.counted host.setup)) := by
  rw [nextOutput, bind_of_ok (configured_run _), outputNumber]
  unfold Records.counted
  cases host.setup.appendStatus <;> rfl

/-- **An output is taken**: it is appended, counted and numbered. -/
theorem record_nextOutput (host : Host) (output : OutputRecord) :
    (record (fun records => output.append records) >>= fun _ => nextOutput) host
      = .ok host.outputNumber
          (host.told fun records => (output.append records).counted host.setup) := by
  rw [bind_of_ok (record_run _), nextOutput_run]
  cases output <;> rfl

end Host

/-! ## Going through the arguments -/

/-- What a call comes to whose mandatory arguments need these regions.  Without
room for them it is abandoned, and the host is told nothing; with room for them
the host is told one output, which it numbers. -/
structure OutputOutcome (before : Host) (mandatory : List Nat) (sends : OutputRecord → Prop)
    (act : Guest UInt32) (world : World) : Prop where
  /-- The call is abandoned. -/
  abandoned : ¬ before.Provides mandatory →
    ∃ after, act world = .ok outputFailed after ∧ before.OnlyAllocated after.host
  /-- The output is taken. -/
  taken : before.Provides mandatory →
    ∃ output middle after, act world = .ok before.outputNumber after ∧ sends output ∧
      before.OnlyAllocated middle ∧
      after.host = middle.told fun records => (output.append records).counted before.setup

namespace OutputOutcome

variable {before : Host} {lengths rest mandatory : List Nat} {sends : OutputRecord → Prop}
  {world : World}

/-- A mandatory argument finds room, or the call is abandoned. -/
theorem bind_writeBytes {bytes : Bytes} {next : Buffer → Guest UInt32}
    (allocated : before.Allocated lengths world.host) (short : bytes.length < UInt32.size)
    (goesOn : before.Provides (lengths ++ [bytes.length]) →
      ∀ buffer, before.Allocated (lengths ++ [bytes.length]) (world.granted bytes).host →
        (world.granted bytes).host.SparesNull →
        buffer.Holds (world.granted bytes).host.arena bytes →
        OutputOutcome before (lengths ++ bytes.length :: rest) sends (next buffer)
          (world.granted bytes)) :
    OutputOutcome before (lengths ++ bytes.length :: rest) sends
      (writeBytes bytes >>= fun outcome => orAbandon outcome outputFailed next) world := by
  by_cases provided : world.host.Provides [bytes.length]
  · obtain ⟨somewhere, grants, written, -⟩ := writeBytes_of_provides short provided
    have outcome := goesOn ((allocated.provides _ _).mp provided) _
      (allocated.granted grants somewhere short)
      (somewhere.granted _)
      (nextRegion_holds_written somewhere grants short)
    have same : (writeBytes bytes >>= fun outcome => orAbandon outcome outputFailed next) world
        = next (world.host.nextRegion (UInt32.ofNat bytes.length)) (world.granted bytes) := by
      rw [bind_of_ok written, orAbandon_ok]
    exact ⟨fun missing => same ▸ outcome.abandoned missing,
      fun room => same ▸ outcome.taken room⟩
  · obtain ⟨after, refused, only⟩ := writeBytes_of_not_provides short provided
    refine ⟨fun _ => ?_, fun room => ?_⟩
    · rw [bind_of_ok refused]
      exact ⟨_, rfl, allocated.toOnlyAllocated.trans only⟩
    · -- room for all mandatory arguments would be room for this one
      have all : world.host.Provides ([bytes.length] ++ rest) := (allocated.provides _ _).mpr room
      exact absurd (Host.provides_of_append all) provided

/-- An optional argument is sent in any case. -/
theorem bind_optionalBytes {argument : Option Bytes} {next : Buffer → Guest UInt32}
    (allocated : before.Allocated lengths world.host) (somewhere : world.host.SparesNull)
    (short : ∀ bytes ∈ argument, bytes.length < UInt32.size)
    (goesOn : ∀ buffer after, before.Allocated (lengths ++ argumentLengths argument) after.host →
      after.host.SparesNull → world.host.arena <+: after.host.arena →
      SentAs before lengths after.host.arena argument buffer →
      OutputOutcome before mandatory sends (next buffer) after) :
    OutputOutcome before mandatory sends (optionalBytes argument >>= next) world := by
  obtain ⟨buffer, after, answers, allocated, kept, sent⟩ :=
    optionalBytes_sentAs allocated somewhere short
  have outcome := goesOn buffer after allocated (somewhere.mono kept.length_le)
    kept sent
  have same : (optionalBytes argument >>= next) world = next buffer after := bind_of_ok answers
  exact ⟨fun missing => same ▸ outcome.abandoned missing, fun room => same ▸ outcome.taken room⟩

/-- The host is told where the arguments are. -/
theorem call_of_taken {act : HostCall UInt32} {output : OutputRecord}
    (only : before.OnlyAllocated world.host) (provided : before.Provides mandatory)
    (acts : act world.host = (Host.record (fun records => output.append records) >>=
      fun _ => Host.nextOutput) world.host)
    (isSent : sends output) : OutputOutcome before mandatory sends (call act) world := by
  refine ⟨fun missing => absurd provided missing, fun _ => ?_⟩
  have taken := acts.trans (Host.record_nextOutput world.host output)
  have number : world.host.outputNumber = before.outputNumber := by
    rw [Host.outputNumber, only.setup, only.records]
    rfl
  rw [number, only.setup] at taken
  exact ⟨output, world.host, _, call_of_ok taken, isSent, only, rfl⟩

end OutputOutcome

/-! ## The four calls -/

section Calls

variable {world : World}

theorem createOutput_outcome {recipient : Address} {amount : UInt64} {tokenId : Option String}
    (short : (OutputCall.plain recipient amount tokenId).Short) :
    OutputOutcome world.host [recipient.toBytes.length]
      ((OutputCall.plain recipient amount tokenId).Sends world.host)
      (createOutput recipient amount tokenId) world := by
  obtain ⟨shortMandatory, shortOptional⟩ := short
  refine OutputOutcome.bind_writeBytes (.refl _) (shortMandatory _ List.mem_cons_self)
    fun provided holder allocated somewhere holds => ?_
  refine OutputOutcome.bind_optionalBytes allocated somewhere (shortOptional _ List.mem_cons_self)
    fun token after allocated _ kept tokenSent => ?_
  obtain ⟨field, read, recorded⟩ := tokenSent.readText
  have isSent : (OutputCall.plain recipient amount tokenId).Sends world.host
      (.asset ⟨recipient.toBytes, amount, field, ""⟩) := ⟨rfl, rfl, recorded, rfl⟩
  refine OutputOutcome.call_of_taken allocated.toOnlyAllocated provided ?_ isSent
  have holds := holds.mono kept
  have size : holder.length = Host.addressCapacity := holds.length_of_identity rfl
  rw [Host.createOutput, ← size, bind_of_ok (Host.readArgument_holds holds), bind_of_ok read]
  rfl

theorem createLockedOutput_outcome {recipient : Address} {amount : UInt64}
    {tokenId locking : Option String}
    (short : (OutputCall.locked recipient amount tokenId locking).Short) :
    OutputOutcome world.host [recipient.toBytes.length]
      ((OutputCall.locked recipient amount tokenId locking).Sends world.host)
      (createLockedOutput recipient amount tokenId locking) world := by
  obtain ⟨shortMandatory, shortOptional⟩ := short
  refine OutputOutcome.bind_writeBytes (.refl _) (shortMandatory _ List.mem_cons_self)
    fun provided holder allocated somewhere holds => ?_
  refine OutputOutcome.bind_optionalBytes allocated somewhere (shortOptional _ List.mem_cons_self)
    fun token middle allocated somewhere kept tokenSent => ?_
  refine OutputOutcome.bind_optionalBytes allocated somewhere
    (shortOptional _ (List.mem_cons_of_mem _ List.mem_cons_self))
    fun conditions after allocated _ kept' conditionsSent => ?_
  obtain ⟨tokenField, tokenRead, tokenRecorded⟩ := (tokenSent.mono kept').readText
  obtain ⟨field, read, recorded⟩ := conditionsSent.readText
  have isSent : (OutputCall.locked recipient amount tokenId locking).Sends world.host
      (.asset ⟨recipient.toBytes, amount, tokenField, field⟩) :=
    ⟨rfl, rfl, tokenRecorded, recorded⟩
  refine OutputOutcome.call_of_taken allocated.toOnlyAllocated provided ?_ isSent
  have holds := holds.mono (kept.trans kept')
  rw [Host.createLockedOutput, bind_of_ok (Host.readArgument_holds holds), bind_of_ok tokenRead,
    bind_of_ok read]
  rfl

theorem appendState_outcome {stateId : Bytes} {version : UInt64} {execHash : Hash}
    {inputs : Option Bytes} {parent : Option Hash}
    (short : (OutputCall.state stateId version execHash inputs parent).Short) :
    OutputOutcome world.host [stateId.length, execHash.toBytes.length]
      ((OutputCall.state stateId version execHash inputs parent).Sends world.host)
      (appendState stateId version execHash inputs parent) world := by
  obtain ⟨shortMandatory, shortOptional⟩ := short
  refine OutputOutcome.bind_writeBytes (.refl _) (shortMandatory _ List.mem_cons_self)
    fun _ id allocated _ idHolds => ?_
  refine OutputOutcome.bind_writeBytes allocated
    (shortMandatory _ (List.mem_cons_of_mem _ List.mem_cons_self))
    fun provided hash allocated somewhere hashHolds => ?_
  refine OutputOutcome.bind_optionalBytes allocated somewhere (shortOptional _ List.mem_cons_self)
    fun inputsBuffer middle allocated somewhere kept inputsSent => ?_
  refine OutputOutcome.bind_optionalBytes allocated somewhere
    (shortOptional _ (List.mem_cons_of_mem _ List.mem_cons_self))
    fun parentHash after allocated _ kept' parentSent => ?_
  obtain ⟨inputsField, inputsRead, inputsRecorded⟩ := (inputsSent.mono kept').readArgument
  obtain ⟨field, recorded, read⟩ := parentSent.readHash
  have isSent : (OutputCall.state stateId version execHash inputs parent).Sends world.host
      (.state ⟨stateId, version, execHash.toBytes, inputsField, field⟩) :=
    ⟨rfl, rfl, rfl, inputsRecorded, recorded⟩
  refine OutputOutcome.call_of_taken allocated.toOnlyAllocated provided ?_ isSent
  -- the id lies below the hash as well as below the optional arguments
  have idHolds := idHolds.mono ((List.prefix_append _ _).trans (kept.trans kept'))
  have hashHolds := hashHolds.mono (kept.trans kept')
  have size : hash.length = Host.hashCapacity := hashHolds.length_of_identity rfl
  rw [Host.appendState, bind_of_ok (Host.readArgument_holds idHolds), ← size,
    bind_of_ok (Host.readArgument_holds hashHolds), bind_of_ok inputsRead]
  rcases read with ⟨rfl, null⟩ | ⟨bytes, rfl, notNull, read⟩
  · rw [if_pos null]
    rfl
  · rw [if_neg notNull, size, bind_of_ok read]
    rfl

theorem appendResource_outcome {content : Bytes} {owner : Address} {locking : Option String}
    (short : (OutputCall.resource content owner locking).Short) :
    OutputOutcome world.host [content.length, owner.toBytes.length]
      ((OutputCall.resource content owner locking).Sends world.host)
      (appendResource content owner locking) world := by
  obtain ⟨shortMandatory, shortOptional⟩ := short
  refine OutputOutcome.bind_writeBytes (.refl _) (shortMandatory _ List.mem_cons_self)
    fun _ resource allocated _ resourceHolds => ?_
  refine OutputOutcome.bind_writeBytes allocated
    (shortMandatory _ (List.mem_cons_of_mem _ List.mem_cons_self))
    fun provided holder allocated somewhere holds => ?_
  refine OutputOutcome.bind_optionalBytes allocated somewhere (shortOptional _ List.mem_cons_self)
    fun conditions after allocated _ kept conditionsSent => ?_
  obtain ⟨field, read, recorded⟩ := conditionsSent.readText
  have isSent : (OutputCall.resource content owner locking).Sends world.host
      (.resource ⟨content, owner.toBytes, field⟩) := ⟨rfl, rfl, recorded⟩
  refine OutputOutcome.call_of_taken allocated.toOnlyAllocated provided ?_ isSent
  have resourceHolds := resourceHolds.mono ((List.prefix_append _ _).trans kept)
  rw [Host.appendResource, bind_of_ok (Host.readArgument_holds resourceHolds),
    bind_of_ok (Host.readArgument_holds (holds.mono kept)), bind_of_ok read]
  rfl

end Calls

/-- **What an output call comes to.** -/
theorem OutputCall.run_outcome (call : OutputCall) (world : World) (short : call.Short) :
    OutputOutcome world.host (call.lengths 0) (call.Sends world.host) call.run world := by
  cases call with
  | plain => exact createOutput_outcome short
  | locked => exact createLockedOutput_outcome short
  | state => exact appendState_outcome short
  | resource => exact appendResource_outcome short

/-- On a host with room for two more regions the token id is recorded, and the
locking conditions, which come third, are not. -/
theorem OutputCall.run_outcome_midway :
    (OutputCall.locked .zero 5 (some "t") (some "c")).Short ∧
    ∃ after, (OutputCall.locked .zero 5 (some "t") (some "c")).run
        ⟨{ Host.initial with policy := ⟨false, some 2⟩ }, []⟩ = .ok 0 after ∧
      after.host.records.assetOutputs = [⟨(.zero : Address).toBytes, 5, "t", ""⟩] ∧
      after.host.records.outputCount = 1 := by
  have short : (OutputCall.locked .zero 5 (some "t") (some "c")).Short := by decide
  have outcome := run_outcome _ ⟨{ Host.initial with policy := ⟨false, some 2⟩ }, []⟩ short
  obtain ⟨output, middle, after, answers, sends, only, told⟩ := outcome.taken (by decide)
  refine ⟨short, after, answers, ?_⟩
  cases output with
  | state | resource => exact sends.elim
  | asset record =>
    obtain ⟨recipient, amount, token, locking⟩ := sends
    have tokenId : record.tokenId = "t" := token.eq_getD (by decide)
    have conditions : record.lockingConditions = "" :=
      locking.absent_iff.mpr (.inr (.inr (by decide)))
    have whole : record = ⟨(.zero : Address).toBytes, 5, "t", ""⟩ := by
      rw [← recipient, ← amount, ← tokenId, ← conditions]
    have before : middle.records = Records.none := only.records
    rw [told, whole, Host.told, before]
    exact ⟨rfl, rfl⟩

end HostBoundary
