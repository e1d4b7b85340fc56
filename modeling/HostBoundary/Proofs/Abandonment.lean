import HostBoundary.Proofs.Runs
import HostBoundary.Proofs.Outputs

/-!
# Calls that give up

The sentinels are answers that a host may give as well: a version or a balance may
be zero, an output may not exist, and a host may be set to answer `0xFFFFFFFF`.
What tells a call that gave up from one that reached the host is the trace.  This
module says what stands there.

## Two kinds of lines

Every allocation that answers the null pointer leaves a warning, whether it was
made for a mandatory argument, which the call does not go on without, or for an
optional one, which is then sent as absent.  The line about an abandoned call
comes only for the former, and then nothing comes behind it.

* `World.Warned` — between two worlds the trace gained one warning for each failed
  request of the ledger, and nothing else.
* `Guest.Warns` — a computation that leaves such a world, whatever is granted.
* `GivesUp` — a computation that gives up without room for its mandatory arguments.

The first two are closed under what a call is made of, so each of the ten calls is
one line for each of its arguments.

## Main results

* `Step.run_sentinel` — what the trace, the answer and the records show of a call
  that has a sentinel, on every host.
-/

namespace HostBoundary

open Guest

/-! ## Lines of the trace -/

namespace TraceEvent

/-- The event is a line of this level and this wording. -/
def isLine (level : TraceLevel) (message : String) (event : TraceEvent) : Bool :=
  event.level == level && event.message == message

/-- The wording of the warning about a failed allocation. -/
def refusedMessage : String := "host allocator returned a null offset"

/-- The wording of the line about an abandoned call. -/
def abandonedMessage : String := "host boundary call abandoned"

/-- The warnings about the failed ones among these requests, in their order. -/
def warnings (asked : List AllocationRequest) : List TraceEvent :=
  (asked.filter fun request => !request.granted).map fun request => allocationRefused request.size

variable {asked : List AllocationRequest}

theorem warnings_append (asked more : List AllocationRequest) :
    warnings (asked ++ more) = warnings asked ++ warnings more := by
  simp [warnings]

/-- Warnings are about failed allocations. -/
theorem filter_refused_warnings :
    (warnings asked).filter (isLine .warn refusedMessage) = warnings asked := by
  rw [List.filter_eq_self]
  intro event mem
  obtain ⟨request, -, rfl⟩ := List.mem_map.mp mem
  rfl

/-- No warning is about an abandoned call. -/
theorem filter_abandoned_warnings :
    (warnings asked).filter (isLine .debug abandonedMessage) = [] := by
  rw [List.filter_eq_nil_iff]
  intro event mem
  obtain ⟨request, -, rfl⟩ := List.mem_map.mp mem
  exact Bool.false_ne_true

/-- A warning carries the length that was asked for. -/
theorem fields_warnings :
    (warnings asked).map fields =
      (asked.filter fun request => !request.granted).map fun request =>
        [("len", toString request.size.toNat)] := by
  rw [warnings, List.map_map]
  rfl

end TraceEvent

open TraceEvent (warnings)

/-! ## Worlds with warnings -/

namespace World

/-- Between the two worlds the trace gained one warning for each failed request
that the ledger gained, and nothing else. -/
def Warned (before after : World) : Prop :=
  ∃ asked, after.host.requests = before.host.requests ++ asked ∧
    after.trace = before.trace ++ warnings asked

variable {before middle after : World}

theorem Warned.of_same (requests : after.host.requests = before.host.requests)
    (trace : after.trace = before.trace) : Warned before after :=
  ⟨[], by rw [requests, List.append_nil], by rw [trace]; exact (List.append_nil _).symm⟩

@[refl] theorem Warned.refl (world : World) : Warned world world := .of_same rfl rfl

theorem Warned.trans (first : Warned before middle) (second : Warned middle after) :
    Warned before after := by
  obtain ⟨asked, requests, trace⟩ := first
  obtain ⟨more, moreRequests, moreTrace⟩ := second
  refine ⟨asked ++ more, ?_, ?_⟩
  · rw [moreRequests, requests, List.append_assoc]
  · rw [moreTrace, trace, TraceEvent.warnings_append, List.append_assoc]

end World

/-- An allocation puts what it answers into the ledger. -/
theorem Host.allocate_ledger (host : Host) (size : UInt32) :
    ∃ pointer after, allocate size host = .ok pointer after ∧
      after.requests = host.requests ++ [⟨size, pointer⟩] := by
  by_cases grants : host.Grants
  · refine ⟨_, _, allocate_of_grants grants size, ?_⟩
    simp [granted, nextRegion]
  · exact ⟨_, _, allocate_of_not_grants grants size, rfl⟩

namespace Guest

variable {α β : Type} {held : List Buffer} {world after : World} {length : UInt32} {bytes : Bytes}

/-! ## Computations that warn -/

theorem allocate_warned {pointer : UInt32} (answers : allocate length world = .ok pointer after) :
    world.Warned after := by
  obtain ⟨answered, host, allocated, requests⟩ := world.host.allocate_ledger length
  rw [allocate, bind_of_ok (call_of_ok allocated)] at answers
  refine ⟨[⟨length, answered⟩], ?_⟩
  by_cases null : answered = nullPointer
  · rw [if_pos null] at answers
    cases answers
    exact ⟨requests, by simp [warnings, AllocationRequest.granted, null]⟩
  · rw [if_neg null] at answers
    cases answers
    exact ⟨requests, by simp [warnings, AllocationRequest.granted, null]⟩

theorem reserve_warned {outcome : Except BoundaryError Buffer}
    (answers : reserve length world = .ok outcome after) : world.Warned after := by
  obtain ⟨pointer, middle, allocated, answers⟩ := bind_eq_ok_iff.mp answers
  have warned := allocate_warned allocated
  split at answers <;> cases answers <;> exact warned

/-- Writing is no allocation. -/
theorem write_warned {pointer : UInt32}
    (answers : call (Host.write pointer bytes) world = .ok () after) : world.Warned after := by
  by_cases inside : pointer.toNat + bytes.length ≤ world.host.arena.length
  · rw [call_of_ok (if_pos inside)] at answers
    cases answers
    exact .of_same rfl rfl
  · simp [call, Host.write, inside] at answers

theorem writeBytes_warned {outcome : Except BoundaryError Buffer}
    (answers : writeBytes bytes world = .ok outcome after) : world.Warned after := by
  rw [writeBytes] at answers
  cases fits : narrow bytes.length with
  | error error =>
    rw [fits] at answers
    cases answers
    exact .refl world
  | ok length =>
    rw [fits] at answers
    obtain ⟨reserved, middle, asked, answers⟩ := bind_eq_ok_iff.mp answers
    have warned := reserve_warned asked
    cases reserved with
    | error error =>
      cases answers
      exact warned
    | ok buffer =>
      dsimp only at answers
      split at answers
      · obtain ⟨_, last, wrote, ⟨⟩⟩ := bind_eq_ok_iff.mp answers
        exact warned.trans (write_warned wrote)
      · cases answers
        exact warned

/-- The computation answers in every world whose arena the held buffers lie in, and
leaves a warning for each failed allocation and nothing else. -/
def Warns (held : List Buffer) (act : Guest α) : Prop :=
  ∀ world : World, (∀ buffer ∈ held, buffer.Within world.host.arena.length) →
    ∃ a after, act world = .ok a after ∧ world.Warned after

theorem Warns.map {act : Guest α} (warns : Warns held act) (f : α → β) :
    Warns held (act >>= fun a => pure (f a)) := by
  intro world within
  obtain ⟨a, after, answers, warned⟩ := warns world within
  exact ⟨f a, after, bind_of_ok answers, warned⟩

/-- A host call that finds its arguments makes no allocation. -/
theorem warns_call {act : HostCall α} (safe : HostCall.Safe Records.hidden 0 held act) :
    Warns held (call act) := by
  intro world within
  obtain ⟨a, host, answers, rewritten⟩ := safe world.host within
  exact ⟨a, _, call_of_ok answers, .of_same rewritten.requests rfl⟩

/-- A region that the host provides is held besides those that were held before. -/
theorem writeBytes_within {rest : List Nat}
    (within : ∀ buffer ∈ held, buffer.Within world.host.arena.length)
    (short : bytes.length < UInt32.size) (room : world.host.Provides (bytes.length :: rest)) :
    ∃ buffer, writeBytes bytes world = .ok (.ok buffer) (world.granted bytes) ∧
      buffer.length.toNat = bytes.length ∧
      ∀ other ∈ buffer :: held, other.Within (world.granted bytes).host.arena.length := by
  obtain ⟨somewhere, grants, written, -⟩ := writeBytes_of_provides short room
  have fresh := nextRegion_holds_written somewhere grants short
  refine ⟨_, written, fresh.length_eq.symm, ?_⟩
  intro other mem
  rcases List.mem_cons.mp mem with rfl | old
  · exact fresh.toWithin
  · exact (within other old).mono (List.prefix_append _ _).length_le

/-- Behind an optional argument more may be held.  Whether or not there was room
for it, the call goes on. -/
theorem warns_bind_optionalBytes {argument : Option Bytes} {next : Buffer → Guest α}
    (warns : ∀ (buffer : Buffer) (more : List Buffer), held ⊆ more →
      (buffer = .empty ∨
        buffer ∈ more ∧ ∃ bytes, argument = some bytes ∧ buffer.length.toNat = bytes.length) →
      Warns more (next buffer)) :
    Warns held (optionalBytes argument >>= next) := by
  have missing : Warns held (next .empty) := warns .empty held (List.Subset.refl _) (.inl rfl)
  cases argument with
  | none => exact missing
  | some bytes =>
    rw [optionalBytes]
    split
    · exact missing
    · rw [bind_assoc]
      intro world within
      by_cases room : bytes.length < UInt32.size ∧ world.host.Provides [bytes.length]
      · obtain ⟨buffer, written, size, within⟩ := writeBytes_within within room.1 room.2
        obtain ⟨a, after, answers, warned⟩ := warns buffer (buffer :: held)
          (List.subset_cons_self _ _) (.inr ⟨List.mem_cons_self, bytes, rfl, size⟩) _ within
        rw [bind_of_ok written]
        exact ⟨a, after, answers, (writeBytes_warned written).trans warned⟩
      · obtain ⟨error, middle, refused, only⟩ := writeBytes_of_no_room room
        obtain ⟨a, after, answers, warned⟩ := missing middle fun buffer mem =>
          (within buffer mem).mono only.arena.length_le
        rw [bind_of_ok refused]
        exact ⟨a, after, answers, (writeBytes_warned refused).trans warned⟩

end Guest

/-! ## Giving up -/

/-- **How a call gives up.**  Without room for its mandatory arguments it answers
the sentinel; the last line of the trace says so, and the host was told nothing.
With room for them no line says so. -/
structure GivesUp {α : Type} (mandatory : List Bytes) (sentinel : α) (act : Guest α)
    (world : World) : Prop where
  /-- The call is abandoned. -/
  abandoned : ¬ world.host.Provides (mandatory.map List.length) →
    ∃ middle, act world = .ok sentinel (middle.traced (.callAbandoned .outOfMemory)) ∧
      world.Warned middle ∧ world.host.OnlyAllocated middle.host
  /-- The call goes on. -/
  goesOn : world.host.Provides (mandatory.map List.length) →
    ∃ a after, act world = .ok a after ∧ world.Warned after

namespace Guest

variable {α β : Type} {held : List Buffer} {mandatory : List Bytes} {sentinel : α}

/-- The call gives up without room for these arguments, in every world whose arena
the held buffers lie in. -/
def Abandons (held : List Buffer) (mandatory : List Bytes) (sentinel : α) (act : Guest α) : Prop :=
  ∀ world : World, (∀ bytes ∈ mandatory, bytes.length < UInt32.size) →
    (∀ buffer ∈ held, buffer.Within world.host.arena.length) →
    GivesUp mandatory sentinel act world

/-- Behind its last mandatory argument a call does not give up any more. -/
theorem Warns.abandons {act : Guest α} (warns : Warns held act) : Abandons held [] sentinel act :=
  fun world _ within => ⟨fun missing => absurd trivial missing, fun _ => warns world within⟩

theorem Abandons.map {act : Guest α} (abandons : Abandons held mandatory sentinel act)
    (f : α → β) : Abandons held mandatory (f sentinel) (f <$> act) := by
  intro world short within
  have givesUp := abandons world short within
  constructor
  · intro missing
    obtain ⟨middle, answers, rest⟩ := givesUp.abandoned missing
    exact ⟨middle, map_of_ok f answers, rest⟩
  · intro room
    obtain ⟨a, after, answers, warned⟩ := givesUp.goesOn room
    exact ⟨f a, after, map_of_ok f answers, warned⟩

/-- A mandatory argument stands in the arena, or the call gives up. -/
theorem abandons_bind_writeBytes {bytes : Bytes} {next : Buffer → Guest α}
    (abandons : ∀ buffer : Buffer, buffer.length.toNat = bytes.length →
      Abandons (buffer :: held) mandatory sentinel (next buffer)) :
    Abandons held (bytes :: mandatory) sentinel
      (writeBytes bytes >>= fun outcome => orAbandon outcome sentinel next) := by
  intro world short within
  have shortHere := short bytes List.mem_cons_self
  by_cases room : world.host.Provides [bytes.length]
  · obtain ⟨buffer, written, size, within⟩ := writeBytes_within within shortHere room
    have warned := writeBytes_warned written
    obtain ⟨somewhere, grants, -⟩ := (Host.provides_cons_iff shortHere).mp room
    have provides : world.host.Provides ((bytes :: mandatory).map List.length) ↔
        (world.granted bytes).host.Provides (mandatory.map List.length) :=
      (Host.provides_cons_iff shortHere).trans
        ⟨fun all => all.2.2, fun rest => ⟨somewhere, grants, rest⟩⟩
    have givesUp := abandons buffer size (world.granted bytes)
      (fun other mem => short other (List.mem_cons_of_mem _ mem)) within
    constructor
    · intro missing
      obtain ⟨middle, answers, middleWarned, only⟩ := givesUp.abandoned (mt provides.mpr missing)
      refine ⟨middle, (bind_of_ok written).trans answers, warned.trans middleWarned, ?_⟩
      exact (Host.onlyAllocated_granted _ _).trans only
    · intro all
      obtain ⟨a, after, answers, afterWarned⟩ := givesUp.goesOn (provides.mp all)
      exact ⟨a, after, (bind_of_ok written).trans answers, warned.trans afterWarned⟩
  · obtain ⟨middle, refused, only⟩ := writeBytes_of_not_provides shortHere room
    refine ⟨fun _ => ⟨middle, bind_of_ok refused, writeBytes_warned refused, only⟩, fun all => ?_⟩
    have first : world.host.Provides ([bytes.length] ++ mandatory.map List.length) := all
    exact absurd (Host.provides_of_append first) room

/-! ### The calls -/

theorem abandons_stateVersion (stateId : String) :
    Abandons held [Utf8.encode stateId] 0 (stateVersion stateId) :=
  abandons_bind_writeBytes fun _ _ =>
    (warns_call (HostCall.safe_stateVersion (.of_mem List.mem_cons_self))).abandons

theorem abandons_utxoExists (point : OutPoint) :
    Abandons held [point.txHash.toBytes] false (utxoExists point) :=
  abandons_bind_writeBytes fun _ _ =>
    ((warns_call (HostCall.safe_utxoExists (.of_mem List.mem_cons_self))).map _).abandons

theorem abandons_resourceExists (contentHash : Hash) :
    Abandons held [contentHash.toBytes] false (resourceExists contentHash) :=
  abandons_bind_writeBytes fun _ _ =>
    ((warns_call (HostCall.safe_resourceExists (.of_mem List.mem_cons_self))).map _).abandons

theorem abandons_balance (address : Address) (tokenId : Option String) :
    Abandons held [address.toBytes] 0 (balance address tokenId) :=
  abandons_bind_writeBytes fun _ size => (warns_bind_optionalBytes fun _ _ sub sent =>
    warns_call (HostCall.safe_balance (Readable.optional sent)
      ((Readable.identity List.mem_cons_self size rfl).mono sub))).abandons

theorem outputsUnseen_hidden : HostCall.OutputsUnseen Records.hidden := fun _ _ _ _ _ _ => rfl

theorem abandons_createOutput (recipient : Address) (amount : UInt64) (tokenId : Option String) :
    Abandons held [recipient.toBytes] outputFailed (createOutput recipient amount tokenId) :=
  abandons_bind_writeBytes fun _ size => (warns_bind_optionalBytes fun _ _ sub sent =>
    warns_call (HostCall.safe_createOutput outputsUnseen_hidden
      ((Readable.identity List.mem_cons_self size rfl).mono sub) (Readable.optional sent))).abandons

theorem abandons_createLockedOutput (recipient : Address) (amount : UInt64)
    (tokenId locking : Option String) :
    Abandons held [recipient.toBytes] outputFailed
      (createLockedOutput recipient amount tokenId locking) :=
  abandons_bind_writeBytes fun _ _ => (warns_bind_optionalBytes fun _ _ sub sent =>
    warns_bind_optionalBytes fun _ _ sub' sent' =>
      warns_call (HostCall.safe_createLockedOutput outputsUnseen_hidden
        ((Readable.of_mem List.mem_cons_self).mono (List.Subset.trans sub sub'))
        ((Readable.optional sent).mono sub') (Readable.optional sent'))).abandons

theorem abandons_appendState (stateId : Bytes) (version : UInt64) (execHash : Hash)
    (inputs : Option Bytes) (parent : Option Hash) :
    Abandons held [stateId, execHash.toBytes] outputFailed
      (appendState stateId version execHash inputs parent) := by
  refine abandons_bind_writeBytes fun id _ => abandons_bind_writeBytes fun hash hashSize => ?_
  refine (warns_bind_optionalBytes fun inputs _ sub sent => ?_).abandons
  refine warns_bind_optionalBytes fun parent _ sub' sent' => ?_
  have both := List.Subset.trans sub sub'
  have idArgument : Readable (hash :: id :: held) id.pointer id.length :=
    .of_mem (List.mem_cons_of_mem _ List.mem_cons_self)
  exact warns_call (HostCall.safe_appendState outputsUnseen_hidden (idArgument.mono both)
    ((Readable.identity List.mem_cons_self hashSize rfl).mono both)
    ((Readable.optional sent).mono sub') (Readable.optionalIdentity sent' rfl))

theorem abandons_appendResource (resource : Bytes) (owner : Address) (locking : Option String) :
    Abandons held [resource, owner.toBytes] outputFailed
      (appendResource resource owner locking) := by
  refine abandons_bind_writeBytes fun content _ => abandons_bind_writeBytes fun holder _ => ?_
  have contentArgument : Readable (holder :: content :: held) content.pointer content.length :=
    .of_mem (List.mem_cons_of_mem _ List.mem_cons_self)
  exact (warns_bind_optionalBytes fun _ _ sub sent =>
    warns_call (HostCall.safe_appendResource outputsUnseen_hidden (contentArgument.mono sub)
      ((Readable.of_mem List.mem_cons_self).mono sub) (Readable.optional sent))).abandons

theorem abandons_createBatch (first : BatchItem) (rest : List BatchItem) :
    Abandons held [Utf8.encode (batchText (first :: rest))] outputFailed
      (createBatch (first :: rest)) :=
  abandons_bind_writeBytes fun _ _ =>
    (warns_call (HostCall.safe_createBatch outputsUnseen_hidden
      (.of_mem List.mem_cons_self))).abandons

theorem abandons_provideEvidence (claimId evidence : String) :
    Abandons held [Utf8.encode claimId, Utf8.encode evidence] false
      (provideEvidence claimId evidence) := by
  refine abandons_bind_writeBytes fun id _ => abandons_bind_writeBytes fun evidence _ => ?_
  have idArgument : Readable (evidence :: id :: held) id.pointer id.length :=
    .of_mem (List.mem_cons_of_mem _ List.mem_cons_self)
  exact ((warns_call (HostCall.safe_provideEvidence (fun _ _ => rfl) idArgument
    (.of_mem List.mem_cons_self))).map _).abandons

end Guest

/-! ## Steps with a sentinel -/

/-- How a step gives up: the arguments that it does not go on without, in the order
in which room is made for them, and what it answers when one finds none. -/
structure Sentinel where
  /-- The mandatory arguments. -/
  mandatory : List Bytes
  /-- The sentinel. -/
  answer : Answer

/-- How a question gives up, if its answer cannot say that there is none. -/
def QueryStep.sentinel? : QueryStep → Option Sentinel
  | stateVersion stateId => some ⟨[Utf8.encode stateId], .number 0⟩
  | utxoExists point => some ⟨[point.txHash.toBytes], .truth false⟩
  | resourceExists contentHash => some ⟨[contentHash.toBytes], .truth false⟩
  | balance address _ => some ⟨[address.toBytes], .number 0⟩
  | _ => none

/-- How a report gives up, if its answer cannot say that it did.  An empty batch is
not sent in the first place. -/
def ReportStep.sentinel? : ReportStep → Option Sentinel
  | createOutput recipient .. | createLockedOutput recipient .. =>
    some ⟨[recipient.toBytes], .word outputFailed⟩
  | appendState stateId _ execHash .. => some ⟨[stateId, execHash.toBytes], .word outputFailed⟩
  | appendResource resource owner _ => some ⟨[resource, owner.toBytes], .word outputFailed⟩
  | createBatch (first :: rest) =>
    some ⟨[Utf8.encode (batchText (first :: rest))], .word outputFailed⟩
  | provideEvidence claimId evidence =>
    some ⟨[Utf8.encode claimId, Utf8.encode evidence], .truth false⟩
  | _ => none

/-- How a step gives up, if it has a sentinel. -/
def Step.sentinel? : Step → Option Sentinel
  | query step => step.sentinel?
  | report step => step.sentinel?
  | _ => none

section Steps

variable {sentinel : Sentinel}

theorem QueryStep.abandons {step : QueryStep} (has : step.sentinel? = some sentinel) :
    Abandons [] sentinel.mandatory sentinel.answer step.run := by
  cases step with
  | stateVersion stateId =>
    cases has
    exact (abandons_stateVersion stateId).map _
  | utxoExists point =>
    cases has
    exact (abandons_utxoExists point).map _
  | resourceExists contentHash =>
    cases has
    exact (abandons_resourceExists contentHash).map _
  | balance address tokenId =>
    cases has
    exact (abandons_balance address tokenId).map _
  | _ => cases has

theorem ReportStep.abandons {step : ReportStep} (has : step.sentinel? = some sentinel) :
    Abandons [] sentinel.mandatory sentinel.answer step.run := by
  cases step with
  | createOutput recipient amount tokenId =>
    cases has
    exact (abandons_createOutput recipient amount tokenId).map _
  | createLockedOutput recipient amount tokenId locking =>
    cases has
    exact (abandons_createLockedOutput recipient amount tokenId locking).map _
  | appendState stateId version execHash inputs parent =>
    cases has
    exact (abandons_appendState stateId version execHash inputs parent).map _
  | appendResource resource owner locking =>
    cases has
    exact (abandons_appendResource resource owner locking).map _
  | createBatch items =>
    cases items with
    | nil => cases has
    | cons first rest =>
      cases has
      exact (abandons_createBatch first rest).map _
  | provideEvidence claimId evidence =>
    cases has
    exact (abandons_provideEvidence claimId evidence).map _
  | _ => cases has

/-- A step with a sentinel makes one call, which gives up with it. -/
theorem Step.givesUp {step : Step} (locals : Locals) (world : World)
    (has : step.sentinel? = some sentinel)
    (short : ∀ bytes ∈ sentinel.mandatory, bytes.length < UInt32.size) :
    ∃ act : Guest Answer, step.run locals = (fun answer => (answer, locals)) <$> act ∧
      GivesUp sentinel.mandatory sentinel.answer act world := by
  have nothingHeld : ∀ buffer ∈ ([] : List Buffer), buffer.Within world.host.arena.length :=
    List.forall_mem_nil _
  cases step with
  | query step => exact ⟨step.run, rfl, QueryStep.abandons has world short nothingHeld⟩
  | report step => exact ⟨step.run, rfl, ReportStep.abandons has world short nothingHeld⟩
  | _ => cases has

end Steps

/-- What can be seen of a call that needs room for `mandatory`: the requests that it
made, the lines that it added to the trace, its answer, and the host that it left. -/
structure Observed (sentinel : Sentinel) (before : Host) (asked : List AllocationRequest)
    (events : List TraceEvent) (answer : Answer) (after : Host) : Prop where
  /-- One warning for each failed allocation, in order, with the length that was asked for. -/
  warned : (events.filter (·.isLine .warn TraceEvent.refusedMessage)).map TraceEvent.fields =
    (asked.filter fun request => !request.granted).map fun request =>
      [("len", toString request.size.toNat)]
  /-- With room for its mandatory arguments no line says that the call was abandoned. -/
  silent : before.Provides (sentinel.mandatory.map List.length) →
    events.filter (·.isLine .debug TraceEvent.abandonedMessage) = []
  /-- Without it one line says so, and nothing comes behind that. -/
  told : ¬ before.Provides (sentinel.mandatory.map List.length) →
    events.filter (·.isLine .debug TraceEvent.abandonedMessage) = [.callAbandoned .outOfMemory] ∧
      events.getLast? = some (.callAbandoned .outOfMemory)
  /-- Then the answer is the sentinel, and the host was told nothing. -/
  unchanged : ¬ before.Provides (sentinel.mandatory.map List.length) →
    answer = sentinel.answer ∧ after.setup = before.setup ∧ after.records = before.records

section Observed

variable {sentinel : Sentinel} {before after : Host} {asked : List AllocationRequest}
  {answer : Answer}

theorem Observed.of_warnings (room : before.Provides (sentinel.mandatory.map List.length)) :
    Observed sentinel before asked (warnings asked) answer after where
  warned := by rw [TraceEvent.filter_refused_warnings, TraceEvent.fields_warnings]
  silent _ := TraceEvent.filter_abandoned_warnings
  told missing := absurd room missing
  unchanged missing := absurd room missing

theorem Observed.of_abandoned (missing : ¬ before.Provides (sentinel.mandatory.map List.length))
    (only : before.OnlyAllocated after) :
    Observed sentinel before asked (warnings asked ++ [.callAbandoned .outOfMemory])
      sentinel.answer after where
  warned := by
    have other : [TraceEvent.callAbandoned .outOfMemory].filter
        (·.isLine .warn TraceEvent.refusedMessage) = [] := rfl
    rw [List.filter_append, other, List.append_nil, TraceEvent.filter_refused_warnings,
      TraceEvent.fields_warnings]
  silent room := absurd room missing
  told _ := by
    rw [List.filter_append, TraceEvent.filter_abandoned_warnings]
    exact ⟨rfl, List.getLast?_concat⟩
  unchanged _ := ⟨rfl, only.setup, only.records⟩

end Observed

/-- **A call that gave up can be told from the trace**, and so can every allocation
that failed. -/
theorem Step.run_sentinel (step : Step) (locals : Locals) (world : World) {sentinel : Sentinel}
    (has : step.sentinel? = some sentinel)
    (short : ∀ bytes ∈ sentinel.mandatory, bytes.length < UInt32.size) :
    ∃ answer after asked events, step.run locals world = .ok (answer, locals) after ∧
      after.host.requests = world.host.requests ++ asked ∧
      after.trace = world.trace ++ events ∧
      Observed sentinel world.host asked events answer after.host := by
  obtain ⟨act, same, givesUp⟩ := step.givesUp locals world has short
  rw [same]
  by_cases room : world.host.Provides (sentinel.mandatory.map List.length)
  · obtain ⟨answer, after, answers, asked, requests, trace⟩ := givesUp.goesOn room
    exact ⟨answer, after, asked, _, map_of_ok _ answers, requests, trace, .of_warnings room⟩
  · obtain ⟨middle, answers, ⟨asked, requests, trace⟩, only⟩ := givesUp.abandoned room
    refine ⟨_, _, asked, _, map_of_ok _ answers, requests, ?_, .of_abandoned room only⟩
    rw [World.traced, trace, List.append_assoc]

/-- On a host with room for one more region the claim id is written and the evidence is
not, so the call is abandoned. -/
theorem Step.run_sentinel_midway :
    ∃ after, (Step.report (.provideEvidence "claim" "proof")).run .none
        ⟨{ Host.initial with policy := ⟨false, some 1⟩ }, []⟩ = .ok (.truth false, .none) after ∧
      after.trace.getLast? = some (.callAbandoned .outOfMemory) ∧
      after.host.records = Records.none := by
  obtain ⟨answer, after, asked, events, answers, -, trace, observed⟩ :=
    run_sentinel (.report (.provideEvidence "claim" "proof")) .none
      ⟨{ Host.initial with policy := ⟨false, some 1⟩ }, []⟩ rfl (by decide)
  have noRoom : ¬ ({ Host.initial with policy := ⟨false, some 1⟩ } : Host).Provides
      ([Utf8.encode "claim", Utf8.encode "proof"].map List.length) := by decide
  obtain ⟨rfl, -, records⟩ := observed.unchanged noRoom
  rw [List.nil_append] at trace
  exact ⟨after, answers, trace ▸ (observed.told noRoom).2, records⟩

end HostBoundary
