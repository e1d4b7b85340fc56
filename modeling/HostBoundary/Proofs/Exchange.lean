import HostBoundary.Guest.Builder
import HostBoundary.Proofs.Allocations
import HostBoundary.Proofs.Operations

/-!
# What is exchanged, exactly

The safety of an operation says what it may not do.  This module says what it
does: what a question answers, what a report leaves in the records, and what
becomes of a draft, under each outcome of the allocations that it makes.

The equations have the shape of those for memory.  An operation whose
allocations are granted leaves the world with the regions that it wrote
(`World.granted`) and the records that it changed (`Host.told`); one whose
allocation is refused leaves it as the refusal does.
-/

namespace HostBoundary

/-- The host after it was told something. -/
def Host.told (host : Host) (change : Records → Records) : Host :=
  { host with records := change host.records }

/-- The world after a line was added to the trace. -/
def World.traced (world : World) (event : TraceEvent) : World :=
  { world with trace := world.trace ++ [event] }

@[simp] theorem World.setup_granted (world : World) (bytes : Bytes) :
    (world.granted bytes).host.setup = world.host.setup := rfl

namespace Host

variable {host : Host} {bytes : Bytes}

@[simp] theorem setup_told (change : Records → Records) :
    (host.told change).setup = host.setup := rfl

@[simp] theorem setup_granted : (host.granted bytes).setup = host.setup := rfl

theorem record_run (change : Records → Records) :
    record change host = .ok () (host.told change) := rfl

theorem configured_run {α : Type} (ask : Setup → α) :
    configured ask host = .ok (ask host.setup) host := rfl

/-- Writing into the front of a part of the arena. -/
theorem write_within {front middle back : Bytes} (layout : host.arena = front ++ middle ++ back)
    {pointer : UInt32} (here : pointer.toNat = front.length) (fits : bytes.length ≤ middle.length) :
    write pointer bytes host
      = .ok () (host.withArena (front ++ (bytes ++ middle.drop bytes.length) ++ back)) := by
  have room : pointer.toNat + bytes.length ≤ host.arena.length := by
    rw [layout, here, List.length_append, List.length_append]
    omega
  rw [write, if_pos room, here, layout, List.append_assoc, overwrite_append,
    List.drop_append_of_le_length fits]
  simp only [List.append_assoc]

/-- Writing into the front of a fresh region. -/
theorem write_front (grants : host.Grants) {capacity : UInt32}
    (fits : bytes.length ≤ capacity.toNat) (fresh : Host)
    (isFresh : fresh.arena = host.arena ++ List.replicate capacity.toNat 0) :
    write (host.nextRegion capacity).pointer bytes fresh
      = .ok () (fresh.withArena
          (host.arena ++ (bytes ++ List.replicate (capacity.toNat - bytes.length) 0))) := by
  have layout : fresh.arena = host.arena ++ List.replicate capacity.toNat 0 ++ [] := by
    rw [isFresh, List.append_nil]
  have inside : bytes.length ≤ (List.replicate capacity.toNat (0 : UInt8)).length := by
    rw [List.length_replicate]
    exact fits
  rw [write_within layout (toNat_nextRegion grants capacity) inside, List.drop_replicate,
    List.append_nil]

/-- What fills the front of a region, with zeros behind it, is as long as the region. -/
theorem length_padded {capacity : UInt32} (fits : bytes.length ≤ capacity.toNat) :
    (bytes ++ List.replicate (capacity.toNat - bytes.length) 0).length = capacity.toNat := by
  rw [List.length_append, List.length_replicate]
  omega

/-- The ledger only knows how long a granted region is. -/
theorem granted_congr {other : Bytes} (same : other.length = bytes.length) :
    (host.granted other).withArena (host.arena ++ bytes) = host.granted bytes := by
  simp [granted, withArena, same]

/-- A reply that is not empty and fits is written. -/
theorem fill_of_write {after : Host} {pointer capacity : UInt32} (present : 0 < bytes.length)
    (fits : bytes.length ≤ capacity.toNat) (written : write pointer bytes host = .ok () after) :
    fill pointer capacity bytes host = .ok (UInt32.ofNat bytes.length) after := by
  have usable : (bytes.isEmpty || decide (bytes.length > capacity.toNat)) = false := by
    rw [Bool.or_eq_false_iff, decide_eq_false_iff_not, List.isEmpty_eq_false_iff_exists_mem]
    exact ⟨List.exists_mem_of_length_pos present, by omega⟩
  simp only [fill, usable, Bool.false_eq_true, if_false]
  rw [bind_of_ok written]
  rfl

/-- A reply that is written is not reported as an empty one. -/
theorem written_ne_zero {capacity : UInt32} (present : 0 < bytes.length)
    (fits : bytes.length ≤ capacity.toNat) : UInt32.ofNat bytes.length ≠ 0 := by
  intro zero
  have size : (UInt32.ofNat bytes.length).toNat = bytes.length :=
    UInt32.toNat_ofNat_of_lt' (Nat.lt_of_le_of_lt fits capacity.toNat_lt)
  rw [zero] at size
  exact absurd size (Nat.ne_of_lt present)

/-- A reply that fills the front of a fresh region. -/
theorem fill_granted (grants : host.Grants) {capacity : UInt32} (present : 0 < bytes.length)
    (fits : bytes.length ≤ capacity.toNat) :
    fill (host.nextRegion capacity).pointer capacity bytes
        (host.granted (List.replicate capacity.toNat 0))
      = .ok (UInt32.ofNat bytes.length)
          (host.granted (bytes ++ List.replicate (capacity.toNat - bytes.length) 0)) := by
  have whole : (List.replicate capacity.toNat (0 : UInt8)).length
      = (bytes ++ List.replicate (capacity.toNat - bytes.length) 0).length := by
    rw [length_padded fits, List.length_replicate]
  rw [fill_of_write present fits (write_front grants fits _ rfl), granted_congr whole]

/-- The front of a fresh region is a region that could have been granted. -/
theorem truncate_nextRegion {capacity length : UInt32} (le : length ≤ capacity) :
    (host.nextRegion capacity).truncate length = host.nextRegion length := by
  show Buffer.mk _ (if length ≤ capacity then _ else _) = _
  rw [if_pos le]
  rfl

/-- The front of a fresh region holds the reply that filled it. -/
theorem truncate_holds (grants : host.Grants) (nonempty : host.SparesNull)
    {capacity : UInt32} (fits : bytes.length ≤ capacity.toNat) (padding : Bytes) :
    ((host.nextRegion capacity).truncate (UInt32.ofNat bytes.length)).Holds
      (host.granted (bytes ++ padding)).arena bytes := by
  have size : (UInt32.ofNat bytes.length).toNat = bytes.length :=
    UInt32.toNat_ofNat_of_lt' (Nat.lt_of_le_of_lt fits capacity.toNat_lt)
  have le : UInt32.ofNat bytes.length ≤ capacity := by
    rw [UInt32.le_iff_toNat_le, size]
    exact fits
  rw [truncate_nextRegion le]
  refine (nextRegion_holds grants nonempty size.symm).mono ?_
  exact ⟨padding, List.append_assoc _ _ _⟩

/-- An empty reply, and one that does not fit, are not written. -/
theorem fill_unusable {pointer capacity : UInt32}
    (unusable : ¬ (0 < bytes.length ∧ bytes.length ≤ capacity.toNat)) :
    fill pointer capacity bytes host = .ok 0 host := by
  have skipped : (bytes.isEmpty || decide (bytes.length > capacity.toNat)) = true := by
    rw [Bool.or_eq_true, decide_eq_true_eq, List.isEmpty_iff, ← List.length_eq_zero_iff]
    omega
  simp only [fill, skipped, if_true]
  rfl

/-- A text that a region holds is read as it is. -/
theorem readText_holds {buffer : Buffer} {text : String}
    (holds : buffer.Holds host.arena (Utf8.encode text)) :
    readText buffer.pointer buffer.length host = .ok text host := by
  rw [readText, bind_of_ok (readArgument_holds holds), Utf8.decodeLossy_encode]
  rfl

/-- The balance of the address that a region holds, in the token that is read. -/
theorem balance_holds {holder : Buffer} {address sent : Bytes}
    {token tokenLength : UInt32} (holds : holder.Holds host.arena address)
    (size : holder.length = addressCapacity)
    (token_read : readArgument token tokenLength host = .ok sent host) :
    balance holder.pointer token tokenLength host
      = .ok ((host.setup.balances.find? (address, sent)).getD 0) host := by
  rw [balance, ← size, bind_of_ok (readArgument_holds holds), bind_of_ok token_read]
  rfl

end Host

namespace Guest

variable {world : World} {bytes : Bytes}

/-! ## Replies -/

section Replies

variable {capacity : UInt32} {ask : UInt32 → UInt32 → HostCall UInt32}

/-- **A reply is what the host was configured with**, when it is not empty and
fits the buffer. -/
theorem reply?_of_usable (grants : world.host.Grants)
    (nonempty : world.host.SparesNull)
    (asks : ask (world.host.nextRegion capacity).pointer capacity
        (world.host.granted (List.replicate capacity.toNat 0))
      = Host.fill (world.host.nextRegion capacity).pointer capacity bytes
        (world.host.granted (List.replicate capacity.toNat 0)))
    (present : 0 < bytes.length) (fits : bytes.length ≤ capacity.toNat) :
    reply? capacity ask world
      = .ok (some bytes)
          (world.granted (bytes ++ List.replicate (capacity.toNat - bytes.length) 0)) := by
  have size : (UInt32.ofNat bytes.length).toNat = bytes.length :=
    UInt32.toNat_ofNat_of_lt' (Nat.lt_of_le_of_lt fits capacity.toNat_lt)
  have answered :
      call (ask (world.host.nextRegion capacity).pointer (world.host.nextRegion capacity).length)
          (world.granted (List.replicate capacity.toNat 0))
        = .ok (UInt32.ofNat bytes.length)
          (world.granted (bytes ++ List.replicate (capacity.toNat - bytes.length) 0)) :=
    call_of_ok (asks.trans (Host.fill_granted grants present fits))
  have notZero := Host.written_ne_zero present fits
  have usable : (decide (UInt32.ofNat bytes.length = 0)
      || decide (capacity < UInt32.ofNat bytes.length)) = false := by
    rw [Bool.or_eq_false_iff, decide_eq_false_iff_not, decide_eq_false_iff_not, UInt32.not_lt,
      UInt32.le_iff_toNat_le, size]
    exact ⟨notZero, fits⟩
  rw [reply?, bind_of_ok (reserve_of_grants grants nonempty capacity)]
  simp only
  rw [bind_of_ok answered]
  simp only [usable, Bool.false_eq_true, if_false]
  rw [bind_of_ok (readBuffer_holds (Host.truncate_holds grants nonempty fits _))]
  rfl

/-- There is no reply when it is empty or does not fit. -/
theorem reply?_of_unusable (grants : world.host.Grants)
    (nonempty : world.host.SparesNull)
    (asks : ask (world.host.nextRegion capacity).pointer capacity
        (world.host.granted (List.replicate capacity.toNat 0))
      = Host.fill (world.host.nextRegion capacity).pointer capacity bytes
        (world.host.granted (List.replicate capacity.toNat 0)))
    (unusable : ¬ (0 < bytes.length ∧ bytes.length ≤ capacity.toNat)) :
    reply? capacity ask world
      = .ok none ((world.granted (List.replicate capacity.toNat 0)).traced
          (.nothingWritten 0 capacity)) := by
  have answered :
      call (ask (world.host.nextRegion capacity).pointer (world.host.nextRegion capacity).length)
          (world.granted (List.replicate capacity.toNat 0))
        = .ok 0 (world.granted (List.replicate capacity.toNat 0)) :=
    call_of_ok (asks.trans (Host.fill_unusable unusable))
  rw [reply?, bind_of_ok (reserve_of_grants grants nonempty capacity)]
  simp only
  rw [bind_of_ok answered]
  rfl

/-- There is no reply without room for it. -/
theorem reply?_of_not_grants (refuses : ¬ world.host.Grants) :
    reply? capacity ask world = .ok none (world.refused capacity) := by
  rw [reply?, bind_of_ok (reserve_of_not_grants refuses capacity)]
  rfl

end Replies

/-- The parameters that are answered are those that the host has. -/
theorem initParams?_eq_some (nonempty : world.host.SparesNull) {maxLength : UInt32}
    {params : Bytes} {after : World}
    (answers : initParams? maxLength world = .ok (some params) after) :
    params = world.host.setup.initParams ∧ 0 < params.length ∧
      params.length ≤ maxLength.toNat := by
  by_cases grants : world.host.Grants
  · by_cases usable : 0 < world.host.setup.initParams.length ∧
        world.host.setup.initParams.length ≤ maxLength.toNat
    · rw [initParams?, reply?_of_usable grants nonempty rfl usable.1 usable.2] at answers
      cases answers
      exact ⟨rfl, usable⟩
    · rw [initParams?, reply?_of_unusable grants nonempty rfl usable] at answers
      cases answers
  · rw [initParams?, reply?_of_not_grants grants] at answers
    cases answers

/-! ## Balances -/

/-- Once the address found room, the balance is that of the token that was sent. -/
theorem balance_sent (nonempty : world.host.SparesNull) (grants : world.host.Grants)
    (address : Address) (tokenId : Option String)
    (short : ∀ id ∈ tokenId, (Utf8.encode id).length < UInt32.size) :
    ∃ sent after, balance address tokenId world
        = .ok ((world.host.setup.balances.find? (address.toBytes, sent)).getD 0) after ∧
      world.host.Allocated (20 :: argumentLengths (tokenId.map Utf8.encode)) after.host ∧
      Recorded [] (tokenId.map Utf8.encode)
        (world.host.Provides (20 :: argumentLengths (tokenId.map Utf8.encode))) sent := by
  have width := address.short (by decide)
  have tokenShort : ∀ bytes ∈ tokenId.map Utf8.encode, bytes.length < UInt32.size := by
    simpa using short
  have stillNonempty : (world.granted address.toBytes).host.SparesNull := nonempty.granted _
  have first := (Host.Allocated.refl world.host).granted grants nonempty width
  rw [address.length_toBytes] at first
  obtain ⟨token, middle, tokenSent, allocated, kept, sentAs⟩ :=
    @optionalBytes_sentAs _ _ _ (world.granted address.toBytes) first stillNonempty tokenShort
  obtain ⟨sent, token_read, recorded⟩ := sentAs.readArgument
  have holder := (nextRegion_holds_written nonempty grants width).mono kept
  have size : (world.host.nextRegion (UInt32.ofNat address.toBytes.length)).length
      = Host.addressCapacity := holder.length_of_identity rfl
  have found := call_of_ok (Host.balance_holds holder size token_read)
  refine ⟨sent, middle, ?_, allocated, recorded⟩
  rw [balance, bind_of_ok (writeBytes_of_grants grants nonempty width)]
  simp only [orAbandon_ok]
  rw [optionalText, bind_of_ok tokenSent, found, allocated.setup]

/-- **A balance is what the host has for exactly that address and token.**  An
address or a token that finds no room is not sent, and the balance answered
then is another; but after that no allocation is ever granted. -/
theorem balance_of_grants (nonempty : world.host.SparesNull) {address : Address}
    {tokenId : Option String} (short : ∀ id ∈ tokenId, (Utf8.encode id).length < UInt32.size)
    {amount : UInt64} {after : World} (answers : balance address tokenId world = .ok amount after)
    (grants : after.host.Grants) :
    amount = (world.host.setup.balances.find?
      (address.toBytes, (tokenId.map Utf8.encode).getD [])).getD 0 := by
  by_cases granted : world.host.Grants
  · obtain ⟨sent, _, answered, allocated, recorded⟩ :=
      balance_sent nonempty granted address tokenId short
    rw [answered] at answers
    cases answers
    rw [recorded.eq_getD (allocated.provided grants (nonempty.mono allocated.arena.length_le))]
  · have width := address.short (by decide)
    rw [balance, bind_of_ok (writeBytes_of_not_grants granted width)] at answers
    cases answers
    exact absurd grants (Host.not_grants_refused granted _)

/-! ## Reports -/

section Reports

/-- **What is sent is taken, and its status answered, or it never reaches the
host.** -/
theorem send_cases {act : UInt32 → UInt32 → HostCall UInt32} (status : UInt32)
    (change : Records → Records) (nonempty : world.host.SparesNull)
    (acts : ∀ (buffer : Buffer) (host : Host), buffer.Holds host.arena bytes →
      act buffer.pointer buffer.length host
        = .ok status { host with records := change host.records })
    {outcome : Except BoundaryError Unit} {after : World}
    (answers : send bytes act world = .ok outcome after) :
    (outcome = BoundaryError.ofStatus status ∧
      after.host.records = change world.host.records) ∨
    ((∃ error, outcome = .error error ∧ error.code = .executionFailed) ∧
      after.host.records = world.host.records) := by
  by_cases short : bytes.length < UInt32.size
  · by_cases grants : world.host.Grants
    · have holds := Host.nextRegion_holds grants nonempty
        (UInt32.toNat_ofNat_of_lt' short).symm
      rw [send, bind_of_ok (writeBytes_of_grants grants nonempty short)] at answers
      simp only at answers
      have acted := acts _ _ holds
      rw [bind_of_ok (call_of_ok acted)] at answers
      cases answers
      exact .inl ⟨rfl, rfl⟩
    · rw [send, bind_of_ok (writeBytes_of_not_grants grants short)] at answers
      cases answers
      exact .inr ⟨⟨_, rfl, rfl⟩, rfl⟩
  · rw [send, bind_of_ok (writeBytes_of_long short)] at answers
    cases answers
    exact .inr ⟨⟨_, rfl, rfl⟩, rfl⟩

variable {outcome : Except BoundaryError Unit} {after : World}

theorem emitEvent_cases (nonempty : world.host.SparesNull) {event : String}
    (answers : emitEvent event world = .ok outcome after) :
    (outcome = .ok () ∧ after.host.records =
      { world.host.records with events := world.host.records.events ++ [event] }) ∨
    ((∃ error, outcome = .error error ∧ error.code = .executionFailed) ∧
      after.host.records = world.host.records) :=
  send_cases 0 (fun r => { r with events := r.events ++ [event] }) nonempty
    (fun _ _ holds => by
      rw [Host.emitEvent, bind_of_ok (Host.readText_holds holds)]
      rfl) answers

theorem setReturnData_cases (nonempty : world.host.SparesNull)
    (answers : setReturnData bytes world = .ok outcome after) :
    (outcome = .ok () ∧
      after.host.records = { world.host.records with returnData := some bytes }) ∨
    ((∃ error, outcome = .error error ∧ error.code = .executionFailed) ∧
      after.host.records = world.host.records) :=
  send_cases 0 (fun r => { r with returnData := some bytes }) nonempty
    (fun _ _ holds => by
      rw [Host.setReturnData, bind_of_ok (Host.readArgument_holds holds)]
      rfl) answers

end Reports

end Guest

/-! ## Drafts -/

namespace Setup

/-- What a region for the receipt holds after the build: the receipt, cut off at
the end of the region, unless the build failed. -/
def receiptIn (setup : Setup) (capacity : UInt32) : Bytes :=
  let written := if setup.buildStatus = 0 then setup.receipt.take capacity.toNat else []
  written ++ List.replicate (capacity.toNat - written.length) 0

/-- What a build of any draft comes to, once the host has the draft. -/
def verdict (setup : Setup) : Except BoundaryError Receipt :=
  match BoundaryError.ofStatus setup.buildStatus with
  | .error error => .error error
  | .ok () => Receipt.parse (setup.receiptIn Guest.receiptCapacity)

theorem length_receiptIn (setup : Setup) (capacity : UInt32) :
    (setup.receiptIn capacity).length = capacity.toNat := by
  apply Host.length_padded
  split
  · exact List.length_take_le _ _
  · exact Nat.zero_le _

end Setup

namespace TransactionResult

/-- The result that the outcome of a build is reported as. -/
def ofOutcome : Except BoundaryError Receipt → TransactionResult
  | .ok _ => ok
  | .error error => ofError error

theorem success_ofOutcome {outcome : Except BoundaryError Receipt} :
    (ofOutcome outcome).success = true ↔ ∃ receipt, outcome = .ok receipt := by
  cases outcome with
  | ok receipt => exact iff_of_true rfl ⟨receipt, rfl⟩
  | error error => exact iff_of_false nofun nofun

end TransactionResult

/-- Only the status zero is no error. -/
theorem BoundaryError.ofStatus_eq_ok_iff {status : UInt32} :
    ofStatus status = .ok () ↔ status = 0 := by
  rw [← StatusCode.ofHost_eq_success_iff, ofStatus]
  split
  · next success => exact iff_of_true rfl success
  · next notSuccess => exact iff_of_false nofun fun same => notSuccess same

/-- A status is never reported as the error of a success. -/
theorem BoundaryError.code_of_ofStatus {status : UInt32} {error : BoundaryError}
    (refused : ofStatus status = .error error) : error.code ≠ .success := by
  unfold ofStatus at refused
  split at refused
  · cases refused
  · next notSuccess =>
    cases refused
    exact fun same => notSuccess same

/-- A receipt that is not usable reads as a failed execution. -/
theorem Receipt.parse_eq_error {raw : Bytes} {error : BoundaryError}
    (unusable : parse raw = .error error) : error = .host .executionFailed := by
  simp only [parse] at unusable
  split at unusable
  · cases unusable
    rfl
  · split at unusable
    · cases unusable
      rfl
    · split at unusable
      · cases unusable
        rfl
      · cases unusable

/-- **A failed build is never reported as a success.** -/
theorem Setup.code_of_verdict {setup : Setup}
    (failed : (TransactionResult.ofOutcome setup.verdict).success ≠ true) :
    (TransactionResult.ofOutcome setup.verdict).code ≠ .success := by
  cases verdict : setup.verdict with
  | ok receipt =>
    rw [verdict] at failed
    exact absurd rfl failed
  | error error =>
    unfold Setup.verdict at verdict
    split at verdict
    · next refused =>
      cases verdict
      exact BoundaryError.code_of_ofStatus refused
    · rw [Receipt.parse_eq_error verdict]
      nofun

/-- The host takes the draft and fills the region for the receipt. -/
theorem Host.buildTransaction_granted {host : Host} (grants : host.Grants) {draft : Buffer}
    {text : String} (holds : draft.Holds host.arena (Utf8.encode text)) (capacity : UInt32) :
    buildTransaction draft.pointer draft.length (host.nextRegion capacity).pointer
        (host.nextRegion capacity).length (host.granted (List.replicate capacity.toNat 0))
      = .ok host.setup.buildStatus ((host.granted (host.setup.receiptIn capacity)).told fun r =>
          { r with drafts := r.drafts ++ [text] }) := by
  have still : draft.Holds (host.granted (List.replicate capacity.toNat 0)).arena _ :=
    holds.mono (List.prefix_append _ _)
  have whole : (List.replicate capacity.toNat (0 : UInt8)).length
      = (host.setup.receiptIn capacity).length := by
    rw [Setup.length_receiptIn, List.length_replicate]
  rw [buildTransaction, bind_of_ok (readText_holds still), bind_of_ok (record_run _),
    bind_of_ok (configured_run _), setup_told, setup_granted]
  by_cases built : host.setup.buildStatus = 0
  · have shown : host.setup.receiptIn capacity = host.setup.receipt.take capacity.toNat ++
        List.replicate (capacity.toNat - (host.setup.receipt.take capacity.toNat).length) 0 := by
      rw [Setup.receiptIn, if_pos built]
    have written := write_front grants (List.length_take_le capacity.toNat host.setup.receipt)
      ((host.granted (List.replicate capacity.toNat 0)).told fun r =>
        { r with drafts := r.drafts ++ [text] }) rfl
    rw [← shown] at written
    rw [if_pos built, bind_of_ok (configured_run _), setup_told, setup_granted,
      ← granted_congr whole]
    exact bind_of_ok written
  · have blank : host.setup.receiptIn capacity = List.replicate capacity.toNat 0 := by
      simp [Setup.receiptIn, built]
    rw [blank, if_neg built]
    rfl

namespace Guest

variable {world after : World}

/-- **A draft that finds room, and its receipt too, is built as the host was set
up to.**  The host is told the draft, and nothing else. -/
theorem build_of_provides {draft : Draft} (short : (Utf8.encode draft.text).length < UInt32.size)
    (provided : world.host.Provides
      [(Utf8.encode draft.text).length, receiptCapacity.toNat]) :
    ∃ middle after,
      world.host.Allocated [(Utf8.encode draft.text).length, receiptCapacity.toNat] middle ∧
      build draft world = .ok world.host.setup.verdict after ∧
      after.host = middle.told fun r => { r with drafts := r.drafts ++ [draft.text] } := by
  obtain ⟨nonempty, grants, written, provided⟩ := writeBytes_of_provides short provided
  obtain ⟨stillNonempty, again, reserved, -⟩ := reserve_of_provides provided
  have holds := nextRegion_holds_written nonempty grants short
  have built := @call_of_ok ((world.granted _).granted _) _ _ _ _
    (Host.buildTransaction_granted again holds receiptCapacity)
  have receipt := Host.nextRegion_holds again stillNonempty
    (world.host.setup.length_receiptIn receiptCapacity)
  refine ⟨(world.host.granted (Utf8.encode draft.text)).granted
    (world.host.setup.receiptIn receiptCapacity), ?_⟩
  have size := world.host.setup.length_receiptIn receiptCapacity
  have allocated := ((Host.Allocated.refl world.host).granted grants nonempty short).granted
    again stillNonempty (size ▸ receiptCapacity.toNat_lt)
  rw [size] at allocated
  rw [build, writeText, bind_of_ok written]
  simp only [orExecutionFailed]
  rw [bind_of_ok reserved]
  simp only
  rw [bind_of_ok built, Setup.verdict]
  simp only [World.setup_granted]
  cases BoundaryError.ofStatus world.host.setup.buildStatus with
  | error error => exact ⟨_, allocated, rfl, rfl⟩
  | ok _ => exact ⟨_, allocated, bind_of_ok (readBuffer_holds receipt), rfl⟩

/-- A draft that finds no room, or has none left for the receipt, never reaches
the host. -/
theorem build_of_not_provides {draft : Draft}
    (short : (Utf8.encode draft.text).length < UInt32.size)
    (missing : ¬ world.host.Provides
      [(Utf8.encode draft.text).length, receiptCapacity.toNat]) :
    ∃ after, build draft world = .ok (.error (.host .executionFailed)) after ∧
      world.host.OnlyAllocated after.host := by
  rw [build, writeText]
  by_cases first : world.host.Provides [(Utf8.encode draft.text).length]
  · -- the draft is in the arena, but the host is never told where
    obtain ⟨nonempty, grants, written, -⟩ := writeBytes_of_provides short first
    have again : ¬ (world.granted (Utf8.encode draft.text)).host.Provides
        [receiptCapacity.toNat] := fun provided =>
      missing ((Host.provides_cons_iff short).mpr ⟨nonempty, grants, provided⟩)
    obtain ⟨after, refused, only⟩ := reserve_of_not_provides again
    rw [bind_of_ok written]
    simp only [orExecutionFailed]
    rw [bind_of_ok refused]
    exact ⟨after, rfl, (Host.onlyAllocated_granted world.host _).trans only⟩
  · obtain ⟨after, refused, only⟩ := writeBytes_of_not_provides short first
    rw [bind_of_ok refused]
    exact ⟨after, rfl, only⟩

/-- **A draft is taken, or it never reaches the host.**  One that is taken is
built as the host was set up to; one that is not reads as a failed execution. -/
theorem build_cases (world : World) (draft : Draft) :
    ∃ outcome after, build draft world = .ok outcome after ∧
      ((outcome = .error (.host .executionFailed) ∧
        after.host.records = world.host.records) ∨
      (world.host.Grants ∧ outcome = world.host.setup.verdict ∧ after.host.records =
        { world.host.records with
          drafts := world.host.records.drafts ++ [draft.text] })) := by
  by_cases short : (Utf8.encode draft.text).length < UInt32.size
  · by_cases provided : world.host.Provides
        [(Utf8.encode draft.text).length, receiptCapacity.toNat]
    · obtain ⟨middle, after, only, answers, told⟩ := build_of_provides short provided
      have grants : world.host.Grants := (writeBytes_of_provides short provided).2.1
      refine ⟨_, after, answers, .inr ⟨grants, rfl, ?_⟩⟩
      rw [told, ← only.records]
      rfl
    · obtain ⟨after, answers, only⟩ := build_of_not_provides short provided
      exact ⟨_, after, answers, .inl ⟨rfl, only.records⟩⟩
  · rw [build, writeText, bind_of_ok (writeBytes_of_long short)]
    exact ⟨_, _, rfl, .inl ⟨rfl, rfl⟩⟩

/-- The outcome of a build is reported as a result, and the builder is spent. -/
theorem finalize_of_build {builder : Builder} (unspent : builder.finalized = false)
    {outcome : Except BoundaryError Receipt}
    (built : build builder.draft world = .ok outcome after) :
    ∃ trace, finalize builder world
      = .ok (.ofOutcome outcome, { builder with finalized := true }) ⟨after.host, trace⟩ := by
  simp only [finalize, unspent, Bool.false_eq_true, if_false]
  rw [bind_of_ok built]
  cases outcome <;> exact ⟨_, rfl⟩

/-- **A draft that is finalized is taken, or it never reaches the host.** -/
theorem finalize_cases (world : World) {builder : Builder} (unspent : builder.finalized = false) :
    ∃ result after,
      finalize builder world = .ok (result, { builder with finalized := true }) after ∧
      ((result = .failed .executionFailed ∧ after.host.records = world.host.records) ∨
      (world.host.Grants ∧ result = .ofOutcome world.host.setup.verdict ∧
        after.host.records = { world.host.records with
          drafts := world.host.records.drafts ++ [builder.draft.text] })) := by
  obtain ⟨outcome, after, built, told⟩ := build_cases world builder.draft
  obtain ⟨trace, answers⟩ := finalize_of_build unspent built
  refine ⟨_, _, answers, ?_⟩
  rcases told with ⟨rfl, records⟩ | ⟨grants, rfl, records⟩
  · exact .inl ⟨rfl, records⟩
  · exact .inr ⟨grants, rfl, records⟩

end Guest

end HostBoundary
