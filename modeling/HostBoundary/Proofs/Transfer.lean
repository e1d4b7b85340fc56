import HostBoundary.Proofs.Exchange
import HostBoundary.Proofs.FlatScan
import HostBoundary.Proofs.Operations

/-!
# What a transfer does

A transfer can stop at any of its allocations, at the balance, at the build and
at the receipt.  Wherever it stops, what the host was told is one of two things:
nothing but a debug message, or one draft that the caller asked for and can pay.

## The balance that stands in for another

A token id that finds no room is not sent, and the host then answers the balance
in its native token.  The answer would let a transfer pass that the caller
cannot pay.  It does not: refusal is final (`Host.not_grants_refused`), so the
draft finds no room either.
-/

namespace HostBoundary

open Guest

variable {world after : World}

theorem StatusCode.toHost_eq_zero_iff {code : StatusCode} : code.toHost = 0 ↔ code = .success := by
  rw [← ofHost_eq_success_iff, ofHost_toHost]

namespace Token

/-! ## The event -/

/-- The amount of the event is that of the transfer, whatever the texts of the
two addresses are. -/
theorem amount_transferEvent (sender recipient : String) (amount : UInt64) :
    Scan.field (transferEvent sender recipient amount) "amount" = decimal amount := by
  have plain : Flat.Plain "amount" := by decide
  have keys : ∀ pair ∈ [("name", "Transfer"), ("from", sender), ("to", recipient),
      ("amount", decimal amount)], Flat.Plain pair.1 := by
    have plainKeys : ∀ key ∈ ["name", "from", "to", "amount"], Flat.Plain key := by decide
    exact fun pair mem => plainKeys _ (List.mem_map_of_mem (f := Prod.fst) mem)
  have found := Flat.field_text (plain.lookup (by decide) (by decide)) keys
  rw [transferEvent, found]
  have last : [("name", "Transfer"), ("from", sender), ("to", recipient),
      ("amount", decimal amount)].find? (·.1 == "amount") = some ("amount", decimal amount) := rfl
  rw [last, Option.map_some, Option.getD_some, Flat.shown_of_plain (Flat.plain_decimal amount),
    String.ofList_toList]

/-! ## The request -/

theorem request?_eq_some {params : Bytes} {request : TransferRequest}
    (made : request? params = some request) :
    ∃ text, Utf8.decode? params = some text ∧ TransferRequest.ofParams? text = some request ∧
      0 < request.amount := by
  obtain ⟨found, positive⟩ := Option.filter_eq_some_iff.mp made
  obtain ⟨text, decoded, parsed⟩ := Option.bind_eq_some_iff.mp found
  refine ⟨text, decoded, parsed, ?_⟩
  rw [bne_iff_ne] at positive
  exact UInt64.pos_iff_ne_zero.mpr positive

/-- A token id is no longer than the parameters that it was found in. -/
theorem length_tokenId_le {text : String} {request : TransferRequest}
    (parsed : TransferRequest.ofParams? text = some request) :
    ∀ id ∈ request.tokenId, (Utf8.encode id).length ≤ (Utf8.encode text).length := by
  intro id mem
  obtain ⟨recipient, -, rfl⟩ := Option.map_eq_some_iff.mp parsed
  simp only at mem
  split at mem
  · cases mem
  · cases mem
    exact Scan.length_field_le text "token_id"

/-! ## What is reported -/

/-- What the host was told, apart from debug messages and outputs. -/
def reported (records : Records) : List String × List String × Option Bytes :=
  (records.drafts, records.events, records.returnData)

/-- The transfer of an amount was announced: one event that names the amount,
and the amount as the answer of the call. -/
structure Announced (amount : UInt64) (before after : Records) : Prop where
  event : ∃ event, after.events = before.events ++ [event] ∧
    Scan.field event "amount" = decimal amount
  returnData : after.returnData = some (Bytes.ofUInt64 amount)

theorem announce_cases (nonempty : world.host.SparesNull) {sender : Address}
    {request : TransferRequest} {code : StatusCode}
    (answers : announce sender request world = .ok code after) :
    after.host.records.drafts = world.host.records.drafts ∧
    (code = .success → Announced request.amount world.host.records after.host.records) := by
  obtain ⟨senderText, w₁, asked, answers⟩ := bind_eq_ok_iff.mp answers
  obtain ⟨nonempty₁, -, records₁⟩ := (safe_addressText sender).question nonempty asked
  obtain ⟨recipientText, w₂, asked', answers⟩ := bind_eq_ok_iff.mp answers
  obtain ⟨nonempty₂, -, records₂⟩ :=
    (safe_addressText request.recipient).question nonempty₁ asked'
  obtain ⟨emitted, w₃, emits, answers⟩ := bind_eq_ok_iff.mp answers
  rw [← records₁, ← records₂]
  rcases emitEvent_cases nonempty₂ emits with ⟨rfl, records₃⟩ | ⟨⟨error, rfl, -⟩, records₃⟩
  · obtain ⟨answered, w₄, sets, answers⟩ := bind_eq_ok_iff.mp answers
    have nonempty₃ : w₃.host.SparesNull := by
      have safe : Safe Records.drafts w₂.host.arena.length []
          (emitEvent (transferEvent senderText recipientText request.amount)) :=
        safe_emitEvent (fun _ _ => rfl) _
      exact safe.nonempty nonempty₂ emits
    rcases setReturnData_cases nonempty₃ sets with
      ⟨rfl, records₄⟩ | ⟨⟨error, rfl, failed⟩, records₄⟩
    · cases answers
      rw [records₄, records₃]
      exact ⟨rfl, fun _ => ⟨⟨_, rfl, amount_transferEvent _ _ _⟩, rfl⟩⟩
    · cases answers
      rw [records₄, records₃, failed]
      exact ⟨rfl, nofun⟩
  · cases answers
    rw [records₃]
    exact ⟨rfl, nofun⟩

theorem reported_rejectTransfer (nonempty : world.host.SparesNull) {code : StatusCode}
    (answers : rejectTransfer world = .ok code after) :
    reported after.host.records = reported world.host.records ∧ code ≠ .success := by
  refine ⟨((safe_rejectTransfer fun _ _ => rfl).growth nonempty answers).shown, ?_⟩
  obtain ⟨logged, middle, -, answers⟩ := bind_eq_ok_iff.mp answers
  cases logged <;> cases answers <;> nofun

/-- The one draft that a transfer asks for was sent, and the balance that the
host has for the caller in that token covers it. -/
structure Paid (caller : Address) (request : TransferRequest) (before : Host)
    (after : Records) : Prop where
  balance : ∃ balance, before.setup.balances.find?
    (caller.toBytes, (request.tokenId.map Utf8.encode).getD []) = some balance ∧
      request.amount ≤ balance
  draft : after.drafts = before.records.drafts ++
    [Draft.text ⟨.deferSign, [],
      [.transfer caller request.recipient request.amount request.tokenId]⟩]

/-- A balance that is not stored counts as zero, and covers nothing. -/
theorem stored_of_le_getD {stored : Option UInt64} {amount : UInt64} (positive : 0 < amount)
    (enough : amount ≤ stored.getD 0) : ∃ balance, stored = some balance ∧ amount ≤ balance := by
  cases stored with
  | none => exact absurd (UInt64.lt_of_lt_of_le positive enough) (UInt64.lt_irrefl 0)
  | some balance => exact ⟨balance, rfl, enough⟩

/-- **Carrying out a request** either reports nothing and fails, or sends the
draft and succeeds only with the announcement. -/
theorem perform_cases (nonempty : world.host.SparesNull) {caller : Address}
    {request : TransferRequest} (positive : 0 < request.amount)
    (short : ∀ id ∈ request.tokenId, (Utf8.encode id).length < UInt32.size) {code : StatusCode}
    (answers : perform caller request world = .ok code after) :
    (reported after.host.records = reported world.host.records ∧ code ≠ .success) ∨
    (Paid caller request world.host after.host.records ∧
      (code = .success → Announced request.amount world.host.records after.host.records)) := by
  obtain ⟨amount, w₁, asked, answers⟩ := bind_eq_ok_iff.mp answers
  obtain ⟨nonempty₁, setup₁, records₁⟩ :=
    (safe_balance caller request.tokenId).question nonempty asked
  by_cases poor : amount < request.amount
  · rw [if_pos poor] at answers
    have rejected := reported_rejectTransfer nonempty₁ answers
    rw [records₁] at rejected
    exact .inl rejected
  · rw [if_neg poor] at answers
    obtain ⟨⟨result, spent⟩, w₂, finalized, answers⟩ := bind_eq_ok_iff.mp answers
    have unspent : (transferBuilder caller request).finalized = false := rfl
    obtain ⟨_, _, finalized', told⟩ := finalize_cases w₁ unspent
    rw [finalized] at finalized'
    cases finalized'
    rcases told with ⟨rfl, records₂⟩ | ⟨grants, rfl, records₂⟩
    · cases answers
      rw [records₂, records₁]
      exact .inl ⟨rfl, nofun⟩
    · refine .inr ?_
      -- the draft found room, so the token id did too
      have enough := UInt64.not_lt.mp poor
      rw [balance_of_grants nonempty short asked grants] at enough
      have paid : Paid caller request world.host w₂.host.records := by
        refine ⟨stored_of_le_getD positive enough, ?_⟩
        rw [records₂, records₁]
        rfl
      have nonempty₂ : w₂.host.SparesNull := by
        have safe : Safe Records.events w₁.host.arena.length []
            (finalize (transferBuilder caller request)) := safe_finalize (fun _ _ => rfl) _
        exact safe.nonempty nonempty₁ finalized
      by_cases built : (TransactionResult.ofOutcome w₁.host.setup.verdict).success = true
      · simp only [built, if_true] at answers
        obtain ⟨drafts, announced⟩ := announce_cases nonempty₂ answers
        refine ⟨⟨paid.balance, drafts.trans paid.draft⟩, ?_⟩
        intro success
        obtain ⟨⟨event, events, amount⟩, returned⟩ := announced success
        refine ⟨⟨event, ?_, amount⟩, returned⟩
        rw [events, records₂, records₁]
      · simp only [built] at answers
        cases answers
        exact ⟨paid, fun success => absurd success (Setup.code_of_verdict built)⟩

/-- In an empty arena the first region is taken for a refusal, and the parameters
are never read. -/
theorem transfer_of_empty (invocation : Invocation) (empty : world.host.arena = []) :
    ∃ status after, transfer invocation world = .ok status after ∧
      reported after.host.records = reported world.host.records ∧ status ≠ 0 := by
  have missing : ¬ world.host.Provides [paramsCapacity.toNat] := Host.not_provides_of_empty empty
  obtain ⟨after, refused, only⟩ := reserve_of_not_provides missing
  have asked : initParams? paramsCapacity world = .ok none after := by
    rw [initParams?, reply?, bind_of_ok refused]
    rfl
  refine ⟨StatusCode.toHost .invalidParams, after, ?_, ?_, ?_⟩
  · rw [transfer, bind_of_ok asked]
    rfl
  · rw [only.records]
  · decide

/-- **A transfer is sound**, on every host.  It answers; and either it reports
nothing and answers a failure, or the parameters of the call are a text of at
most 1024 bytes that makes a request for more than nothing, the balance of the
caller covers it, and exactly its draft was sent.  It answers success only after
the announcement. -/
theorem transfer_sound (invocation : Invocation) (world : World) :
    ∃ status after, transfer invocation world = .ok status after ∧
      ((reported after.host.records = reported world.host.records ∧ status ≠ 0) ∨
      ∃ text request,
        Utf8.decode? world.host.setup.initParams = some text ∧
        1 ≤ world.host.setup.initParams.length ∧
        world.host.setup.initParams.length ≤ 1024 ∧
        TransferRequest.ofParams? text = some request ∧ 0 < request.amount ∧
        Paid invocation.caller request world.host after.host.records ∧
        (status = 0 →
          Announced request.amount world.host.records after.host.records)) := by
  by_cases nonempty : world.host.SparesNull
  · have safe : Safe (fun _ => ()) world.host.arena.length [] (transfer invocation) :=
      safe_transfer ⟨fun _ _ => rfl, fun _ _ => rfl, fun _ _ => rfl, fun _ _ => rfl⟩ invocation
    obtain ⟨status, after, answers, -⟩ := safe world nonempty (Nat.le_refl _) nofun
    refine ⟨status, after, answers, ?_⟩
    obtain ⟨params, w₁, asked, answers⟩ := bind_eq_ok_iff.mp answers
    obtain ⟨nonempty₁, setup₁, records₁⟩ := (safe_initParams? _).question nonempty asked
    cases made : params.bind request? with
    | none =>
      simp only [made] at answers
      cases answers
      rw [records₁]
      exact .inl ⟨rfl, by decide⟩
    | some request =>
      simp only [made] at answers
      obtain ⟨code, w₂, performed, answers⟩ := bind_eq_ok_iff.mp answers
      cases answers
      obtain ⟨bytes, rfl, made⟩ := Option.bind_eq_some_iff.mp made
      obtain ⟨rfl, present, fits⟩ := initParams?_eq_some nonempty asked
      obtain ⟨text, decoded, parsed, positive⟩ := request?_eq_some made
      have short : ∀ id ∈ request.tokenId, (Utf8.encode id).length < UInt32.size := by
        intro id mem
        have le := length_tokenId_le parsed id mem
        rw [Utf8.encode_of_decode? decoded] at le
        exact Nat.lt_of_le_of_lt (Nat.le_trans le fits) (by decide)
      have outcome := perform_cases nonempty₁ positive short performed
      rw [records₁] at outcome
      rcases outcome with ⟨nothing, failed⟩ | ⟨paid, announced⟩
      · exact .inl ⟨nothing, fun zero => failed (StatusCode.toHost_eq_zero_iff.mp zero)⟩
      · refine .inr ⟨text, request, decoded, present, fits, parsed, positive, ?_, ?_⟩
        · obtain ⟨balance, draft⟩ := paid
          rw [setup₁] at balance
          rw [records₁] at draft
          exact ⟨balance, draft⟩
        · exact fun zero => announced (StatusCode.toHost_eq_zero_iff.mp zero)
  · have empty : world.host.arena = [] := Host.not_sparesNull_iff.mp nonempty
    obtain ⟨status, after, answers, nothing, failed⟩ := transfer_of_empty invocation empty
    exact ⟨status, after, answers, .inl ⟨nothing, failed⟩⟩

end Token

end HostBoundary
