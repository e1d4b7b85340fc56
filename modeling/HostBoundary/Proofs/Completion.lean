import Mathlib.Tactic.Linarith
import HostBoundary.Proofs.DraftText
import HostBoundary.Proofs.FlatFields
import HostBoundary.Proofs.Provisions
import HostBoundary.Proofs.Runs
import HostBoundary.Proofs.Transfer

/-!
# Transfers that go through

Soundness says what a transfer may not do, and a contract that never sends
anything is sound.  This module is about the other direction: a host that is set
up for the request, and has room, sees the transfer go through, with one draft,
one event and the amount as the answer.

## How much room

The regions of a transfer are those of its parameters, of the balance, of the
draft and its receipt, of the texts of two addresses, of the event and of the
answer.  All but the draft and the event have a fixed size.  The draft holds the
token id, which is no longer than the parameters that it came in, and the event
holds two texts of at most 64 bytes, each of them escaped.  So a transfer takes
less than `transferRoom` bytes, whatever it is asked for.

## Main results

* `Token.performs_transfer` — what a transfer asks for, and what it does.
* `Token.transfer_completes` — the transfer as the host sees it.
* `Token.completes_of_reachable` — a transfer wherever a run leads.
-/

namespace HostBoundary

open Guest

variable {world : World}

/-! ## How long the texts are -/

namespace Utf8

/-- Digits are as many bytes as characters. -/
theorem length_spell_digits {s : List Char} (digits : ∀ c ∈ s, c.isDigit = true) :
    (spell s).length = s.length := by
  induction s with
  | nil => rfl
  | cons c s ih =>
    obtain ⟨k, -, -, spelled⟩ := utf8EncodeChar_digit (digits c List.mem_cons_self)
    rw [spell_cons, spelled, List.length_append, List.length_cons, List.length_nil,
      ih fun d mem => digits d (List.mem_cons_of_mem c mem), List.length_cons, Nat.add_comm]

theorem length_decimal_le (n : UInt64) : (encode (decimal n)).length ≤ 20 := by
  have bound : n.toNat < 10 ^ 20 := Nat.lt_trans n.toNat_lt (by decide)
  have digits (c : Char) (mem : c ∈ Nat.toDigits 10 n.toNat) : c.isDigit = true :=
    Nat.isDigit_of_mem_toDigits (by decide) (by decide) mem
  rw [decimal, Nat.repr_eq_ofList_toDigits, encode_ofList, length_spell_digits digits]
  exact (Nat.length_toDigits_le_iff (by decide) (by decide)).mpr bound

/-- Escaping at most doubles a text. -/
theorem length_escapeChars_le (s : List Char) :
    (spell (Flat.escapeChars s)).length ≤ 2 * (spell s).length := by
  induction s with
  | nil => exact Nat.le_refl _
  | cons c s ih =>
    have front : (spell (Flat.escapeChar c)).length ≤ 2 * (String.utf8EncodeChar c).length := by
      by_cases escaped : c ∈ Flat.escapedChars
      · have each : Flat.escapedChars.all fun c => (spell (Flat.escapeChar c)).length = 2 := by
          decide
        have two := of_decide_eq_true (List.all_eq_true.mp each c escaped)
        rw [two, String.length_utf8EncodeChar]
        exact Nat.le_mul_of_pos_right 2 c.utf8Size_pos
      · rw [Flat.escapeChar_of_notMem escaped, spell_cons, spell_nil, List.append_nil]
        omega
    rw [Flat.escapeChars_cons, spell_append, spell_cons, List.length_append, List.length_append]
    omega

end Utf8

/-- A bound for the token ids is one for the bytes that stand for one. -/
theorem length_getD_le {tokenId : Option String} {bound : Nat}
    (short : ∀ id ∈ tokenId, (Utf8.encode id).length ≤ bound) :
    ((tokenId.map Utf8.encode).getD []).length ≤ bound := by
  cases tokenId with
  | none => exact Nat.zero_le bound
  | some id => exact short id rfl

/-- An optional argument takes a region of its own length, or none. -/
theorem sum_argumentLengths (argument : Option Bytes) (rest : List Nat) :
    (argumentLengths argument ++ rest).foldr (· + ·) 0
      = (argument.getD []).length + rest.foldr (· + ·) 0 := by
  cases argument with
  | none => exact (Nat.zero_add _).symm
  | some bytes =>
    cases bytes with
    | nil => exact (Nat.zero_add _).symm
    | cons b bytes => rfl

/-- The draft of a transfer is as long as one of nothing between two known accounts,
but for the token id and the amount. -/
theorem Draft.length_transfer_le (sender recipient : Address) (amount : UInt64)
    (tokenId : Option String) :
    (Utf8.encode (text ⟨.deferSign, [], [.transfer sender recipient amount tokenId]⟩)).length
      ≤ 512 + 2 * ((tokenId.map Utf8.encode).getD []).length := by
  have blank : (Utf8.encode (text ⟨.deferSign, [], [.transfer .zero .zero 0 none]⟩)).length
      ≤ 256 := by
    decide +kernel
  have token : (Utf8.encode (tokenHex tokenId)).length
      = 2 * ((tokenId.map Utf8.encode).getD []).length := by
    rw [tokenHex_eq, Hex.length_encode]
    cases tokenId <;> rfl
  have decimals := Utf8.length_decimal_le amount
  simp only [text, IntentDraft.text, IntentDraft.params, IntentDraft.typeName, List.map_cons,
    List.map_nil, String.intercalate_singleton, String.join_cons, Utf8.encode_append,
    List.length_append, FixedBytes.length_toHex] at blank ⊢
  -- the fixed pieces are the same on both sides; `omega` would compare them letter by letter
  linarith

namespace Token

/-- The event of a transfer is as long as an empty one, but for the two addresses
and the amount. -/
theorem length_transferEvent_le (sender recipient : String) (amount : UInt64) :
    (Utf8.encode (transferEvent sender recipient amount)).length
      ≤ 256 + 2 * (Utf8.encode sender).length + 2 * (Utf8.encode recipient).length := by
  have blank : (Utf8.encode (transferEvent "" "" 0)).length ≤ 128 := by decide
  have sent := Utf8.length_escapeChars_le sender.toList
  have received := Utf8.length_escapeChars_le recipient.toList
  have decimals := Utf8.length_escapeChars_le (decimal amount).toList
  have digits := Utf8.length_decimal_le amount
  rw [← Utf8.encode_eq_spell] at sent received decimals
  simp only [transferEvent, Flat.text, Flat.pairsChars, Flat.pairChars, Flat.stringChars,
    Utf8.encode_ofList, Utf8.spell_append, Utf8.spell_cons, List.cons_append,
    List.length_append] at blank ⊢
  linarith

/-- An address is shown in at most 64 bytes. -/
theorem length_shownAddress_le (setup : Setup) (address : Address) :
    (Utf8.encode (shownAddress setup address)).length ≤ 64 := by
  simp only [shownAddress]
  split
  · next usable => exact usable.2
  · rw [FixedBytes.length_toHex]
    decide

/-! ## The parts of a transfer -/

/-- What the host is told when a transfer is announced. -/
def announced (event : String) (amount : UInt64) (records : Records) : Records :=
  { records with events := records.events ++ [event], returnData := some (Bytes.ofUInt64 amount) }

/-- The event of a transfer, with the addresses as the host shows them. -/
def shownEvent (setup : Setup) (sender : Address) (request : TransferRequest) : String :=
  transferEvent (shownAddress setup sender) (shownAddress setup request.recipient) request.amount

theorem length_shownEvent_le (setup : Setup) (sender : Address) (request : TransferRequest) :
    (Utf8.encode (shownEvent setup sender request)).length ≤ 512 := by
  have bound := length_transferEvent_le (shownAddress setup sender)
    (shownAddress setup request.recipient) request.amount
  have sent := length_shownAddress_le setup sender
  have received := length_shownAddress_le setup request.recipient
  rw [shownEvent]
  omega

theorem performs_announce (sender : Address) (request : TransferRequest) :
    Performs world (announce sender request)
      [20, 64, 20, 64, (Utf8.encode (shownEvent world.host.setup sender request)).length, 8]
      (announced (shownEvent world.host.setup sender request) request.amount) .success := by
  have short : (Utf8.encode (shownEvent world.host.setup sender request)).length < UInt32.size :=
    Nat.lt_of_le_of_lt (length_shownEvent_le _ _ _) (by decide)
  have answerShort : (Bytes.ofUInt64 request.amount).length < UInt32.size := by
    rw [Bytes.length_ofUInt64]
    decide
  intro rest provided
  obtain ⟨w₁, asked, provided, setup₁, records₁⟩ := performs_addressText sender _ provided
  obtain ⟨w₂, asked', provided, setup₂, records₂⟩ :=
    performs_addressText request.recipient _ provided
  rw [setup₁] at asked'
  obtain ⟨w₃, emitted, provided, setup₃, records₃⟩ := performs_emitEvent short _ provided
  rw [shownEvent] at emitted
  obtain ⟨w₄, answered, provided, setup₄, records₄⟩ :=
    performs_setReturnData answerShort rest provided
  refine ⟨w₄, ?_, provided, ?_, ?_⟩
  · rw [announce, bind_of_ok asked, bind_of_ok asked', bind_of_ok emitted]
    simp only
    rw [bind_of_ok answered]
    rfl
  · rw [setup₄, setup₃, setup₂, setup₁]
  · rw [records₄, records₃, records₂, records₁]
    rfl

/-- The host is set up for a request of the sender: the parameters of the call make
it, the sender can pay it, and the draft is built. -/
structure Serves (setup : Setup) (sender : Address) (request : TransferRequest) : Prop where
  /-- The parameters of the call are those of the request. -/
  params : setup.initParams = Utf8.encode request.paramsText
  /-- The parameters fit their buffer. -/
  fits : setup.initParams.length ≤ 1024
  /-- The balance covers the amount. -/
  covers : request.amount ≤ (setup.balances.find?
    (sender.toBytes, (request.tokenId.map Utf8.encode).getD [])).getD 0
  /-- The draft is built. -/
  builds : setup.Builds

/-- The draft that a transfer sends. -/
def transferDraft (sender : Address) (request : TransferRequest) : Draft :=
  ⟨.deferSign, [], [.transfer sender request.recipient request.amount request.tokenId]⟩

/-- What the host is told of a transfer that goes through. -/
def completed (setup : Setup) (sender : Address) (request : TransferRequest)
    (records : Records) : Records :=
  { records with
    drafts := records.drafts ++ [(transferDraft sender request).text]
    events := records.events ++ [shownEvent setup sender request]
    returnData := some (Bytes.ofUInt64 request.amount) }

/-- The regions that carrying out a request takes. -/
def performLengths (setup : Setup) (sender : Address) (request : TransferRequest) : List Nat :=
  20 :: argumentLengths (request.tokenId.map Utf8.encode) ++
    [(Utf8.encode (transferDraft sender request).text).length, 4096, 20, 64, 20, 64,
      (Utf8.encode (shownEvent setup sender request)).length, 8]

/-- **A request that can be paid is carried out.** -/
theorem performs_perform {sender : Address} {request : TransferRequest}
    (short : ∀ id ∈ request.tokenId, (Utf8.encode id).length ≤ 1024)
    (covers : request.amount ≤ (world.host.setup.balances.find?
      (sender.toBytes, (request.tokenId.map Utf8.encode).getD [])).getD 0)
    (builds : world.host.setup.Builds) :
    Performs world (perform sender request) (performLengths world.host.setup sender request)
      (completed world.host.setup sender request) .success := by
  have tokenShort (id : String) (mem : id ∈ request.tokenId) :
      (Utf8.encode id).length < UInt32.size :=
    Nat.lt_of_le_of_lt (short id mem) (by decide)
  have same : (transferBuilder sender request).draft = transferDraft sender request := rfl
  have draftShort : (Utf8.encode (transferBuilder sender request).draft.text).length
      < UInt32.size := by
    have token := length_getD_le short
    have bound := Draft.length_transfer_le sender request.recipient request.amount request.tokenId
    rw [same, transferDraft]
    exact Nat.lt_of_le_of_lt bound (Nat.lt_of_le_of_lt
      (Nat.add_le_add_left (Nat.mul_le_mul_left 2 token) 512) (by decide))
  intro rest provided
  rw [performLengths, List.append_assoc] at provided
  obtain ⟨w₁, asked, provided, setup₁, records₁⟩ := performs_balance sender tokenShort _ provided
  rw [← setup₁] at builds
  have finalizes := @performs_finalize w₁ (transferBuilder sender request) rfl draftShort builds
  rw [same] at finalizes
  obtain ⟨w₂, finalized, provided, setup₂, records₂⟩ := finalizes _ provided
  obtain ⟨w₃, announced, provided, setup₃, records₃⟩ :=
    @performs_announce w₂ sender request rest (by rw [setup₂, setup₁]; exact provided)
  refine ⟨w₃, ?_, provided, ?_, ?_⟩
  · rw [perform, bind_of_ok asked, if_neg (UInt64.not_lt.mpr covers), bind_of_ok finalized]
    exact announced
  · rw [setup₃, setup₂, setup₁]
  · rw [records₃, records₂, records₁, setup₂, setup₁]
    rfl

/-- The parameters of a request make it again, if the request is for more than nothing
and names no token that is empty or needs an escape. -/
theorem request?_paramsText {request : TransferRequest} (positive : 0 < request.amount)
    (named : ∀ id ∈ request.tokenId, id ≠ "" ∧ Flat.Plain id) :
    request? (Utf8.encode request.paramsText) = some request := by
  have token : (request.tokenId.filter (· ≠ "")).map (fun id => String.ofList (Flat.shown id))
      = request.tokenId := by
    cases present : request.tokenId with
    | none => rfl
    | some id =>
      obtain ⟨nonempty, plain⟩ := named id present
      rw [Option.filter_some_pos (by simpa using nonempty), Option.map_some,
        (Flat.ofList_shown_eq_iff id).mpr plain]
  have parsed := TransferRequest.ofParams?_eq request
  rw [token] at parsed
  rw [request?, Utf8.decode?_encode, Option.bind_some, parsed]
  exact Option.filter_some_pos (bne_iff_ne.mpr (UInt64.pos_iff_ne_zero.mp positive))

/-- The parameters of a request are never empty. -/
theorem length_paramsText_pos (request : TransferRequest) :
    0 < (Utf8.encode request.paramsText).length := by
  rw [TransferRequest.paramsText, Flat.text, Utf8.encode_ofList, Utf8.spell_cons,
    List.length_append, String.length_utf8EncodeChar]
  exact Nat.add_pos_left (Char.utf8Size_pos _) _

/-- A token id that came in the parameters is no longer than these may be. -/
theorem short_tokenId {setup : Setup} {sender : Address} {request : TransferRequest}
    (positive : 0 < request.amount) (named : ∀ id ∈ request.tokenId, id ≠ "" ∧ Flat.Plain id)
    (serves : Serves setup sender request) :
    ∀ id ∈ request.tokenId, (Utf8.encode id).length ≤ 1024 := by
  intro id mem
  obtain ⟨text, decoded, parsed, -⟩ := request?_eq_some (request?_paramsText positive named)
  have le := length_tokenId_le parsed id mem
  rw [Utf8.encode_of_decode? decoded, ← serves.params] at le
  exact Nat.le_trans le serves.fits

theorem performs_transfer {invocation : Invocation} {request : TransferRequest}
    (positive : 0 < request.amount) (named : ∀ id ∈ request.tokenId, id ≠ "" ∧ Flat.Plain id)
    (serves : Serves world.host.setup invocation.caller request) :
    Performs world (transfer invocation)
      (1024 :: performLengths world.host.setup invocation.caller request)
      (completed world.host.setup invocation.caller request) 0 := by
  have short := short_tokenId positive named serves
  obtain ⟨params, fits, covers, builds⟩ := serves
  have made := request?_paramsText positive named
  have present := length_paramsText_pos request
  rw [← params] at made present
  intro rest provided
  obtain ⟨w₁, asked, provided, setup₁, records₁⟩ := performs_initParams? paramsCapacity _ provided
  have seen : seen? paramsCapacity.toNat world.host.setup.initParams
      = some world.host.setup.initParams := if_pos ⟨present, fits⟩
  rw [seen] at asked
  rw [← setup₁] at covers builds provided
  obtain ⟨w₂, performed, provided, setup₂, records₂⟩ :=
    performs_perform short covers builds rest provided
  refine ⟨w₂, ?_, provided, setup₂.trans setup₁, ?_⟩
  · rw [transfer, bind_of_ok asked, Option.bind_some, made]
    exact bind_of_ok performed
  · rw [records₂, records₁, setup₁]
    rfl

/-- How much room a transfer takes at most. -/
def transferRoom : Nat := 16384

/-- A transfer of a token with a short id takes no more room than that. -/
theorem sum_lengths_le (setup : Setup) (sender : Address) {request : TransferRequest}
    (short : ∀ id ∈ request.tokenId, (Utf8.encode id).length ≤ 1024) :
    (1024 :: performLengths setup sender request).foldr (· + ·) 0 ≤ transferRoom := by
  have event := length_shownEvent_le setup sender request
  have draft := Draft.length_transfer_le sender request.recipient request.amount request.tokenId
  have token := length_getD_le short
  rw [performLengths, List.cons_append, List.foldr_cons, List.foldr_cons, sum_argumentLengths,
    transferDraft, transferRoom]
  simp only [List.foldr_cons, List.foldr_nil]
  linarith

/-- Without limits and with some room left in the arena, a transfer finds all the regions
that it asks for. -/
theorem transfer_of_room {invocation : Invocation} {request : TransferRequest}
    (positive : 0 < request.amount)
    (named : ∀ id ∈ request.tokenId, id ≠ "" ∧ Flat.Plain id)
    (unlimited : world.host.policy = .unlimited) (spares : world.host.SparesNull)
    (room : world.host.arena.length + transferRoom < UInt32.size)
    (serves : Serves world.host.setup invocation.caller request) :
    ∃ after, transfer invocation world = .ok 0 after ∧
      after.host.records
        = completed world.host.setup invocation.caller request world.host.records := by
  have short := short_tokenId positive named serves
  have sum := sum_lengths_le world.host.setup invocation.caller short
  have provided : world.host.Provides
      (1024 :: performLengths world.host.setup invocation.caller request) :=
    Host.provides_of_unlimited unlimited spares (by omega)
  rw [← List.append_nil (1024 :: _)] at provided
  obtain ⟨after, answers, -, -, records⟩ := performs_transfer positive named serves [] provided
  exact ⟨after, answers, records⟩

/-- **A transfer that can be paid goes through.**  On a host without limits that is
set up for the request, and with some room left in the arena, it answers success;
and exactly the draft, the event and the answer are what the host is told.  The
amount is found in the event whatever the texts of the two addresses are.

The arena must not be empty, or the first region would read as a refusal.  Every host that
a run leads to has the bytes in front that see to it (`Reachable.reserved`), and there
nothing has to be asked of the arena but the room (`completes_of_reachable`). -/
theorem transfer_completes (invocation : Invocation) (request : TransferRequest) (world : World)
    (positive : 0 < request.amount)
    (named : ∀ id ∈ request.tokenId, id ≠ "" ∧ Flat.Plain id)
    (unlimited : world.host.policy = .unlimited) (spares : world.host.SparesNull)
    (room : world.host.arena.length + transferRoom < UInt32.size)
    (serves : Serves world.host.setup invocation.caller request) :
    ∃ event after, transfer invocation world = .ok 0 after ∧
      event = Flat.text [
        ("name", "Transfer"),
        ("from", shownAddress world.host.setup invocation.caller),
        ("to", shownAddress world.host.setup request.recipient),
        ("amount", decimal request.amount)] ∧
      Scan.field event "amount" = decimal request.amount ∧
      after.host.records = { world.host.records with
        drafts := world.host.records.drafts ++ [Draft.text ⟨.deferSign, [],
          [.transfer invocation.caller request.recipient request.amount request.tokenId]⟩]
        events := world.host.records.events ++ [event]
        returnData := some (Bytes.ofUInt64 request.amount) } := by
  obtain ⟨after, answers, records⟩ :=
    transfer_of_room positive named unlimited spares room serves
  exact ⟨_, after, answers, rfl, amount_transferEvent _ _ _, records⟩

/-- A host on which the caller holds 1000 gold and asks to move 250 of it.  It shows the
caller in a text that looks like the end of an event. -/
def goldHost : Host :=
  ((Host.initial.configure (.initParams (Utf8.encode
      (TransferRequest.paramsText ⟨.zero, 250, some "gold"⟩)))).configure
    (.balance (FixedBytes.zero : Address).toBytes (Utf8.encode "gold") 1000)).configure
    (.base58 (FixedBytes.zero : Address).toBytes "\",\"amount\":\"9\"\x7d")

/-- The amount in the event is the one that was moved. -/
theorem transfer_completes_gold :
    Serves goldHost.setup .zero ⟨.zero, 250, some "gold"⟩ ∧
    ∃ event after, transfer ⟨.zero, .zero, 0, 0⟩ ⟨goldHost, []⟩ = .ok 0 after ∧
      Scan.field event "amount" = "250" ∧ after.host.records.events = [event] := by
  have covers : (goldHost.setup.balances.find?
      ((FixedBytes.zero : Address).toBytes, Utf8.encode "gold")).getD 0 = 1000 := by
    decide
  have serves : Serves goldHost.setup .zero ⟨.zero, 250, some "gold"⟩ := by
    refine ⟨rfl, by decide, ?_, rfl, ⟨defaultReceipt⟩, by decide⟩
    show (250 : UInt64) ≤ _
    rw [Option.map_some, Option.getD_some, covers]
    decide
  have named : ∀ id ∈ some "gold", id ≠ "" ∧ Flat.Plain id := by
    intro id mem
    cases mem
    exact ⟨by decide, by decide⟩
  obtain ⟨event, after, answers, -, amount, records⟩ :=
    transfer_completes ⟨.zero, .zero, 0, 0⟩ ⟨.zero, 250, some "gold"⟩ ⟨goldHost, []⟩ (by decide)
      named rfl (by decide) (by decide) serves
  refine ⟨serves, event, after, answers, amount, ?_⟩
  rw [records]
  rfl

/-- **Wherever a run leads, a transfer that can be paid goes through**, on a host that is
set up for it, without limits, and has the room. -/
theorem completes_of_reachable {invocation : Invocation} {request : TransferRequest}
    (reachable : Reachable world) (positive : 0 < request.amount)
    (named : ∀ id ∈ request.tokenId, id ≠ "" ∧ Flat.Plain id)
    (unlimited : world.host.policy = .unlimited)
    (room : world.host.arena.length + transferRoom < UInt32.size)
    (serves : Serves world.host.setup invocation.caller request) :
    ∃ after, transfer invocation world = .ok 0 after ∧
      after.host.records
        = completed world.host.setup invocation.caller request world.host.records :=
  transfer_of_room positive named unlimited reachable.sparesNull room serves

end Token

end HostBoundary
