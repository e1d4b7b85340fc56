import HostBoundary.Guest.Invocation
import HostBoundary.Proofs.Lookups

/-!
# What stands in for an answer

Questions whose answer cannot say "nothing" answer something else where an
allocation is not granted: an identity is zero, a balance is zero.  A caller
sees no difference between such a value and an answer.  This module says what
two questions come to that ask for more than one region, for each point at which
the room can run out.

* `balance` asks for the region of the address first, then for that of the token.
  Without the second it is asked all the same, with no token, and that names the
  native one.  So the balance answered can be one of another token than was asked
  for.
* `loadInvocation` asks for the caller first, then for the contract.  Two
  identities that are both missing are both zero, hence equal, and the call looks
  like one that the contract makes itself.

## Main results

* `Guest.balance_by_room` — which balance is answered.
* `Guest.isSelfCall_by_room` — what a self-call comes to.
-/

namespace HostBoundary

namespace Guest

variable {world : World}

/-! ## Balances -/

/-- The balance that the host has for an address and a token, zero if there is none. -/
def storedBalance (setup : Setup) (address : Address) (tokenId : String) : UInt64 :=
  (setup.balances.find? (address.toBytes, Utf8.encode tokenId)).getD 0

/-- **A balance is that of the token that was asked for, where both the address and
the token find room.**  Without room for the address it is zero, and without room
for the token it is that of the native one. -/
theorem balance_by_room (world : World) (address : Address) (tokenId : String)
    (named : tokenId ≠ "") (short : (Utf8.encode tokenId).length < UInt32.size) :
    ∃ amount after, balance address (some tokenId) world = .ok amount after ∧
      world.host.OnlyAllocated after.host ∧
      (¬ world.host.Provides [20] → amount = 0) ∧
      (world.host.Provides [20, (Utf8.encode tokenId).length] →
        amount = storedBalance world.host.setup address tokenId) ∧
      (world.host.Provides [20] → ¬ world.host.Provides [20, (Utf8.encode tokenId).length] →
        amount = storedBalance world.host.setup address "") := by
  have nonempty : Utf8.encode tokenId ≠ [] := mt Utf8.encode_eq_nil.mp named
  have size := address.length_toBytes
  have width := address.short (by decide)
  by_cases room : world.host.Provides [20]
  · obtain ⟨somewhere, grants, -⟩ := (Host.provides_cons_iff width).mp (size.symm ▸ room)
    obtain ⟨sent, after, answers, allocated, recorded⟩ :=
      balance_sent somewhere grants address (some tokenId) (by simpa using short)
    rw [Option.map_some, argumentLengths_of_nonempty nonempty] at recorded
    refine ⟨_, after, answers, allocated.toOnlyAllocated, fun missing => absurd room missing,
      fun found => ?_, fun _ missing => ?_⟩
    · rw [recorded.eq_getD found]
      rfl
    · rw [recorded.absent_iff.mpr (.inr (.inr missing))]
      rfl
  · obtain ⟨after, refused, only⟩ := writeBytes_of_not_provides width (size.symm ▸ room)
    have neither : ¬ world.host.Provides [20, (Utf8.encode tokenId).length] :=
      fun found => room (Host.provides_of_append found)
    refine ⟨0, after.traced (.callAbandoned .outOfMemory), ?_, only, fun _ => rfl,
      fun found => absurd found neither, fun found => absurd found room⟩
    rw [balance, bind_of_ok refused]
    rfl

/-- A host with native funds for one account, and room for one more region. -/
def nativeFunds : Host :=
  (Host.initial.configure (.balance (List.replicate 20 1) [] 1000)).configure
    (.allocBudget (some 1))

/-- The account has no gold there, and it is answered its native funds when it asks
for its gold. -/
theorem balance_by_room_native :
    storedBalance nativeFunds.setup ⟨List.replicate 20 1, rfl⟩ "gold" = 0 ∧
    ∃ after, balance ⟨List.replicate 20 1, rfl⟩ (some "gold") ⟨nativeFunds, []⟩
      = .ok 1000 after := by
  obtain ⟨amount, after, answers, -, -, -, native⟩ :=
    balance_by_room ⟨nativeFunds, []⟩ ⟨List.replicate 20 1, rfl⟩ "gold" (by decide) (by decide)
  refine ⟨by decide, after, ?_⟩
  rw [answers, native (by decide) (by decide)]
  rfl

/-! ## Self-calls -/

/-- An identity that the host knows in full is seen where its buffer finds room,
and is zero where it does not. -/
theorem identity_by_room (world : World) (ask : UInt32 → HostCall UInt32) {reply : Bytes}
    (whole : reply.length = 20)
    (asks : ∀ (pointer : UInt32) (host : Host), host.setup = world.host.setup →
      ask pointer host = Host.fill pointer addressCapacity reply host) :
    ∃ after, ((·.getD .zero) <$> replyAddress? ask) world
        = .ok (if world.host.Provides [20] then ⟨reply, whole⟩ else .zero) after ∧
      world.host.OnlyAllocated after.host ∧
      (world.host.SparesNull → world.host.Allocated [20] after.host) := by
  obtain ⟨after, answers, only, allocated⟩ :=
    @reply?_outcome world reply addressCapacity (fun pointer _ => ask pointer)
      fun pointer host _ same => asks pointer host same
  refine ⟨after, ?_, only, allocated⟩
  have seen : seen? 20 reply = some reply := if_pos (by omega)
  have full : (FixedBytes.ofFront reply : Address) = ⟨reply, whole⟩ :=
    FixedBytes.ofFront_toBytes ⟨reply, whole⟩
  have room : addressCapacity.toNat = 20 := rfl
  rw [room, seen] at answers
  refine (map_of_ok _ (map_of_ok _ answers)).trans ?_
  split
  · rw [← full]
    rfl
  · rfl

/-- An invocation is loaded from the two identities, one after the other. -/
theorem loadInvocation_of_ok {middle after : World} {sender contract : Address}
    (callerSeen : caller world = .ok sender middle)
    (contractSeen : contractAddress middle = .ok contract after) :
    ∃ height time loaded, loadInvocation world = .ok ⟨sender, contract, height, time⟩ loaded ∧
      loaded.host = after.host := by
  have height : blockHeight after = .ok after.host.setup.blockHeight after :=
    call_of_ok (Host.configured_run Setup.blockHeight)
  have time : timestamp after = .ok after.host.setup.timestamp after :=
    call_of_ok (Host.configured_run Setup.timestamp)
  rw [loadInvocation, bind_of_ok callerSeen, bind_of_ok contractSeen, bind_of_ok height,
    bind_of_ok time]
  exact ⟨_, _, _, rfl, rfl⟩

/-- **What a self-call comes to.**  Where both identities find room, it is a call by
the contract itself.  Where only the caller does, it is a call by the zero
address, and where not even that, every call is one. -/
theorem isSelfCall_by_room (world : World) (callerWhole : world.host.setup.caller.length = 20)
    (contractWhole : world.host.setup.contractAddress.length = 20) :
    ∃ invocation after, loadInvocation world = .ok invocation after ∧
      world.host.OnlyAllocated after.host ∧
      (world.host.Provides [20, 20] →
        (invocation.isSelfCall = true ↔
          world.host.setup.caller = world.host.setup.contractAddress)) ∧
      (world.host.Provides [20] → ¬ world.host.Provides [20, 20] →
        (invocation.isSelfCall = true ↔ world.host.setup.caller = List.replicate 20 0)) ∧
      (¬ world.host.Provides [20] → world.host.SparesNull →
        invocation.isSelfCall = true) := by
  obtain ⟨middle, callerSeen, before, allocated⟩ :=
    identity_by_room world Host.caller callerWhole fun _ _ same => Host.fill_configured same
  obtain ⟨after, contractSeen, behind, -⟩ :=
    identity_by_room middle Host.contractAddress contractWhole fun _ _ same =>
      Host.fill_configured (same.trans before.setup)
  obtain ⟨height, time, loaded, loads, host⟩ := loadInvocation_of_ok callerSeen contractSeen
  have next (somewhere : world.host.SparesNull) :
      middle.host.Provides [20] ↔ world.host.Provides [20, 20] :=
    (allocated somewhere).provides 20 []
  have nonempty (first : world.host.Provides [20]) : world.host.SparesNull :=
    (@reserve_of_provides world 20 [] first).1
  have front (both : world.host.Provides [20, 20]) : world.host.Provides [20] :=
    Host.provides_of_append both
  refine ⟨_, loaded, loads, host ▸ before.trans behind, fun both => ?_, fun first missing => ?_,
    fun missing somewhere => ?_⟩
  all_goals rw [Invocation.isSelfCall, decide_eq_true_iff]
  · have first := front both
    rw [if_pos first, if_pos ((next (nonempty first)).mpr both), FixedBytes.mk.injEq]
  · rw [if_pos first, if_neg (mt (next (nonempty first)).mp missing), FixedBytes.zero,
      FixedBytes.mk.injEq]
  · rw [if_neg missing, if_neg (mt (next somewhere).mp (mt front missing))]

/-- A host with two different identities. -/
def twoIdentities : Host :=
  (Host.initial.configure (.caller (List.replicate 20 1))).configure
    (.contractAddress (List.replicate 20 2))

/-- With room for one of the two identities there is no self-call, and without any
there is one, although the two are different. -/
theorem isSelfCall_by_room_budget :
    (∃ invocation after, loadInvocation ⟨twoIdentities.configure (.allocBudget (some 1)), []⟩
      = .ok invocation after ∧ invocation.isSelfCall = false) ∧
    (∃ invocation after, loadInvocation ⟨twoIdentities.configure (.failAlloc true), []⟩
      = .ok invocation after ∧ invocation.isSelfCall = true) := by
  constructor
  · obtain ⟨invocation, after, loads, -, -, one, -⟩ :=
      isSelfCall_by_room ⟨twoIdentities.configure (.allocBudget (some 1)), []⟩ rfl rfl
    refine ⟨invocation, after, loads, Bool.eq_false_iff.mpr ?_⟩
    exact mt (one (by decide) (by decide)).mp (by decide)
  · obtain ⟨invocation, after, loads, -, -, -, none⟩ :=
      isSelfCall_by_room ⟨twoIdentities.configure (.failAlloc true), []⟩ rfl rfl
    exact ⟨invocation, after, loads, none (by decide) (by decide)⟩

/-- So a self-call does not show that the two identities are the same. -/
theorem isSelfCall_of_different :
    ¬ ∀ (world after : World) (invocation : Invocation),
      world.host.setup.caller.length = 20 → world.host.setup.contractAddress.length = 20 →
      loadInvocation world = .ok invocation after → invocation.isSelfCall = true →
      world.host.setup.caller = world.host.setup.contractAddress := by
  intro granted
  have same := granted ⟨twoIdentities.configure (.failAlloc true), []⟩ _ ⟨.zero, .zero, 0, 0⟩
    rfl rfl rfl rfl
  exact absurd same (by decide)

end Guest

end HostBoundary
