import HostBoundary.Proofs.Builders
import HostBoundary.Proofs.Lookups

/-!
# Operations that find room

The cases of an operation say what can become of it.  This module is about the
one case that a contract hopes for: the host has room for every region that the
operation asks for.  `Performs` says what happens then, with an answer, a change
of what the host was told, and nothing else.

## Why the room has an open end

A contract makes its operations one after the other, and the room for the later
ones has to be there when the earlier ones are done.  `Performs` therefore takes
the regions of an operation from the front of what the host provides, and gives
back whatever is provided behind them.  A contract asks once, for the regions of
all its operations in a row, and each operation leaves the next one its own.

## Main results

* `Performs.bind_writeBytes`, `performs_reply?` — an argument, and a reply.
* `performs_initParams?`, `performs_balance`, `performs_addressText` — questions.
* `performs_emitEvent`, `performs_setReturnData` — reports.
* `performs_finalize` — a draft, on a host that builds it.
-/

namespace HostBoundary

open Guest

variable {world : World} {bytes reply : Bytes}

namespace Host

variable {before after host : Host} {lengths rest : List Nat}

/-- What was provided behind the regions that were asked for is provided still. -/
theorem Allocated.provides_behind (allocated : Allocated before lengths after)
    (provided : before.Provides (lengths ++ rest)) : after.Provides rest := by
  cases rest with
  | nil => trivial
  | cons length rest => exact (allocated.provides length rest).mpr provided

theorem provides_told {change : Records → Records} :
    (host.told change).Provides lengths ↔ host.Provides lengths :=
  provides_congr rfl rfl

end Host

/-! ## The rules -/

/-- With room for regions of these lengths the computation answers `a` and the
host is told `change`; what was provided behind these regions still is. -/
def Performs {α : Type} (world : World) (act : Guest α) (lengths : List Nat)
    (change : Records → Records) (a : α) : Prop :=
  ∀ rest, world.host.Provides (lengths ++ rest) →
    ∃ after, act world = .ok a after ∧ after.host.Provides rest ∧
      after.host.setup = world.host.setup ∧ after.host.records = change world.host.records

section Rules

variable {α β : Type} {act : Guest α} {lengths : List Nat} {change : Records → Records} {a : α}

theorem Performs.map (performs : Performs world act lengths change a) (f : α → β) :
    Performs world (f <$> act) lengths change (f a) := by
  intro rest provided
  obtain ⟨after, answers, kept⟩ := performs rest provided
  exact ⟨after, map_of_ok f answers, kept⟩

/-- What follows an argument finds it in the arena. -/
theorem Performs.bind_writeBytes {next : Except BoundaryError Buffer → Guest α}
    (short : bytes.length < UInt32.size)
    (performs : ∀ buffer : Buffer, buffer.Holds (world.granted bytes).host.arena bytes →
      Performs (world.granted bytes) (next (.ok buffer)) lengths change a) :
    Performs world (writeBytes bytes >>= next) (bytes.length :: lengths) change a := by
  intro rest provided
  obtain ⟨somewhere, grants, written, provided⟩ := writeBytes_of_provides short provided
  rw [bind_of_ok written]
  exact performs _ (nextRegion_holds_written somewhere grants short) rest provided

/-- An identity is an argument of a known length. -/
theorem Performs.bind_identity {width : Nat} {id : FixedBytes width}
    {next : Except BoundaryError Buffer → Guest α} (short : width < UInt32.size)
    (performs : ∀ buffer : Buffer, buffer.Holds (world.granted id.toBytes).host.arena id.toBytes →
      Performs (world.granted id.toBytes) (next (.ok buffer)) lengths change a) :
    Performs world (writeBytes id.toBytes >>= next) (width :: lengths) change a := by
  have size := id.length_toBytes
  have performs := Performs.bind_writeBytes (id.short short) performs
  rwa [size] at performs

end Rules

/-! ## Questions -/

/-- **A reply is seen as the host was configured with it**, and takes its buffer. -/
theorem performs_reply? (capacity : UInt32) {ask : UInt32 → UInt32 → HostCall UInt32}
    (asks : ∀ (pointer : UInt32) (host : Host), world.host.arena <+: host.arena →
      host.setup = world.host.setup →
      ask pointer capacity host = Host.fill pointer capacity reply host) :
    Performs world (reply? capacity ask) [capacity.toNat] id (seen? capacity.toNat reply) := by
  intro rest provided
  obtain ⟨somewhere, -⟩ := reserve_of_provides provided
  obtain ⟨after, answers, only, allocated⟩ := reply?_outcome capacity asks
  rw [if_pos (Host.provides_of_append provided)] at answers
  exact ⟨after, answers, (allocated somewhere).provides_behind provided, only.setup, only.records⟩

theorem performs_initParams? (maxLength : UInt32) :
    Performs world (initParams? maxLength) [maxLength.toNat] id
      (seen? maxLength.toNat world.host.setup.initParams) :=
  performs_reply? maxLength fun _ _ _ same => Host.fill_configured same

theorem performs_base58Of? (address : Address) :
    Performs world (base58Of? address) [20, 64] id
      (seenText? 64 ((world.host.setup.base58.find? address.toBytes).getD "")) := by
  rw [← seen?_bind_decode?]
  refine Performs.bind_identity (by decide) fun buffer holds =>
    Performs.map ?_ fun (seen : Option Bytes) => seen.bind Utf8.decode?
  refine performs_reply? base58Capacity fun pointer host kept same => ?_
  have size : buffer.length = Host.addressCapacity := holds.length_of_identity rfl
  rw [Host.base58OfAddress, ← size, bind_of_ok (Host.readArgument_holds (holds.mono kept))]
  exact Host.fill_configured same

/-- How an address is shown: as its base58 text, where the host has one that is not
empty and fits the buffer, and in hexadecimal otherwise. -/
def shownAddress (setup : Setup) (address : Address) : String :=
  let text := (setup.base58.find? address.toBytes).getD ""
  if 0 < (Utf8.encode text).length ∧ (Utf8.encode text).length ≤ 64 then text else address.toHex

theorem shownAddress_eq (setup : Setup) (address : Address) :
    shownAddress setup address
      = (seenText? 64 ((setup.base58.find? address.toBytes).getD "")).getD address.toHex := by
  simp only [shownAddress, seenText?, seen?]
  split <;> rfl

theorem performs_addressText (address : Address) :
    Performs world (addressText address) [20, 64] id (shownAddress world.host.setup address) := by
  rw [shownAddress_eq]
  exact (performs_base58Of? address).map (·.getD address.toHex)

/-- **A balance is what the host has for that address and token.** -/
theorem performs_balance (address : Address) {tokenId : Option String}
    (short : ∀ id ∈ tokenId, (Utf8.encode id).length < UInt32.size) :
    Performs world (balance address tokenId) (20 :: argumentLengths (tokenId.map Utf8.encode)) id
      ((world.host.setup.balances.find?
        (address.toBytes, (tokenId.map Utf8.encode).getD [])).getD 0) := by
  intro rest provided
  have size := address.length_toBytes
  obtain ⟨nonempty, grants, -⟩ :=
    (Host.provides_cons_iff (address.short (by decide))).mp (size.symm ▸ provided)
  obtain ⟨sent, after, answers, allocated, recorded⟩ :=
    balance_sent nonempty grants address tokenId short
  refine ⟨after, ?_, allocated.provides_behind provided, allocated.setup, allocated.records⟩
  rw [answers, recorded.eq_getD (Host.provides_of_append provided)]

/-! ## Reports -/

/-- What is sent is taken. -/
theorem performs_send {act : UInt32 → UInt32 → HostCall UInt32} (change : Records → Records)
    (short : bytes.length < UInt32.size)
    (acts : ∀ (buffer : Buffer) (host : Host), buffer.Holds host.arena bytes →
      act buffer.pointer buffer.length host = .ok 0 (host.told change)) :
    Performs world (send bytes act) [bytes.length] change (.ok ()) := by
  refine Performs.bind_writeBytes short fun buffer holds rest provided => ?_
  have acted := call_of_ok (acts buffer _ holds)
  exact ⟨_, bind_of_ok acted, Host.provides_told.mpr provided, rfl, rfl⟩

theorem performs_emitEvent {event : String} (short : (Utf8.encode event).length < UInt32.size) :
    Performs world (emitEvent event) [(Utf8.encode event).length]
      (fun r => { r with events := r.events ++ [event] }) (.ok ()) := by
  refine performs_send _ short fun buffer host holds => ?_
  rw [Host.emitEvent, bind_of_ok (Host.readText_holds holds)]
  rfl

theorem performs_setReturnData (short : bytes.length < UInt32.size) :
    Performs world (setReturnData bytes) [bytes.length]
      (fun r => { r with returnData := some bytes }) (.ok ()) := by
  refine performs_send _ short fun buffer host holds => ?_
  rw [Host.setReturnData, bind_of_ok (Host.readArgument_holds holds)]
  rfl

/-! ## Drafts -/

/-- The host builds what it is sent, and its receipt is usable. -/
structure Setup.Builds (setup : Setup) : Prop where
  /-- The build succeeds. -/
  status : setup.buildStatus = 0
  /-- What fits of the receipt is usable. -/
  usable : ∃ receipt, Receipt.parse (setup.receipt.take 4096) = .ok receipt

theorem Setup.Builds.ofOutcome_verdict {setup : Setup} (builds : setup.Builds) :
    TransactionResult.ofOutcome setup.verdict = .ok := by
  obtain ⟨receipt, usable⟩ := builds.usable
  rw [TransactionResult.ofOutcome_verdict, if_neg (not_not_intro builds.status), usable]
  rfl

/-- **A draft is taken, and its result is a success**, on a host that builds it. -/
theorem performs_finalize (builder : Builder) (unspent : builder.finalized = false)
    (short : (Utf8.encode builder.draft.text).length < UInt32.size)
    (builds : world.host.setup.Builds) :
    Performs world (finalize builder) [(Utf8.encode builder.draft.text).length, 4096]
      (fun r => { r with drafts := r.drafts ++ [builder.draft.text] })
      (.ok, { builder with finalized := true }) := by
  intro rest provided
  obtain ⟨middle, after, allocated, built, told⟩ :=
    build_of_provides short (Host.provides_of_append provided)
  obtain ⟨trace, answers⟩ := finalize_of_build unspent built
  rw [builds.ofOutcome_verdict] at answers
  refine ⟨_, answers, ?_, ?_, ?_⟩
  · show after.host.Provides rest
    rw [told, Host.provides_told]
    exact allocated.provides_behind provided
  · show after.host.setup = _
    rw [told]
    exact allocated.setup
  · show after.host.records = _
    rw [told, ← allocated.records]
    rfl

end HostBoundary
