import Mathlib.Data.List.Nodup
import HostBoundary.Proofs.Encodings
import HostBoundary.Proofs.Lookups

/-!
# Addresses and their texts

A host knows base58 texts of some addresses.  It is asked in both directions, and the two
questions do not go through the same table lookup: from an address to its text by key, and
from a text to its address by a search through the values.  The search stops at the first
entry with the text, so it is the inverse of the lookup only where no two entries share
one; then it does not matter in which order the entries stand.

## What else stands between the two

The text has to fit the buffer of the first question, which holds 64 bytes; the key that is
found has to fit that of the second, which holds 20, and a shorter one is filled up.  Keys
of other lengths than that of an address may stand in the table.  None of them is in the
way, since an address is looked up under its 20 bytes, and its text leads back to them.

## Main results

* `Host.keyOf?_of_mem`, `Host.keyOf?_eq_none_iff` — what the search finds.
* `Guest.base58_roundTrip` — both questions, and the text that an address is shown as.
-/

namespace HostBoundary

/-! ## Searching the values -/

namespace Host

variable {entries : List (Bytes × String)} {text : String}

/-- A text that no two keys share leads to its key, wherever the entry stands. -/
theorem keyOf?_of_mem (distinct : (entries.map (·.2)).Nodup) {key : Bytes}
    (mem : (key, text) ∈ entries) : keyOf? text entries = some key := by
  have known : (entries.find? fun entry => entry.2 == text).isSome := by
    rw [List.find?_isSome]
    exact ⟨_, mem, beq_self_eq_true text⟩
  obtain ⟨entry, found⟩ := Option.isSome_iff_exists.mp known
  have matched := List.find?_some found
  have only := List.inj_on_of_nodup_map distinct (List.mem_of_find?_eq_some found) mem
    (eq_of_beq matched)
  rw [keyOf?, found, only]
  rfl

theorem keyOf?_eq_none_iff : keyOf? text entries = none ↔ text ∉ entries.map (·.2) := by
  rw [keyOf?, Option.map_eq_none_iff, List.find?_eq_none, List.mem_map]
  constructor
  · rintro none ⟨entry, mem, rfl⟩
    exact none entry mem (beq_self_eq_true _)
  · intro notValue entry mem same
    exact notValue ⟨entry, mem, eq_of_beq same⟩

end Host

/-! ## The two questions -/

/-- The host has a text for the address, and it fits the buffer of the question. -/
structure Setup.ShowsInBase58 (setup : Setup) (address : Address) (text : String) : Prop where
  found : setup.base58.find? address.toBytes = some text
  present : 0 < (Utf8.encode text).length
  fits : (Utf8.encode text).length ≤ 64

theorem Setup.showsInBase58_iff {setup : Setup} {address : Address} {text : String} :
    setup.ShowsInBase58 address text ↔
      seenText? 64 ((setup.base58.find? address.toBytes).getD "") = some text := by
  rw [seenText?_getD_eq_some_iff]
  exact ⟨fun shows => ⟨shows.found, shows.present, shows.fits⟩,
    fun ⟨found, present, fits⟩ => ⟨found, present, fits⟩⟩

namespace Guest

variable {world : World}

/-- An address is shown as its base58 text, and in hexadecimal where it has none. -/
theorem reads_addressText {address : Address} :
    Reads world (addressText address) [20, 64]
      ((seenText? 64 ((world.host.setup.base58.find? address.toBytes).getD "")).getD
        address.toHex) :=
  reads_base58Of?.map (·.getD address.toHex)

/-- **A text that the host does not know has no address**, whichever allocations are
granted. -/
theorem addressOfBase58?_of_unknown {text : String}
    (unknown : text ∉ world.host.setup.base58.values) :
    ∃ after, addressOfBase58? text world = .ok none after ∧
      world.host.OnlyAllocated after.host := by
  have noKey := Host.keyOf?_eq_none_iff.mpr unknown
  have both : ∃ answer after, addressOfBase58? text world = .ok answer after ∧
      answer = none ∧ world.host.OnlyAllocated after.host := by
    rw [addressOfBase58?, writeText]
    refine bind_writeBytes_cases (fun _ error after only => ⟨none, after, rfl, rfl, only⟩)
      fun _ _ _ buffer holds => ?_
    have asks (pointer : UInt32) (host : Host)
        (kept : (world.granted (Utf8.encode text)).host.arena <+: host.arena)
        (same : host.setup = world.host.setup) :
        Host.addressOfBase58 buffer.pointer buffer.length pointer host
          = Host.fill pointer Host.addressCapacity [] host := by
      rw [Host.addressOfBase58, bind_of_ok (Host.readText_holds (holds.mono kept)),
        Host.fill_configured same, noKey]
      rfl
    obtain ⟨after, answers, only, -⟩ :=
      @reply?_outcome (world.granted (Utf8.encode text)) [] addressCapacity
        (fun pointer _ => Host.addressOfBase58 _ _ pointer) asks
    have nothing : seen? addressCapacity.toNat [] = none := rfl
    rw [nothing, ite_self] at answers
    exact ⟨none, after, map_of_ok _ answers, rfl,
      (Host.onlyAllocated_granted world.host _).trans only⟩
  obtain ⟨_, after, answers, rfl, only⟩ := both
  exact ⟨after, answers, only⟩

/-- **Base58 texts lead back and forth.**  Where no two entries of a host share a text, an
address with a text that fits is shown as it, and that text leads back to the address.  An
address without one is shown in forty hexadecimal digits.  A text that stands in no entry
leads nowhere. -/
theorem base58_roundTrip (world : World) (distinct : world.host.setup.base58.values.Nodup)
    (address : Address) :
    (∀ text, world.host.setup.ShowsInBase58 address text →
      Reads world (base58Of? address) [20, 64] (some text) ∧
      Reads world (addressText address) [20, 64] text ∧
      Reads world (addressOfBase58? text) [(Utf8.encode text).length, 20] (some address)) ∧
    ((¬ ∃ text, world.host.setup.ShowsInBase58 address text) →
      Reads world (base58Of? address) [20, 64] none ∧
      Reads world (addressText address) [20, 64] address.toHex) ∧
    Hex.Spells address.toBytes address.toHex ∧ (Utf8.encode address.toHex).length = 40 ∧
    ∀ text, text ∉ world.host.setup.base58.values →
      ∃ after, addressOfBase58? text world = .ok none after ∧
        world.host.OnlyAllocated after.host := by
  have forth := @reads_base58Of? world address
  have shown := @reads_addressText world address
  refine ⟨fun text shows => ?_, fun hidden => ?_, Hex.spells_encode _, address.length_toHex,
    fun text unknown => addressOfBase58?_of_unknown unknown⟩
  · rw [Setup.showsInBase58_iff.mp shows] at forth shown
    have back := @reads_addressOfBase58? world text (Nat.lt_of_le_of_lt shows.fits (by decide))
    have key := Host.keyOf?_of_mem distinct (Table.mem_of_find? shows.found)
    have whole : seen? 20 address.toBytes = some address.toBytes := by
      rw [seen?, address.length_toBytes]
      rfl
    rw [key, Option.getD_some, whole, Option.map_some, FixedBytes.ofFront_toBytes] at back
    exact ⟨forth, shown, back⟩
  · have nothing : seenText? 64 ((world.host.setup.base58.find? address.toBytes).getD "") = none :=
      Option.eq_none_iff_forall_ne_some.mpr fun text seen =>
        hidden ⟨text, Setup.showsInBase58_iff.mpr seen⟩
    rw [nothing] at forth shown
    exact ⟨forth, shown⟩

/-- A host with texts for an address, for a key of three bytes and, too long for the buffer,
for another address. -/
def addressBook : Host :=
  ((Host.initial.configure (.base58 [1, 2, 3] "short")).configure
    (.base58 (List.replicate 20 7) ("".pushn 'x' 65))).configure
      (.base58 (List.replicate 20 15) "Cf1ExampleBase58")

/-- The first address goes to its text and back, the second is shown in hexadecimal, and
the empty text leads nowhere. -/
theorem base58_roundTrip_addressBook :
    (∃ after, base58Of? ⟨List.replicate 20 15, rfl⟩ ⟨addressBook, []⟩
      = .ok (some "Cf1ExampleBase58") after) ∧
    (∃ after, addressOfBase58? "Cf1ExampleBase58" ⟨addressBook, []⟩
      = .ok (some ⟨List.replicate 20 15, rfl⟩) after) ∧
    (∃ after, addressText ⟨List.replicate 20 7, rfl⟩ ⟨addressBook, []⟩
      = .ok "0707070707070707070707070707070707070707" after) ∧
    ∃ after, addressOfBase58? "" ⟨addressBook, []⟩ = .ok none after := by
  have distinct : addressBook.setup.base58.values.Nodup := by decide
  have room (lengths : List Nat) (fits : 8 + lengths.foldr (· + ·) 0 < UInt32.size) :
      addressBook.Provides lengths := Host.provides_of_unlimited rfl (by decide) fits
  have shows : addressBook.setup.ShowsInBase58 ⟨List.replicate 20 15, rfl⟩ "Cf1ExampleBase58" :=
    ⟨by decide, by decide, by decide⟩
  have hidden : ¬ ∃ text, addressBook.setup.ShowsInBase58 ⟨List.replicate 20 7, rfl⟩ text := by
    rintro ⟨text, found, -, fits⟩
    have long : some ("".pushn 'x' 65) = some text := found
    cases long
    exact absurd fits (by decide)
  obtain ⟨ofFirst, -, -, -, unknown⟩ :=
    base58_roundTrip ⟨addressBook, []⟩ distinct ⟨List.replicate 20 15, rfl⟩
  obtain ⟨-, ofSecond, -⟩ :=
    base58_roundTrip ⟨addressBook, []⟩ distinct ⟨List.replicate 20 7, rfl⟩
  obtain ⟨forth, -, back⟩ := ofFirst _ shows
  obtain ⟨-, shown⟩ := ofSecond hidden
  obtain ⟨afterForth, forth, -⟩ := forth (room _ (by decide))
  obtain ⟨afterBack, back, -⟩ := back (room _ (by decide))
  obtain ⟨afterShown, shown, -⟩ := shown (room _ (by decide))
  obtain ⟨afterUnknown, unknown, -⟩ := unknown "" (by decide)
  exact ⟨⟨_, forth⟩, ⟨_, back⟩, ⟨_, shown⟩, ⟨_, unknown⟩⟩

end Guest

end HostBoundary
