import HostBoundary.Proofs.Exchange
import HostBoundary.Session.Step

/-!
# What a lookup reads

A lookup writes its arguments into linear memory, has the host write the reply
there, and reads it back.  None of that is meant to be seen: what comes out is
what the host was configured with, cut down to what fits the buffer.  This
module says what that is for every lookup (`QueryStep.reading?`,
`ReportStep.reading?`), by looking at the setup alone, and proves that it is what
the lookup answers.

## The three kinds of replies

* A reply of bytes is seen as it is, unless it is empty or too long (`seen?`).
* A reply of an address may be shorter, and is followed by zeros.  So is a
  confirmed value, since the host does not say how long it is.
* A reply of a hash counts only when it is whole.

## Main results

* `Step.run_reading` — every lookup that finds room answers its reading, and
  changes nothing but the arena and the budget.
-/

namespace HostBoundary

open Guest

/-! ## Reading the setup -/

/-- What is seen of a reply: nothing when it is empty or too long. -/
def seen? (capacity : Nat) (reply : Bytes) : Option Bytes :=
  if 0 < reply.length ∧ reply.length ≤ capacity then some reply else none

/-- What is seen of a reply that is a text. -/
def seenText? (capacity : Nat) (text : String) : Option String :=
  (seen? capacity (Utf8.encode text)).map fun _ => text

theorem seen?_bind_decode? (capacity : Nat) (text : String) :
    (seen? capacity (Utf8.encode text)).bind Utf8.decode? = seenText? capacity text := by
  rw [seenText?, seen?]
  split
  · exact Utf8.decode?_encode text
  · rfl

/-- A text that was looked up is seen just when it is there, and neither empty nor too
long.  One that is not there is sent as the empty text, which is never seen. -/
theorem seenText?_getD_eq_some_iff {capacity : Nat} {found : Option String} {text : String} :
    seenText? capacity (found.getD "") = some text ↔
      found = some text ∧ 0 < (Utf8.encode text).length ∧
        (Utf8.encode text).length ≤ capacity := by
  cases found with
  | none =>
    refine iff_of_false ?_ fun there => absurd there.1 nofun
    rw [Option.getD_none, seenText?, seen?, if_neg fun present => absurd present.1 (by decide)]
    nofun
  | some known =>
    rw [Option.getD_some, seenText?, seen?, Option.some.injEq]
    split
    · next usable =>
      rw [Option.map_some, Option.some.injEq]
      exact ⟨fun same => ⟨same, same ▸ usable⟩, fun there => there.1⟩
    · next unusable =>
      refine iff_of_false nofun ?_
      rintro ⟨rfl, usable⟩
      exact unusable usable

/-- The bytes with zeros behind them. -/
def zeroExtended (width : Nat) (bytes : Bytes) : Bytes :=
  bytes ++ List.replicate (width - bytes.length) 0

/-- The answer of a hash, which counts only when it is whole. -/
def Answer.wholeHash (reply : Bytes) : Answer :=
  if reply.length = 32 then .bytes reply else .nothing

/-- The answer of an address, which may be shorter. -/
def Answer.address (reply : Option Bytes) : Answer :=
  .ofOption (fun bytes => .bytes (zeroExtended 20 bytes)) reply

/-- What a lookup comes to: the regions that it needs, and what it answers. -/
structure Reading where
  /-- The lengths of the arguments and of the buffers, in order. -/
  lengths : List Nat
  /-- What is read. -/
  answer : Answer

/-- What a question reads, if it is answered through a buffer. -/
def QueryStep.reading? (setup : Setup) : QueryStep → Option Reading
  | caller => some ⟨[20], .bytes (zeroExtended 20 ((seen? 20 setup.caller).getD []))⟩
  | contractAddress =>
    some ⟨[20], .bytes (zeroExtended 20 ((seen? 20 setup.contractAddress).getD []))⟩
  | minerAddress height =>
    some ⟨[20], .address (seen? 20 ((setup.miners.find? height).getD []))⟩
  | blockHash height => some ⟨[32], .wholeHash ((setup.blockHashes.find? height).getD [])⟩
  | merkleRoot height => some ⟨[32], .wholeHash ((setup.merkleRoots.find? height).getD [])⟩
  | stateRoot height => some ⟨[32], .wholeHash ((setup.stateRoots.find? height).getD [])⟩
  | txHash =>
    some ⟨[32], .bytes (if setup.txHash.length = 32 then setup.txHash else List.replicate 32 0)⟩
  | chainId => some ⟨[64], .ofOption .bytes (seen? 64 setup.chainId)⟩
  | initParams maxLength | contractParams maxLength =>
    some ⟨[maxLength.toNat], .ofOption .bytes (seen? maxLength.toNat setup.initParams)⟩
  | stateValue key =>
    let value := (setup.state.find? (Utf8.encode key)).getD []
    some ⟨[(Utf8.encode key).length, 8192], .ofOption .bytes (seen? 8192 value)⟩
  | confirmedState stateId =>
    let confirmed := (setup.chainState.find? (Utf8.encode stateId)).bind fun (value, version) =>
      (seen? 8192 value).map fun value => StateResult.mk (zeroExtended 8192 value) version
    some ⟨[(Utf8.encode stateId).length, 8192, 8], .ofOption .state confirmed⟩
  | utxo point =>
    let description := (setup.utxos.find? (point.txHash.toBytes, point.index)).getD ""
    let utxo := (seenText? 8192 description).map fun json =>
      let utxo := Utxo.ofDescription point json
      { utxo with output := { utxo.output with data := Utf8.encode json } }
    some ⟨[32, 8192], .ofOption .utxo utxo⟩
  | resource contentHash =>
    let description := (setup.resources.find? contentHash.toBytes).getD ""
    let resource := (seenText? 8192 description).map (Resource.ofDescription contentHash)
    some ⟨[32, 8192], .ofOption .resource resource⟩
  | base58Of address =>
    let text := (setup.base58.find? address.toBytes).getD ""
    some ⟨[20, 64], .ofOption .text (seenText? 64 text)⟩
  | addressOfBase58 text =>
    let address := (Host.keyOf? text setup.base58.entries).getD []
    some ⟨[(Utf8.encode text).length, 20], .address (seen? 20 address)⟩
  | _ => none

/-- What a report reads, if it is answered through a buffer. -/
def ReportStep.reading? (setup : Setup) : ReportStep → Option Reading
  | declareState claim =>
    let id := (setup.claimIds.find? claim).getD ""
    some ⟨[(Utf8.encode claim).length, 64], .ofOption .text (seenText? 64 id)⟩
  | controlledState claimId =>
    let state := (setup.controlledState.find? claimId).getD ""
    some ⟨[(Utf8.encode claimId).length, 8192], .ofOption .text (seenText? 8192 state)⟩
  | _ => none

/-- What a step reads, if it is a lookup. -/
def Step.reading? (setup : Setup) : Step → Option Reading
  | query step => step.reading? setup
  | report step => step.reading? setup
  | _ => none

/-! ## Computations that read -/

/-- With room for regions of these lengths the computation answers `a`, and makes
nothing but allocations. -/
def Reads {α : Type} (world : World) (act : Guest α) (lengths : List Nat) (a : α) : Prop :=
  world.host.Provides lengths →
    ∃ after, act world = .ok a after ∧ world.host.OnlyAllocated after.host

section Reads

variable {α β : Type} {world : World} {act : Guest α} {lengths : List Nat} {a : α}
  {bytes reply : Bytes}

theorem Reads.map (reads : Reads world act lengths a) (f : α → β) :
    Reads world (f <$> act) lengths (f a) := fun provided => by
  obtain ⟨after, answers, only⟩ := reads provided
  exact ⟨after, map_of_ok f answers, only⟩

/-- What follows an argument finds it in the arena. -/
theorem Reads.bind_writeBytes {next : Except BoundaryError Buffer → Guest α}
    (short : bytes.length < UInt32.size)
    (reads : ∀ buffer : Buffer, buffer.Holds (world.granted bytes).host.arena bytes →
      Reads (world.granted bytes) (next (.ok buffer)) lengths a) :
    Reads world (writeBytes bytes >>= next) (bytes.length :: lengths) a := by
  intro provided
  obtain ⟨somewhere, grants, written, provided⟩ := writeBytes_of_provides short provided
  obtain ⟨after, answers, only⟩ :=
    reads _ (nextRegion_holds_written somewhere grants short) provided
  rw [bind_of_ok written]
  exact ⟨after, answers, (Host.onlyAllocated_granted world.host bytes).trans only⟩

/-- What becomes of a reply: it is seen as the host was configured with it where
its buffer finds room, and not at all where it does not. -/
theorem reply?_outcome (capacity : UInt32) {ask : UInt32 → UInt32 → HostCall UInt32}
    (asks : ∀ (pointer : UInt32) (host : Host), world.host.arena <+: host.arena →
      host.setup = world.host.setup →
      ask pointer capacity host = Host.fill pointer capacity reply host) :
    ∃ after, reply? capacity ask world = .ok
        (if world.host.Provides [capacity.toNat] then seen? capacity.toNat reply else none) after ∧
      world.host.OnlyAllocated after.host ∧
      (world.host.SparesNull → world.host.Allocated [capacity.toNat] after.host) := by
  have room (filled : Bytes) (size : filled.length = capacity.toNat) :
      world.host.Provides [capacity.toNat] ↔ world.host.SparesNull ∧ world.host.Grants := by
    rw [← size, Host.provides_cons_iff (size.symm ▸ capacity.toNat_lt)]
    exact ⟨fun all => ⟨all.1, all.2.1⟩, fun both => ⟨both.1, both.2, trivial⟩⟩
  have zeros : (List.replicate capacity.toNat (0 : UInt8)).length = capacity.toNat :=
    List.length_replicate
  by_cases provided : world.host.Provides [capacity.toNat]
  · obtain ⟨somewhere, grants⟩ := (room _ zeros).mp provided
    have asked := asks (world.host.nextRegion capacity).pointer
      (world.host.granted (List.replicate capacity.toNat 0)) (List.prefix_append _ _) rfl
    have taken {filled : Bytes} (size : filled.length = capacity.toNat) :
        world.host.Allocated [capacity.toNat] (world.host.granted filled) := by
      have allocated := (Host.Allocated.refl world.host).granted grants somewhere
        (size.symm ▸ capacity.toNat_lt : filled.length < UInt32.size)
      rwa [size] at allocated
    rw [if_pos provided]
    by_cases usable : 0 < reply.length ∧ reply.length ≤ capacity.toNat
    · have size := Host.length_padded usable.2
      rw [seen?, if_pos usable, reply?_of_usable grants somewhere asked usable.1 usable.2]
      exact ⟨_, rfl, (taken size).toOnlyAllocated, fun _ => taken size⟩
    · rw [seen?, if_neg usable, reply?_of_unusable grants somewhere asked usable]
      exact ⟨_, rfl, (taken zeros).toOnlyAllocated, fun _ => taken zeros⟩
  · obtain ⟨after, refused, only⟩ := reserve_of_not_provides provided
    refine ⟨after, ?_, only, fun somewhere => ?_⟩
    · rw [if_neg provided, reply?, bind_of_ok refused]
      rfl
    · have refuses : ¬ world.host.Grants := fun grants =>
        provided ((room _ zeros).mpr ⟨somewhere, grants⟩)
      rw [reserve_of_not_grants refuses] at refused
      cases refused
      exact (Host.Allocated.refl world.host).refused refuses _ _

/-- **A reply is seen as the host was configured with it.** -/
theorem reads_reply? (capacity : UInt32) {ask : UInt32 → UInt32 → HostCall UInt32}
    (asks : ∀ (pointer : UInt32) (host : Host), world.host.arena <+: host.arena →
      host.setup = world.host.setup →
      ask pointer capacity host = Host.fill pointer capacity reply host) :
    Reads world (reply? capacity ask) [capacity.toNat] (seen? capacity.toNat reply) := by
  intro provided
  obtain ⟨after, answers, only, -⟩ := reply?_outcome capacity asks
  rw [if_pos provided] at answers
  exact ⟨after, answers, only⟩

theorem reads_replyAddress? {ask : UInt32 → HostCall UInt32}
    (asks : ∀ (pointer : UInt32) (host : Host), world.host.arena <+: host.arena →
      host.setup = world.host.setup →
      ask pointer host = Host.fill pointer addressCapacity reply host) :
    Reads world (replyAddress? ask) [20] ((seen? 20 reply).map FixedBytes.ofFront) :=
  (reads_reply? addressCapacity asks).map fun seen => seen.map FixedBytes.ofFront

theorem reads_replyText? (capacity : UInt32) {ask : UInt32 → UInt32 → HostCall UInt32}
    {text : String}
    (asks : ∀ (pointer : UInt32) (host : Host), world.host.arena <+: host.arena →
      host.setup = world.host.setup →
      ask pointer capacity host = Host.fill pointer capacity (Utf8.encode text) host) :
    Reads world (replyText? capacity ask) [capacity.toNat] (seenText? capacity.toNat text) := by
  intro provided
  obtain ⟨after, answers, only⟩ := reads_reply? capacity asks provided
  refine ⟨after, ?_, only⟩
  rw [replyText?, bind_of_ok answers, ← seen?_bind_decode?, seen?]
  split
  · simp only [Option.bind_some, Utf8.decode?_encode]
    rfl
  · rfl

end Reads

/-! ## Identities -/

/-- A reply that fits an address is followed by zeros. -/
theorem FixedBytes.toBytes_ofFront {width : Nat} {bytes : Bytes} (fits : bytes.length ≤ width) :
    (ofFront bytes : FixedBytes width).toBytes = zeroExtended width bytes := by
  show bytes.take width ++ _ = _
  rw [List.take_of_length_le fits]
  rfl

/-- Nothing is cut off an identity, and nothing is added. -/
theorem FixedBytes.ofFront_toBytes {width : Nat} (id : FixedBytes width) :
    ofFront id.toBytes = id := by
  have whole := id.length_toBytes
  refine ext ?_
  rw [toBytes_ofFront (Nat.le_of_eq whole), zeroExtended, whole, Nat.sub_self]
  exact List.append_nil _

theorem le_of_seen? {capacity : Nat} {reply bytes : Bytes} (seen : seen? capacity reply = some bytes) :
    bytes.length ≤ capacity := by
  unfold seen? at seen
  split at seen
  · next usable =>
    cases seen
    exact usable.2
  · cases seen

theorem Answer.ofOption_ofFront (reply : Bytes) :
    ofOption ofIdentity ((seen? 20 reply).map (FixedBytes.ofFront : Bytes → Address))
      = .address (seen? 20 reply) := by
  cases seen : seen? 20 reply with
  | none => rfl
  | some bytes =>
    show ofIdentity (FixedBytes.ofFront bytes : Address) = .bytes _
    rw [ofIdentity, FixedBytes.toBytes_ofFront (le_of_seen? seen)]

theorem Answer.ofIdentity_ofFront (reply : Bytes) :
    ofIdentity (((seen? 20 reply).map (FixedBytes.ofFront : Bytes → Address)).getD .zero)
      = .bytes (zeroExtended 20 ((seen? 20 reply).getD [])) := by
  cases seen : seen? 20 reply with
  | none => rfl
  | some bytes =>
    show ofIdentity (FixedBytes.ofFront bytes : Address) = .bytes _
    rw [ofIdentity, FixedBytes.toBytes_ofFront (le_of_seen? seen)]
    rfl

/-- Of the replies that are seen, the whole hashes are those with the length of one. -/
theorem reads_replyHash? {world : World} {reply : Bytes} {ask : UInt32 → HostCall UInt32}
    (asks : ∀ (pointer : UInt32) (host : Host), world.host.arena <+: host.arena →
      host.setup = world.host.setup →
      ask pointer host = Host.fill pointer hashCapacity reply host) :
    Reads world (replyHash? ask) [32] (FixedBytes.ofBytes? reply) := by
  have whole : (seen? 32 reply).bind (FixedBytes.ofBytes? : Bytes → Option Hash)
      = FixedBytes.ofBytes? reply := by
    unfold seen?
    split
    · rfl
    · next unusable =>
      have notWhole : ¬ reply.length = 32 := by omega
      rw [Option.bind_none, FixedBytes.ofBytes?, dif_neg notWhole]
  rw [← whole]
  exact (reads_reply? hashCapacity asks).map fun seen => seen.bind FixedBytes.ofBytes?

theorem Answer.ofOption_ofBytes? (reply : Bytes) :
    ofOption ofIdentity (FixedBytes.ofBytes? reply : Option Hash) = .wholeHash reply := by
  rw [FixedBytes.ofBytes?, wholeHash]
  split <;> rfl

theorem Answer.ofIdentity_ofBytes? (reply : Bytes) :
    ofIdentity ((FixedBytes.ofBytes? reply : Option Hash).getD .zero)
      = .bytes (if reply.length = 32 then reply else List.replicate 32 0) := by
  rw [FixedBytes.ofBytes?]
  split <;> rfl

/-! ## Through the host -/

/-- A reply that is looked up in the setup. -/
theorem Host.fill_configured {α : Type} {ask : Setup → α} {shown : α → Bytes}
    {pointer capacity : UInt32} {host : Host} {setup : Setup} (same : host.setup = setup) :
    (configured ask >>= fun a => fill pointer capacity (shown a)) host
      = fill pointer capacity (shown (ask setup)) host := by
  rw [bind_of_ok (configured_run ask), same]

/-! ## Confirmed states -/

section Confirmed

variable {host : Host} {id : Buffer} {key value : Bytes} {version : UInt64}

/-- A value that fits takes a region, with the zeros behind it. -/
theorem length_zeroExtended {width : Nat} (fits : value.length ≤ width) :
    (zeroExtended width value).length = width := by
  rw [zeroExtended, List.length_append, List.length_replicate]
  omega

/-- Where the next region begins depends on how long the last one is. -/
theorem Host.nextRegion_granted {bytes other : Bytes} (same : bytes.length = other.length)
    (size : UInt32) : (host.granted bytes).nextRegion size = (host.granted other).nextRegion size := by
  simp only [nextRegion, arena_granted, List.length_append, same]

theorem Host.grants_granted {bytes other : Bytes} (same : bytes.length = other.length) :
    (host.granted bytes).Grants ↔ (host.granted other).Grants := by
  have policy : (host.granted bytes).policy = (host.granted other).policy := rfl
  simp only [Grants, policy, arena_granted, List.length_append, same]

/-- A confirmed value that fits is written into the first of two fresh regions,
and its version into the second. -/
theorem Host.confirmedState_found (grants : host.Grants) {capacity versionSize : UInt32}
    (again : (host.granted (zeroExtended capacity.toNat value)).Grants)
    (room : versionSize.toNat = 8) (holds : id.Holds host.arena key)
    (found : host.setup.chainState.find? key = some (value, version))
    (present : 0 < value.length) (fits : value.length ≤ capacity.toNat) :
    confirmedState id.pointer id.length (host.nextRegion capacity).pointer capacity
        ((host.granted (zeroExtended capacity.toNat value)).nextRegion versionSize).pointer
        ((host.granted (List.replicate capacity.toNat 0)).granted
          (List.replicate versionSize.toNat 0))
      = .ok 0 ((host.granted (zeroExtended capacity.toNat value)).granted
          (Bytes.ofUInt64 version)) := by
  have laid : id.Holds ((host.granted (List.replicate capacity.toNat 0)).granted
      (List.replicate versionSize.toNat 0)).arena key :=
    (holds.mono (List.prefix_append _ _)).mono (List.prefix_append _ _)
  have whole : (List.replicate capacity.toNat (0 : UInt8)).length
      = (zeroExtended capacity.toNat value).length := by
    rw [length_zeroExtended fits, List.length_replicate]
  have inside : value.length ≤ (List.replicate capacity.toNat (0 : UInt8)).length := by
    rw [List.length_replicate]
    exact fits
  have size : (Bytes.ofUInt64 version).length = versionSize.toNat := by
    rw [Bytes.length_ofUInt64, room]
  have valueWritten : write (host.nextRegion capacity).pointer value
      ((host.granted (List.replicate capacity.toNat 0)).granted
        (List.replicate versionSize.toNat 0))
      = .ok () (((host.granted (List.replicate capacity.toNat 0)).granted
          (List.replicate versionSize.toNat 0)).withArena
            (host.arena ++ zeroExtended capacity.toNat value ++
              List.replicate versionSize.toNat 0)) := by
    rw [write_within rfl (toNat_nextRegion grants capacity) inside, List.drop_replicate]
    rfl
  have versionWritten := write_front again (Nat.le_of_eq size)
    (((host.granted (List.replicate capacity.toNat 0)).granted
      (List.replicate versionSize.toNat 0)).withArena
        (host.arena ++ zeroExtended capacity.toNat value ++
          List.replicate versionSize.toNat 0)) rfl
  rw [confirmedState, bind_of_ok (readArgument_holds laid), bind_of_ok (configured_run _)]
  simp only [setup_granted, found]
  rw [bind_of_ok (fill_of_write present fits valueWritten), if_neg (written_ne_zero present fits),
    bind_of_ok versionWritten, size, Nat.sub_self]
  simp only [granted, withArena, arena, LinearMemory.bytes_ofBytes, whole, size,
    List.length_append, List.length_replicate, List.replicate_zero, List.append_nil]
  rfl

/-- A state that is not confirmed, or whose value does not fit, is answered by a
status, and nothing is written. -/
theorem Host.confirmedState_missing (pointer capacity versionPointer : UInt32)
    (holds : id.Holds host.arena key)
    (missing : ¬ ∃ value version, host.setup.chainState.find? key = some (value, version) ∧
      0 < value.length ∧ value.length ≤ capacity.toNat) :
    confirmedState id.pointer id.length pointer capacity versionPointer host = .ok 1 host := by
  rw [confirmedState, bind_of_ok (readArgument_holds holds), bind_of_ok (configured_run _)]
  cases found : host.setup.chainState.find? key with
  | none => rfl
  | some confirmed =>
    obtain ⟨value, version⟩ := confirmed
    have unusable : ¬ (0 < value.length ∧ value.length ≤ capacity.toNat) :=
      fun usable => missing ⟨value, version, found, usable⟩
    simp only
    rw [bind_of_ok (fill_unusable unusable), if_pos rfl]
    rfl

/-- **What the host leaves in the buffers** of a confirmed state that fits: the
value with its zeros in the first, and the version in the second. -/
theorem Host.confirmedState_holds (grants : host.Grants) (somewhere : host.SparesNull)
    {capacity versionSize : UInt32}
    (again : (host.granted (List.replicate capacity.toNat 0)).Grants)
    (room : versionSize.toNat = 8) (holds : id.Holds host.arena key)
    (found : host.setup.chainState.find? key = some (value, version))
    (present : 0 < value.length) (fits : value.length ≤ capacity.toNat) :
    ∃ after, confirmedState id.pointer id.length (host.nextRegion capacity).pointer capacity
        ((host.granted (List.replicate capacity.toNat 0)).nextRegion versionSize).pointer
        ((host.granted (List.replicate capacity.toNat 0)).granted
          (List.replicate versionSize.toNat 0)) = .ok 0 after ∧
      (host.nextRegion capacity).Holds after.arena (zeroExtended capacity.toNat value) ∧
      ((host.granted (List.replicate capacity.toNat 0)).nextRegion versionSize).Holds after.arena
        (Bytes.ofUInt64 version) ∧
      host.OnlyAllocated after := by
  -- the zeros that the guest reserved take as much room as what the host puts there
  have whole : (List.replicate capacity.toNat (0 : UInt8)).length
      = (zeroExtended capacity.toNat value).length := by
    rw [length_zeroExtended fits, List.length_replicate]
  have again := (grants_granted whole).mp again
  have size : (Bytes.ofUInt64 version).length = versionSize.toNat := by
    rw [Bytes.length_ofUInt64, room]
  have valueHolds := (nextRegion_holds grants somewhere (length_zeroExtended fits)).mono
    (List.prefix_append _ (Bytes.ofUInt64 version))
  have versionHolds := nextRegion_holds again (somewhere.granted _) size
  rw [nextRegion_granted whole]
  exact ⟨_, confirmedState_found grants again room holds found present fits, valueHolds,
    versionHolds, (onlyAllocated_granted host _).trans (onlyAllocated_granted _ _)⟩

/-- A confirmed value that fits is seen with the zeros behind it. -/
theorem confirmed_of_usable {confirmed : Option (Bytes × UInt64)} {width : Nat}
    (found : confirmed = some (value, version)) (present : 0 < value.length)
    (fits : value.length ≤ width) :
    (confirmed.bind fun found =>
        (seen? width found.1).map fun value => StateResult.mk (zeroExtended width value) found.2)
      = some ⟨zeroExtended width value, version⟩ := by
  rw [found, Option.bind_some, seen?, if_pos ⟨present, fits⟩]
  rfl

/-- No other confirmed value is seen. -/
theorem confirmed_of_unusable {confirmed : Option (Bytes × UInt64)} {width : Nat}
    (missing : ¬ ∃ value version, confirmed = some (value, version) ∧
      0 < value.length ∧ value.length ≤ width) :
    (confirmed.bind fun found =>
        (seen? width found.1).map fun value => StateResult.mk (zeroExtended width value) found.2)
      = none := by
  rw [Option.bind_eq_none_iff]
  intro found isFound
  have unusable : ¬ (0 < found.1.length ∧ found.1.length ≤ width) :=
    fun usable => missing ⟨found.1, found.2, isFound, usable⟩
  rw [seen?, if_neg unusable]
  rfl

theorem reads_confirmedState? {world : World} {stateId : String}
    (short : (Utf8.encode stateId).length < UInt32.size) :
    Reads world (confirmedState? stateId) [(Utf8.encode stateId).length, 8192, 8]
      ((world.host.setup.chainState.find? (Utf8.encode stateId)).bind fun found =>
        (seen? 8192 found.1).map fun value => ⟨zeroExtended 8192 value, found.2⟩) := by
  refine Reads.bind_writeBytes short fun id holds => ?_
  have setup : world.host.setup = (world.granted (Utf8.encode stateId)).host.setup := rfl
  rw [setup]
  generalize world.granted (Utf8.encode stateId) = world at holds ⊢
  intro (provided : world.host.Provides [lookupCapacity.toNat, versionCapacity.toNat])
  obtain ⟨somewhere, grants, valueReserved, provided⟩ := reserve_of_provides provided
  obtain ⟨-, again, versionReserved, -⟩ := reserve_of_provides provided
  simp only
  rw [bind_of_ok valueReserved]
  simp only
  rw [bind_of_ok versionReserved]
  simp only
  by_cases confirmed : ∃ value version,
      world.host.setup.chainState.find? (Utf8.encode stateId) = some (value, version) ∧
        0 < value.length ∧ value.length ≤ 8192
  · obtain ⟨value, version, found, present, fits⟩ := confirmed
    have width : versionCapacity.toNat = 8 := rfl
    obtain ⟨after, answers, valueHolds, versionHolds, only⟩ :=
      Host.confirmedState_holds grants somewhere again width holds found present fits
    refine ⟨⟨after, world.trace⟩, (bind_of_ok (call_of_ok answers)).trans ?_, only⟩
    rw [confirmed_of_usable found present fits, if_pos rfl]
    exact (bind_of_ok (readBuffer_holds valueHolds)).trans
      (bind_of_ok (readNumber_holds versionHolds))
  · have laid : id.Holds ((world.granted (List.replicate lookupCapacity.toNat 0)).granted
        (List.replicate versionCapacity.toNat 0)).host.arena (Utf8.encode stateId) :=
      (holds.mono (List.prefix_append _ _)).mono (List.prefix_append _ _)
    have answered := call_of_ok (Host.confirmedState_missing
      (world.host.nextRegion lookupCapacity).pointer lookupCapacity
      ((world.granted (List.replicate lookupCapacity.toNat 0)).host.nextRegion
        versionCapacity).pointer laid confirmed)
    rw [confirmed_of_unusable confirmed]
    exact ⟨_, bind_of_ok answered, (Host.onlyAllocated_granted world.host _).trans
      (Host.onlyAllocated_granted _ _)⟩

end Confirmed

/-! ## The lookups one by one -/

section Lookups

variable {world : World}

/-- An identity is an argument of a known length. -/
theorem Reads.bind_identity {α : Type} {width : Nat} {id : FixedBytes width}
    {next : Except BoundaryError Buffer → Guest α} {lengths : List Nat} {a : α}
    (short : width < UInt32.size)
    (reads : ∀ buffer : Buffer, buffer.Holds (world.granted id.toBytes).host.arena id.toBytes →
      Reads (world.granted id.toBytes) (next (.ok buffer)) lengths a) :
    Reads world (writeBytes id.toBytes >>= next) (width :: lengths) a := by
  have size := id.length_toBytes
  have reads := Reads.bind_writeBytes (id.short short) reads
  rwa [size] at reads

theorem reads_caller : Reads world caller [20]
    (((seen? 20 world.host.setup.caller).map .ofFront).getD .zero) :=
  (reads_replyAddress? fun _ _ _ same => Host.fill_configured same).map (·.getD .zero)

theorem reads_contractAddress : Reads world contractAddress [20]
    (((seen? 20 world.host.setup.contractAddress).map .ofFront).getD .zero) :=
  (reads_replyAddress? fun _ _ _ same => Host.fill_configured same).map (·.getD .zero)

theorem reads_txHash : Reads world txHash [32]
    ((FixedBytes.ofBytes? world.host.setup.txHash).getD .zero) :=
  (reads_replyHash? fun _ _ _ same => Host.fill_configured same).map (·.getD .zero)

theorem reads_stateValue? {key : String} (short : (Utf8.encode key).length < UInt32.size) :
    Reads world (stateValue? key) [(Utf8.encode key).length, 8192]
      (seen? 8192 ((world.host.setup.state.find? (Utf8.encode key)).getD [])) := by
  refine Reads.bind_writeBytes short fun buffer holds => ?_
  refine reads_reply? lookupCapacity fun pointer host kept same => ?_
  rw [Host.stateValue, bind_of_ok (Host.readArgument_holds (holds.mono kept))]
  exact Host.fill_configured same

theorem reads_utxo? {point : OutPoint} :
    Reads world (utxo? point) [32, 8192]
      ((seenText? 8192 ((world.host.setup.utxos.find?
        (point.txHash.toBytes, point.index)).getD "")).map fun json =>
          let utxo := Utxo.ofDescription point json
          { utxo with output := { utxo.output with data := Utf8.encode json } }) := by
  refine Reads.bind_identity (by decide) fun buffer holds => Reads.map ?_ _
  refine reads_replyText? lookupCapacity fun pointer host kept same => ?_
  rw [Host.utxoDescription, bind_of_ok (Host.readArgument_holds (holds.mono kept))]
  exact Host.fill_configured same

theorem reads_resource? {contentHash : Hash} :
    Reads world (resource? contentHash) [32, 8192]
      ((seenText? 8192 ((world.host.setup.resources.find? contentHash.toBytes).getD "")).map
        (Resource.ofDescription contentHash)) := by
  refine Reads.bind_identity (by decide) fun buffer holds => Reads.map ?_ _
  refine reads_replyText? lookupCapacity fun pointer host kept same => ?_
  rw [Host.resourceDescription, bind_of_ok (Host.readArgument_holds (holds.mono kept))]
  exact Host.fill_configured same

theorem reads_base58Of? {address : Address} :
    Reads world (base58Of? address) [20, 64]
      (seenText? 64 ((world.host.setup.base58.find? address.toBytes).getD "")) := by
  rw [← seen?_bind_decode?]
  refine Reads.bind_identity (by decide) fun buffer holds =>
    Reads.map ?_ fun (seen : Option Bytes) => seen.bind Utf8.decode?
  refine reads_reply? base58Capacity fun pointer host kept same => ?_
  have size : buffer.length = Host.addressCapacity := holds.length_of_identity rfl
  rw [Host.base58OfAddress, ← size, bind_of_ok (Host.readArgument_holds (holds.mono kept))]
  exact Host.fill_configured same

theorem reads_addressOfBase58? {text : String} (short : (Utf8.encode text).length < UInt32.size) :
    Reads world (addressOfBase58? text) [(Utf8.encode text).length, 20]
      ((seen? 20 ((Host.keyOf? text world.host.setup.base58.entries).getD [])).map .ofFront) := by
  refine Reads.bind_writeBytes short fun buffer holds => ?_
  refine reads_replyAddress? fun pointer host kept same => ?_
  rw [Host.addressOfBase58, bind_of_ok (Host.readText_holds (holds.mono kept))]
  exact Host.fill_configured same

theorem reads_declareState? {claim : String} (short : (Utf8.encode claim).length < UInt32.size) :
    Reads world (declareState? claim) [(Utf8.encode claim).length, 64]
      (seenText? 64 ((world.host.setup.claimIds.find? claim).getD "")) := by
  refine Reads.bind_writeBytes short fun buffer holds => ?_
  refine reads_replyText? claimIdCapacity fun pointer host kept same => ?_
  rw [Host.declareState, bind_of_ok (Host.readText_holds (holds.mono kept))]
  exact Host.fill_configured same

theorem reads_controlledState? {claimId : String}
    (short : (Utf8.encode claimId).length < UInt32.size) :
    Reads world (controlledState? claimId) [(Utf8.encode claimId).length, 8192]
      (seenText? 8192 ((world.host.setup.controlledState.find? claimId).getD "")) := by
  refine Reads.bind_writeBytes short fun buffer holds => ?_
  refine reads_replyText? lookupCapacity fun pointer host kept same => ?_
  rw [Host.controlledState, bind_of_ok (Host.readText_holds (holds.mono kept))]
  exact Host.fill_configured same

theorem QueryStep.reads {step : QueryStep} {reading : Reading}
    (isLookup : step.reading? world.host.setup = some reading)
    (short : ∀ length ∈ reading.lengths, length < UInt32.size) :
    Reads world step.run reading.lengths reading.answer := by
  cases step with
  | caller =>
    cases isLookup
    rw [← Answer.ofIdentity_ofFront]
    exact reads_caller.map _
  | contractAddress =>
    cases isLookup
    rw [← Answer.ofIdentity_ofFront]
    exact reads_contractAddress.map _
  | minerAddress height =>
    cases isLookup
    rw [← Answer.ofOption_ofFront]
    exact (reads_replyAddress? fun _ _ _ same => Host.fill_configured same).map _
  | blockHash height =>
    cases isLookup
    rw [← Answer.ofOption_ofBytes?]
    exact (reads_replyHash? fun _ _ _ same => Host.fill_configured same).map _
  | merkleRoot height =>
    cases isLookup
    rw [← Answer.ofOption_ofBytes?]
    exact (reads_replyHash? fun _ _ _ same => Host.fill_configured same).map _
  | stateRoot height =>
    cases isLookup
    rw [← Answer.ofOption_ofBytes?]
    exact (reads_replyHash? fun _ _ _ same => Host.fill_configured same).map _
  | txHash =>
    cases isLookup
    rw [← Answer.ofIdentity_ofBytes?]
    exact reads_txHash.map _
  | chainId =>
    cases isLookup
    exact (reads_reply? chainIdCapacity fun _ _ _ same => Host.fill_configured same).map _
  | initParams maxLength =>
    cases isLookup
    exact (reads_reply? maxLength fun _ _ _ same => Host.fill_configured same).map _
  | contractParams maxLength =>
    cases isLookup
    exact (reads_reply? maxLength fun _ _ _ same => Host.fill_configured same).map _
  | stateValue key =>
    cases isLookup
    exact (reads_stateValue? (short _ List.mem_cons_self)).map _
  | confirmedState stateId =>
    cases isLookup
    exact (reads_confirmedState? (short _ List.mem_cons_self)).map _
  | utxo point =>
    cases isLookup
    exact reads_utxo?.map _
  | resource contentHash =>
    cases isLookup
    exact reads_resource?.map _
  | base58Of address =>
    cases isLookup
    exact reads_base58Of?.map _
  | addressOfBase58 text =>
    cases isLookup
    rw [← Answer.ofOption_ofFront]
    exact (reads_addressOfBase58? (short _ List.mem_cons_self)).map _
  | _ => cases isLookup

theorem ReportStep.reads {step : ReportStep} {reading : Reading}
    (isLookup : step.reading? world.host.setup = some reading)
    (short : ∀ length ∈ reading.lengths, length < UInt32.size) :
    Reads world step.run reading.lengths reading.answer := by
  cases step with
  | declareState claim =>
    cases isLookup
    exact (reads_declareState? (short _ List.mem_cons_self)).map _
  | controlledState claimId =>
    cases isLookup
    exact (reads_controlledState? (short _ List.mem_cons_self)).map _
  | _ => cases isLookup

end Lookups

/-- **A lookup answers what the setup says**, when it finds room, and makes
nothing but allocations. -/
theorem Step.run_reading (step : Step) (locals : Locals) (world : World) {reading : Reading}
    (isLookup : step.reading? world.host.setup = some reading)
    (short : ∀ length ∈ reading.lengths, length < UInt32.size)
    (provided : world.host.Provides reading.lengths) :
    ∃ after, step.run locals world = .ok (reading.answer, locals) after ∧
      world.host.OnlyAllocated after.host := by
  cases step with
  | query step =>
    obtain ⟨after, answers, only⟩ := step.reads isLookup short provided
    exact ⟨after, bind_of_ok answers, only⟩
  | report step =>
    obtain ⟨after, answers, only⟩ := step.reads isLookup short provided
    exact ⟨after, bind_of_ok answers, only⟩
  | _ => cases isLookup

/-- A confirmed value of two bytes comes with all the zeros of its buffer. -/
theorem Step.run_reading_confirmed :
    ∃ after, (Step.query (.confirmedState "s")).run .none
        ⟨Host.initial.configure (.chainState (Utf8.encode "s") [1, 2] 7), []⟩
      = .ok (.state ⟨zeroExtended 8192 [1, 2], 7⟩, .none) after := by
  have isLookup : (Step.query (.confirmedState "s")).reading?
      (Host.initial.configure (.chainState (Utf8.encode "s") [1, 2] 7)).setup
        = some ⟨[1, 8192, 8], .state ⟨zeroExtended 8192 [1, 2], 7⟩⟩ := rfl
  have provided : (Host.initial.configure
      (.chainState (Utf8.encode "s") [1, 2] 7)).Provides [1, 8192, 8] :=
    Host.provides_of_unlimited rfl (by decide) (by decide)
  obtain ⟨after, answers, -⟩ := run_reading (.query (.confirmedState "s")) .none
    ⟨_, []⟩ isLookup (by decide) provided
  exact ⟨after, answers⟩

end HostBoundary
