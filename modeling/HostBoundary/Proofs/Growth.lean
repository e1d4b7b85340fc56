import HostBoundary.Proofs.Memory

/-!
# Growth

What any public operation may do to a host is stated once, as a relation
between the host before and the host after (`Host.Growth`): the arena keeps what
it had, the allocations that were granted account for all that it gained, the
setup is untouched, and a host that refuses goes on refusing.  Growth is
reflexive and transitive, so an operation inherits it from its parts.

## Two levels

A host call gets its arguments and the buffer for its reply from the contract
side, and may only write into the latter.  `HostCall.Safe` says that it answers
without a fault and leaves everything below `base` alone, as long as the
buffers in `held` lie inside the arena.  `Guest.Safe` says that a computation
answers without a fault and that the host has grown.  There the buffers come
and go: an allocation adds one to those that are held (`safe_bind_reserve`,
`safe_bind_writeBytes`), and a host call may use any of them (`safe_call`).

The base is the length that the arena had when the operation began.  Whatever
an operation reserves lies above it, and whatever it lets the host write lies
in what it reserved.

## Views of the records

The records change as the operation is meant to change them, so the two
predicates take a `view` of the records that has to stay as it is.  For a question
that is the identity.  For a report it is whatever the report does not concern.
-/

namespace HostBoundary

/-! ## The ledger of requests -/

namespace AllocationRequest

/-- The granted requests stand one behind the other, from `start` to `stop`. -/
inductive Laid : Nat → List AllocationRequest → Nat → Prop
  | nil (start : Nat) : Laid start [] start
  | refused {start stop : Nat} {request : AllocationRequest} {rest : List AllocationRequest}
      (notGranted : request.granted = false) (laid : Laid start rest stop) :
      Laid start (request :: rest) stop
  | granted {start stop : Nat} {request : AllocationRequest} {rest : List AllocationRequest}
      (isGranted : request.granted = true) (begins : request.pointer.toNat = start)
      (laid : Laid (start + request.size.toNat) rest stop) :
      Laid start (request :: rest) stop

/-- How many bytes the granted requests ask for together. -/
def grantedBytes : List AllocationRequest → Nat
  | [] => 0
  | request :: rest =>
    (if request.granted then request.size.toNat else 0) + grantedBytes rest

variable {start middle stop : Nat} {requests more : List AllocationRequest}

theorem Laid.append (first : Laid start requests middle) (second : Laid middle more stop) :
    Laid start (requests ++ more) stop := by
  induction first with
  | nil => exact second
  | refused notGranted _ ih => exact .refused notGranted (ih second)
  | granted isGranted begins _ ih => exact .granted isGranted begins (ih second)

/-- The ledger accounts for all that lies between its two ends. -/
theorem Laid.stop_eq (laid : Laid start requests stop) :
    stop = start + grantedBytes requests := by
  induction laid with
  | nil => rfl
  | refused notGranted _ ih => simpa [grantedBytes, notGranted] using ih
  | granted isGranted _ _ ih =>
    simp only [grantedBytes, isGranted, if_true]
    omega

/-- Every granted region lies between the two ends. -/
theorem Laid.between (laid : Laid start requests stop) :
    ∀ request ∈ requests, request.granted = true →
      start ≤ request.pointer.toNat ∧ request.pointer.toNat + request.size.toNat ≤ stop := by
  induction laid with
  | nil => simp
  | refused notGranted _ ih =>
    intro request mem isGranted
    rcases List.mem_cons.mp mem with rfl | later
    · rw [notGranted] at isGranted
      cases isGranted
    · exact ih request later isGranted
  | granted _ begins laid ih =>
    intro request mem isGranted
    have stop_eq := laid.stop_eq
    rcases List.mem_cons.mp mem with rfl | later
    · omega
    · have inside := ih request later isGranted
      omega

/-- **Granted regions do not overlap**: an earlier one ends before a later one begins. -/
theorem Laid.pairwise (laid : Laid start requests stop) :
    requests.Pairwise fun earlier later =>
      earlier.granted = true → later.granted = true →
        earlier.pointer.toNat + earlier.size.toNat ≤ later.pointer.toNat := by
  induction laid with
  | nil => exact .nil
  | refused notGranted _ ih =>
    refine .cons ?_ ih
    intro later _ isGranted _
    rw [notGranted] at isGranted
    cases isGranted
  | granted _ begins laid ih =>
    refine .cons ?_ ih
    intro later mem _ laterGranted
    rw [begins]
    exact (laid.between later mem laterGranted).1

end AllocationRequest

open AllocationRequest (Laid)

/-! ## Growth of a host -/

variable {β : Type} {view : Records → β} {base : Nat} {held : List Buffer}

namespace Host

/-- What a computation of the contract side may do to a host. -/
structure Growth (view : Records → β) (base : Nat) (before after : Host) : Prop where
  /-- The arena below the base is as it was. -/
  kept : after.arena.take base = before.arena.take base
  /-- What the arena gained was granted. -/
  laid : ∃ added, after.requests = before.requests ++ added ∧
    Laid before.arena.length added after.arena.length
  /-- The answers that were configured are as they were. -/
  setup : after.setup = before.setup
  /-- What the view shows of the records is as it was. -/
  shown : view after.records = view before.records
  /-- A host that refuses goes on refusing. -/
  spent : ¬ before.Grants → ¬ after.Grants

/-- What a host call may do to a host: the ledger stays closed. -/
structure Rewritten (view : Records → β) (base : Nat) (before after : Host) : Prop where
  /-- The arena below the base is as it was. -/
  kept : after.arena.take base = before.arena.take base
  /-- The arena is as long as it was. -/
  length : after.arena.length = before.arena.length
  /-- No allocation was made. -/
  policy : after.policy = before.policy
  /-- None was asked for. -/
  requests : after.requests = before.requests
  /-- The answers that were configured are as they were. -/
  setup : after.setup = before.setup
  /-- What the view shows of the records is as it was. -/
  shown : view after.records = view before.records

variable {host before middle after : Host}

@[refl] theorem Growth.refl (view : Records → β) (base : Nat) (host : Host) :
    Growth view base host host :=
  ⟨rfl, ⟨[], by simp, .nil _⟩, rfl, rfl, id⟩

theorem Growth.trans (first : Growth view base before middle)
    (second : Growth view base middle after) : Growth view base before after where
  kept := second.kept.trans first.kept
  laid := by
    obtain ⟨added, requests, laid⟩ := first.laid
    obtain ⟨more, moreRequests, moreLaid⟩ := second.laid
    refine ⟨added ++ more, ?_, laid.append moreLaid⟩
    rw [moreRequests, requests, List.append_assoc]
  setup := second.setup.trans first.setup
  shown := second.shown.trans first.shown
  spent := second.spent ∘ first.spent

theorem Growth.length_le (growth : Growth view base before after) :
    before.arena.length ≤ after.arena.length := by
  obtain ⟨added, -, laid⟩ := growth.laid
  rw [laid.stop_eq]
  exact Nat.le_add_right _ _

/-- An operation that began at the end of the arena leaves the arena a prefix of
what it makes of it. -/
theorem Growth.arena_kept (growth : Growth view before.arena.length before after) :
    before.arena <+: after.arena :=
  prefix_of_take_eq growth.kept

@[refl] theorem Rewritten.refl (view : Records → β) (base : Nat) (host : Host) :
    Rewritten view base host host :=
  ⟨rfl, rfl, rfl, rfl, rfl, rfl⟩

theorem Rewritten.trans (first : Rewritten view base before middle)
    (second : Rewritten view base middle after) : Rewritten view base before after :=
  ⟨second.kept.trans first.kept, second.length.trans first.length,
    second.policy.trans first.policy, second.requests.trans first.requests,
    second.setup.trans first.setup, second.shown.trans first.shown⟩

theorem Rewritten.growth (rewritten : Rewritten view base before after) :
    Growth view base before after where
  kept := rewritten.kept
  laid := ⟨[], by rw [rewritten.requests, List.append_nil], by rw [rewritten.length]; exact .nil _⟩
  setup := rewritten.setup
  shown := rewritten.shown
  spent refuses := by
    unfold Grants
    rw [rewritten.policy, rewritten.length]
    exact refuses

/-! ### The two allocations grow -/

theorem growth_granted {bytes : Bytes} (grants : host.Grants) (short : bytes.length < UInt32.size)
    (pos : 0 < base) (reached : base ≤ host.arena.length) :
    Growth view base host (host.granted bytes) where
  kept := List.take_append_of_le_length reached
  laid := by
    have size : (UInt32.ofNat bytes.length).toNat = bytes.length :=
      UInt32.toNat_ofNat_of_lt' short
    have place : (UInt32.ofNat host.arena.length).toNat = host.arena.length :=
      UInt32.toNat_ofNat_of_lt' grants.2
    have notNull : UInt32.ofNat host.arena.length ≠ nullPointer := by
      intro null
      rw [null] at place
      have zero : host.arena.length = 0 := place.symm
      omega
    refine ⟨_, rfl, .granted ?_ place ?_⟩
    · simpa [AllocationRequest.granted] using notNull
    · simpa [size] using Laid.nil (host.arena.length + bytes.length)
  setup := rfl
  shown := rfl
  spent refuses := absurd grants refuses

theorem growth_refused (refuses : ¬ host.Grants) (size : UInt32) :
    Growth view base host (host.refused size) :=
  ⟨rfl, ⟨_, rfl, .refused rfl (.nil _)⟩, rfl, rfl, fun _ => not_grants_refused refuses size⟩

end Host

open Host (Growth Rewritten)

/-! ## Buffers that a call may use -/

/-- A part of a region. -/
def Buffer.Covers (buffer : Buffer) (pointer length : UInt32) : Prop :=
  buffer.pointer.toNat ≤ pointer.toNat ∧
    pointer.toNat + length.toNat ≤ buffer.pointer.toNat + buffer.length.toNat

theorem Buffer.covers_front (buffer : Buffer) {length : UInt32}
    (fits : length.toNat ≤ buffer.length.toNat) : buffer.Covers buffer.pointer length :=
  ⟨Nat.le_refl _, Nat.add_le_add_left fits _⟩

/-- An argument that is missing, or lies in a buffer that is held. -/
def Readable (held : List Buffer) (pointer length : UInt32) : Prop :=
  pointer = nullPointer ∨ length = 0 ∨ ∃ buffer ∈ held, buffer.Covers pointer length

/-- A place of `length` bytes above the base, in a buffer that is held. -/
def Writable (base : Nat) (held : List Buffer) (pointer : UInt32) (length : Nat) : Prop :=
  base ≤ pointer.toNat ∧
    ∃ buffer ∈ held, buffer.pointer = pointer ∧ length ≤ buffer.length.toNat

theorem Readable.of_mem {buffer : Buffer} (mem : buffer ∈ held) :
    Readable held buffer.pointer buffer.length :=
  .inr (.inr ⟨buffer, mem, buffer.covers_front (Nat.le_refl _)⟩)

/-- An argument of a length that the host takes for granted. -/
theorem Readable.of_length {buffer : Buffer} {length : UInt32} (mem : buffer ∈ held)
    (same : buffer.length.toNat = length.toNat) : Readable held buffer.pointer length :=
  .inr (.inr ⟨buffer, mem, buffer.covers_front (Nat.le_of_eq same.symm)⟩)

theorem Readable.of_truncate {buffer : Buffer} (mem : buffer ∈ held) (length : UInt32) :
    Readable held (buffer.truncate length).pointer (buffer.truncate length).length :=
  .inr (.inr ⟨buffer, mem, buffer.covers_front (Buffer.toNat_min_le length buffer.length)⟩)

/-- An identity is written with the length that the host takes for granted. -/
theorem Readable.identity {n : Nat} {id : FixedBytes n} {buffer : Buffer} {length : UInt32}
    (mem : buffer ∈ held) (size : buffer.length.toNat = id.toBytes.length)
    (granted : length.toNat = n) : Readable held buffer.pointer length :=
  .of_length mem (by rw [size, id.length_toBytes, granted])

theorem Readable.optional {buffer : Buffer} {argument : Option Bytes}
    (sent : buffer = .empty ∨
      buffer ∈ held ∧ ∃ bytes, argument = some bytes ∧ buffer.length.toNat = bytes.length) :
    Readable held buffer.pointer buffer.length := by
  rcases sent with rfl | ⟨mem, -⟩
  · exact .inl rfl
  · exact .of_mem mem

/-- An optional identity is read with the length that the host takes for granted. -/
theorem Readable.optionalIdentity {n : Nat} {id : Option (FixedBytes n)} {buffer : Buffer}
    {length : UInt32}
    (sent : buffer = .empty ∨ buffer ∈ held ∧
      ∃ bytes, id.map FixedBytes.toBytes = some bytes ∧ buffer.length.toNat = bytes.length)
    (granted : length.toNat = n) : Readable held buffer.pointer length := by
  rcases sent with rfl | ⟨mem, bytes, isIdentity, size⟩
  · exact .inl rfl
  · obtain ⟨identity, -, rfl⟩ := Option.map_eq_some_iff.mp isIdentity
    exact .identity mem size granted

theorem Readable.mono {more : List Buffer} {pointer length : UInt32}
    (readable : Readable held pointer length) (sub : held ⊆ more) :
    Readable more pointer length := by
  rcases readable with null | zero | ⟨buffer, mem, rest⟩
  · exact .inl null
  · exact .inr (.inl zero)
  · exact .inr (.inr ⟨buffer, sub mem, rest⟩)

theorem Writable.of_mem {buffer : Buffer} {length : Nat} (above : base ≤ buffer.pointer.toNat)
    (mem : buffer ∈ held) (fits : length ≤ buffer.length.toNat) :
    Writable base held buffer.pointer length :=
  ⟨above, buffer, mem, rfl, fits⟩

/-! ## Safe host calls -/

namespace HostCall

variable {α γ : Type}

/-- The call answers without a fault, and rewrites nothing below the base. -/
def Safe (view : Records → β) (base : Nat) (held : List Buffer) (act : HostCall α) : Prop :=
  ∀ host : Host, (∀ buffer ∈ held, buffer.Within host.arena.length) →
    ∃ a after, act host = .ok a after ∧ Rewritten view base host after

theorem safe_pure (a : α) : Safe view base held (pure a) :=
  fun host _ => ⟨a, host, rfl, .refl view base host⟩

theorem Safe.bind {act : HostCall α} {next : α → HostCall γ} (first : Safe view base held act)
    (second : ∀ a, Safe view base held (next a)) : Safe view base held (act >>= next) := by
  intro host within
  obtain ⟨a, middle, answers, rewritten⟩ := first host within
  have stillWithin : ∀ buffer ∈ held, buffer.Within middle.arena.length := by
    rw [rewritten.length]
    exact within
  obtain ⟨c, after, answers', rewritten'⟩ := second a middle stillWithin
  exact ⟨c, after, (bind_of_ok answers).trans answers', rewritten.trans rewritten'⟩

theorem safe_configured (ask : Setup → α) : Safe view base held (Host.configured ask) :=
  fun host _ => ⟨ask host.setup, host, rfl, .refl view base host⟩

theorem safe_get : Safe view base held (get : HostCall Host) :=
  fun host _ => ⟨host, host, rfl, .refl view base host⟩

theorem safe_record {change : Records → Records} (unseen : ∀ r, view (change r) = view r) :
    Safe view base held (Host.record change) :=
  fun host _ => ⟨(), _, rfl, rfl, rfl, rfl, rfl, rfl, unseen host.records⟩

/-- Reading at a place that a held buffer covers. -/
theorem safe_read {pointer length : UInt32} {buffer : Buffer} (mem : buffer ∈ held)
    (covers : buffer.Covers pointer length) :
    Safe view base held (Host.read pointer length) := by
  intro host within
  have inside := Nat.le_trans covers.2 (within buffer mem).fits
  exact ⟨_, host, if_pos inside, .refl view base host⟩

theorem safe_readArgument {pointer length : UInt32} (readable : Readable held pointer length) :
    Safe view base held (Host.readArgument pointer length) := by
  unfold Host.readArgument
  split
  · exact safe_pure []
  · next present =>
    simp only [Bool.or_eq_true, decide_eq_true_eq, not_or] at present
    obtain ⟨buffer, mem, covers⟩ := (readable.resolve_left present.1).resolve_left present.2
    exact safe_read mem covers

theorem safe_readText {pointer length : UInt32} (readable : Readable held pointer length) :
    Safe view base held (Host.readText pointer length) :=
  (safe_readArgument readable).bind fun _ => safe_pure _

theorem safe_write {pointer : UInt32} {bytes : Bytes}
    (writable : Writable base held pointer bytes.length) :
    Safe view base held (Host.write pointer bytes) := by
  intro host within
  obtain ⟨above, buffer, mem, rfl, fits⟩ := writable
  have whole := (within buffer mem).fits
  have inside : buffer.pointer.toNat + bytes.length ≤ host.arena.length := by omega
  refine ⟨(), _, if_pos inside, Host.take_overwrite above (by omega),
    Host.length_overwrite inside, rfl, rfl, rfl, rfl⟩

theorem safe_fill {pointer capacity : UInt32} {reply : Bytes}
    (writable : Writable base held pointer capacity.toNat) :
    Safe view base held (Host.fill pointer capacity reply) := by
  unfold Host.fill
  split
  · exact safe_pure 0
  · next usable =>
    simp only [Bool.or_eq_true, decide_eq_true_eq, not_or, Nat.not_lt] at usable
    obtain ⟨above, buffer, mem, same, fits⟩ := writable
    exact (safe_write ⟨above, buffer, mem, same, Nat.le_trans usable.2 fits⟩).bind
      fun _ => safe_pure _

end HostCall

/-! ## Safe computations -/

namespace Guest

variable {α γ : Type}

/-- The computation answers without a fault in a world whose arena reaches the
base, and the host grows above the base. -/
def Safe (view : Records → β) (base : Nat) (held : List Buffer) (act : Guest α) : Prop :=
  ∀ world : World, 0 < base → base ≤ world.host.arena.length →
    (∀ buffer ∈ held, buffer.Within world.host.arena.length) →
    ∃ a after, act world = .ok a after ∧ Growth view base world.host after.host

theorem safe_pure (a : α) : Safe view base held (pure a) :=
  fun world _ _ _ => ⟨a, world, rfl, .refl view base world.host⟩

theorem Safe.bind {act : Guest α} {next : α → Guest γ} (first : Safe view base held act)
    (second : ∀ a, Safe view base held (next a)) : Safe view base held (act >>= next) := by
  intro world pos reached within
  obtain ⟨a, middle, answers, growth⟩ := first world pos reached within
  obtain ⟨c, after, answers', growth'⟩ := second a middle pos
    (Nat.le_trans reached growth.length_le)
    fun buffer mem => (within buffer mem).mono growth.length_le
  exact ⟨c, after, (bind_of_ok answers).trans answers', growth.trans growth'⟩

theorem Safe.map {act : Guest α} (f : α → γ) (safe : Safe view base held act) :
    Safe view base held (f <$> act) := by
  intro world pos reached within
  obtain ⟨a, after, answers, growth⟩ := safe world pos reached within
  exact ⟨f a, after, map_of_ok f answers, growth⟩

theorem safe_emit (event : TraceEvent) : Safe view base held (emit event) :=
  fun world _ _ _ => ⟨(), _, rfl, .refl view base world.host⟩

theorem safe_call {act : HostCall α} (safe : HostCall.Safe view base held act) :
    Safe view base held (call act) := by
  intro world _ _ within
  obtain ⟨a, host, answers, rewritten⟩ := safe world.host within
  exact ⟨a, _, call_of_ok answers, rewritten.growth⟩

section Answers

variable {world after : World} {act : Guest α} {a : α}
  (reserved : world.host.SparesNull) (answers : act world = .ok a after)

include reserved answers

/-- An answer of a safe computation lets the host grow. -/
theorem Safe.growth (safe : Safe view world.host.arena.length [] act) :
    Growth view world.host.arena.length world.host after.host := by
  obtain ⟨a', after', answers', growth⟩ :=
    safe world reserved (Nat.le_refl _) (List.forall_mem_nil _)
  rw [answers] at answers'
  cases answers'
  exact growth

theorem Safe.nonempty (safe : Safe view world.host.arena.length [] act) :
    after.host.SparesNull :=
  reserved.mono (safe.growth reserved answers).length_le

/-- A question leaves the setup and the records alone. -/
theorem Safe.question (safe : Safe id world.host.arena.length [] act) :
    after.host.SparesNull ∧ after.host.setup = world.host.setup ∧
      after.host.records = world.host.records := by
  have growth := safe.growth reserved answers
  exact ⟨safe.nonempty reserved answers, growth.setup, growth.shown⟩

end Answers

/-! ### Allocating -/

section Allocating

variable {world : World} {next : Guest γ} (safe : Safe view base held next) (pos : 0 < base)
  (reached : base ≤ world.host.arena.length)
  (within : ∀ buffer ∈ held, buffer.Within world.host.arena.length)

include pos reached within

/-- What is safe when the fresh region is held too is safe once it is granted. -/
theorem safe_of_grants {bytes : Bytes} {length : UInt32} (grants : world.host.Grants)
    (size : bytes.length = length.toNat)
    (safe : Safe view base (world.host.nextRegion length :: held) next) :
    ∃ c after, next (world.granted bytes) = .ok c after ∧
      Growth view base world.host after.host := by
  have short : bytes.length < UInt32.size := by
    rw [size]
    exact length.toNat_lt
  have growth : Growth view base world.host (world.granted bytes).host :=
    Host.growth_granted grants short pos reached
  have fresh : (world.host.nextRegion length).Holds (world.granted bytes).host.arena bytes :=
    Host.nextRegion_holds grants (Nat.lt_of_lt_of_le pos reached) size
  obtain ⟨c, after, answers, growth'⟩ := safe (world.granted bytes) pos
    (Nat.le_trans reached growth.length_le) (by
      intro buffer mem
      rcases List.mem_cons.mp mem with rfl | old
      · exact fresh.toWithin
      · exact (within buffer old).mono growth.length_le)
  exact ⟨c, after, answers, growth.trans growth'⟩

include safe

/-- A refusal takes nothing away from what is safe. -/
theorem safe_of_not_grants (grants : ¬ world.host.Grants) (length : UInt32) :
    ∃ c after, next (world.refused length) = .ok c after ∧
      Growth view base world.host after.host := by
  have growth : Growth view base world.host (world.refused length).host :=
    Host.growth_refused grants length
  obtain ⟨c, after, answers, growth'⟩ := safe (world.refused length) pos reached within
  exact ⟨c, after, answers, growth.trans growth'⟩

end Allocating

/-- Behind a reservation the fresh buffer is held, and it lies above the base. -/
theorem safe_bind_reserve {length : UInt32} {next : Except BoundaryError Buffer → Guest γ}
    (onError : ∀ error, Safe view base held (next (.error error)))
    (onOk : ∀ buffer : Buffer, buffer.length = length → base ≤ buffer.pointer.toNat →
      Safe view base (buffer :: held) (next (.ok buffer))) :
    Safe view base held (reserve length >>= next) := by
  intro world pos reached within
  have nonempty : world.host.SparesNull := Nat.lt_of_lt_of_le pos reached
  by_cases grants : world.host.Grants
  · have above : base ≤ (world.host.nextRegion length).pointer.toNat := by
      rw [Host.toNat_nextRegion grants]
      exact reached
    rw [bind_of_ok (reserve_of_grants grants nonempty length)]
    exact safe_of_grants pos reached within grants List.length_replicate (onOk _ rfl above)
  · rw [bind_of_ok (reserve_of_not_grants grants length)]
    exact safe_of_not_grants (onError _) pos reached within grants length

/-- Behind a write the buffer is held, as long as what was written. -/
theorem safe_bind_writeBytes {bytes : Bytes} {next : Except BoundaryError Buffer → Guest γ}
    (onError : ∀ error, Safe view base held (next (.error error)))
    (onOk : ∀ buffer : Buffer, buffer.length.toNat = bytes.length →
      Safe view base (buffer :: held) (next (.ok buffer))) :
    Safe view base held (writeBytes bytes >>= next) := by
  intro world pos reached within
  have nonempty : world.host.SparesNull := Nat.lt_of_lt_of_le pos reached
  by_cases short : bytes.length < UInt32.size
  · by_cases grants : world.host.Grants
    · have size : (UInt32.ofNat bytes.length).toNat = bytes.length :=
        UInt32.toNat_ofNat_of_lt' short
      rw [bind_of_ok (writeBytes_of_grants grants nonempty short)]
      exact safe_of_grants pos reached within grants size.symm (onOk _ size)
    · rw [bind_of_ok (writeBytes_of_not_grants grants short)]
      exact safe_of_not_grants (onError _) pos reached within grants _
  · rw [bind_of_ok (writeBytes_of_long short)]
    exact onError .tooWide world pos reached within

/-- Behind an optional argument more may be held.  The argument is the empty
buffer, or one of those, as long as what was to be sent. -/
theorem safe_bind_optionalBytes {argument : Option Bytes} {next : Buffer → Guest γ}
    (safe : ∀ (buffer : Buffer) (more : List Buffer), held ⊆ more →
      (buffer = .empty ∨
        buffer ∈ more ∧ ∃ bytes, argument = some bytes ∧ buffer.length.toNat = bytes.length) →
      Safe view base more (next buffer)) :
    Safe view base held (optionalBytes argument >>= next) := by
  have missing : Safe view base held (next .empty) :=
    safe .empty held (List.Subset.refl _) (.inl rfl)
  cases argument with
  | none => exact missing
  | some bytes =>
    rw [optionalBytes]
    split
    · exact missing
    · rw [bind_assoc]
      refine safe_bind_writeBytes (fun _ => missing) fun buffer size => ?_
      exact safe buffer (buffer :: held) (List.subset_cons_self _ _)
        (.inr ⟨List.mem_cons_self, bytes, rfl, size⟩)

/-! ### Reading back -/

theorem safe_readBytes {pointer length : UInt32} (readable : Readable held pointer length) :
    Safe view base held (readBytes pointer length) := by
  unfold readBytes
  split
  · exact safe_pure []
  · next present =>
    simp only [Bool.or_eq_true, decide_eq_true_eq, not_or] at present
    obtain ⟨buffer, mem, covers⟩ := (readable.resolve_left present.1).resolve_left present.2
    exact safe_call (HostCall.safe_read mem covers)

theorem safe_readNumber {pointer : UInt32} (readable : Readable held pointer 8) :
    Safe view base held (readNumber pointer) := by
  refine (safe_readBytes readable).bind fun bytes => ?_
  split <;> exact safe_pure _

/-- A reply is safe when the question is, at any place that has room for it. -/
theorem safe_reply? {capacity : UInt32} {ask : UInt32 → UInt32 → HostCall UInt32}
    (asks : ∀ (pointer : UInt32) (more : List Buffer), held ⊆ more →
      Writable base more pointer capacity.toNat →
      HostCall.Safe view base more (ask pointer capacity)) :
    Safe view base held (reply? capacity ask) := by
  refine safe_bind_reserve (fun _ => safe_pure none) ?_
  rintro buffer rfl above
  have place : Writable base (buffer :: held) buffer.pointer buffer.length.toNat :=
    .of_mem above List.mem_cons_self (Nat.le_refl _)
  refine (safe_call (asks buffer.pointer _ (List.subset_cons_self _ _) place)).bind fun written => ?_
  split
  · exact (safe_emit _).bind fun _ => safe_pure none
  · exact (safe_readBytes (Readable.of_truncate List.mem_cons_self written)).bind
      fun _ => safe_pure _

theorem safe_replyHash? {ask : UInt32 → HostCall UInt32}
    (asks : ∀ (pointer : UInt32) (more : List Buffer), held ⊆ more →
      Writable base more pointer hashCapacity.toNat → HostCall.Safe view base more (ask pointer)) :
    Safe view base held (replyHash? ask) :=
  (safe_reply? asks).bind fun _ => safe_pure _

theorem safe_replyAddress? {ask : UInt32 → HostCall UInt32}
    (asks : ∀ (pointer : UInt32) (more : List Buffer), held ⊆ more →
      Writable base more pointer addressCapacity.toNat →
      HostCall.Safe view base more (ask pointer)) :
    Safe view base held (replyAddress? ask) :=
  (safe_reply? asks).bind fun _ => safe_pure _

theorem safe_replyText? {capacity : UInt32} {ask : UInt32 → UInt32 → HostCall UInt32}
    (asks : ∀ (pointer : UInt32) (more : List Buffer), held ⊆ more →
      Writable base more pointer capacity.toNat →
      HostCall.Safe view base more (ask pointer capacity)) :
    Safe view base held (replyText? capacity ask) := by
  refine (safe_reply? asks).bind fun reply => ?_
  cases reply with
  | none => exact safe_pure none
  | some bytes =>
    cases decoded : Utf8.decode? bytes with
    | some text =>
      simp only [decoded]
      exact safe_pure _
    | none =>
      simp only [decoded]
      exact (safe_emit _).bind fun _ => safe_pure none

end Guest

end HostBoundary
