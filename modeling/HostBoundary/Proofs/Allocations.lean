import HostBoundary.Proofs.Memory

/-!
# The allocations of one operation

An operation asks for its regions one after the other, and how far it comes
depends on the first that it is not granted.  This module gives that a name:
`Host.Provides host lengths` says that allocations of these lengths, made one
after the other, all answer a region.  It is stated by making the allocations,
so it covers every reason for a refusal at once: the policy, the budget, the end
of the address space, and the null pointer that an empty arena has to give.

## What an operation leaves alone

An operation that only asks for regions changes the arena, at its end, and the
budget.  `Host.OnlyAllocated` is that relation.  `Host.Allocated` adds to it
what the host provides *next*: what it provided before, behind the regions that
were asked for.  Since a refusal is final, that is true whether or not they were
granted, and an operation may go on after a refusal.

## Main results

* `Host.provides_cons_iff` — the first of several allocations, and the rest.
* `Host.provides_of_unlimited` — a host without limits provides what fits.
* `Guest.writeBytes_of_provides`, `Guest.writeBytes_of_not_provides` and the
  same for reservations — what an operation finds, with the regions that it
  needs or without.
* `Guest.bind_writeBytes_cases` — what follows an argument, in both cases.
* `optionalBytes_sentAs` — an argument that may be absent, which is sent whether
  or not it finds room.
-/

namespace HostBoundary

namespace Host

variable {host before middle after : Host} {bytes : Bytes} {length : Nat}
  {lengths rest : List Nat}

/-! ## Allocations in a row -/

/-- Allocations of these lengths, one after the other, each answer a region. -/
def Provides : Host → List Nat → Prop
  | _, [] => True
  | host, length :: lengths =>
    match allocate (UInt32.ofNat length) host with
    | .ok pointer after => pointer ≠ nullPointer ∧ after.Provides lengths
    | .error _ _ => False

instance decidableProvides : (host : Host) → (lengths : List Nat) →
    Decidable (host.Provides lengths)
  | _, [] => .isTrue trivial
  | host, length :: lengths =>
    match answered : allocate (UInt32.ofNat length) host with
    | .ok pointer after =>
      have := decidableProvides after lengths
      decidable_of_iff (pointer ≠ nullPointer ∧ after.Provides lengths)
        (by rw [Provides, answered])
    | .error _ _ => .isFalse (by rw [Provides, answered]; exact id)

theorem not_provides_of_not_grants (refuses : ¬ host.Grants) :
    ¬ host.Provides (length :: lengths) := by
  rw [Provides, allocate_of_not_grants refuses]
  exact fun provided => provided.1 rfl

/-- The region at the null pointer does not count as one. -/
theorem not_provides_of_empty (empty : host.arena = []) : ¬ host.Provides (length :: lengths) := by
  by_cases grants : host.Grants
  · have null : (host.nextRegion (UInt32.ofNat length)).pointer = nullPointer := by
      rw [nextRegion, empty]
      rfl
    rw [Provides, allocate_of_grants grants]
    exact fun provided => provided.1 null
  · exact not_provides_of_not_grants grants

theorem provides_cons_of_grants (grants : host.Grants) (nonempty : host.SparesNull) :
    host.Provides (length :: lengths) ↔
      (host.granted (List.replicate (UInt32.ofNat length).toNat 0)).Provides lengths := by
  rw [Provides, allocate_of_grants grants]
  exact and_iff_right (nextRegion_ne_null grants nonempty _)

/-- What is provided is provided from the front on. -/
theorem provides_of_append (provided : host.Provides (lengths ++ rest)) :
    host.Provides lengths := by
  induction lengths generalizing host with
  | nil => trivial
  | cons length lengths ih =>
    rw [List.cons_append, Provides] at provided
    rw [Provides]
    cases answered : allocate (UInt32.ofNat length) host with
    | ok pointer after =>
      rw [answered] at provided
      exact ⟨provided.1, ih provided.2⟩
    | error fault after =>
      rw [answered] at provided
      exact provided

/-- What a host provides depends on its policy and on how long its arena is. -/
theorem provides_congr {other : Host} (policy : host.policy = other.policy)
    (size : host.arena.length = other.arena.length) :
    host.Provides lengths ↔ other.Provides lengths := by
  induction lengths generalizing host other with
  | nil => exact Iff.rfl
  | cons length lengths ih =>
    have same : host.Grants ↔ other.Grants := by rw [Grants, Grants, policy, size]
    by_cases grants : host.Grants
    · by_cases nonempty : host.SparesNull
      · rw [provides_cons_of_grants grants nonempty,
          provides_cons_of_grants (same.mp grants) (nonempty.mono (Nat.le_of_eq size))]
        exact ih (congrArg (·.draw.2) policy) (by simp [size])
      · have empty : host.arena = [] := not_sparesNull_iff.mp nonempty
        have otherEmpty : other.arena = [] :=
          not_sparesNull_iff.mp fun spares => nonempty (spares.mono (Nat.le_of_eq size.symm))
        exact iff_of_false (not_provides_of_empty empty) (not_provides_of_empty otherEmpty)
    · exact iff_of_false (not_provides_of_not_grants grants)
        (not_provides_of_not_grants (mt same.mpr grants))

/-- **The first of several allocations is granted, and then the rest are**,
whatever was written into the first. -/
theorem provides_cons_iff (short : bytes.length < UInt32.size) :
    host.Provides (bytes.length :: lengths) ↔
      host.SparesNull ∧ host.Grants ∧ (host.granted bytes).Provides lengths := by
  have size : (UInt32.ofNat bytes.length).toNat = bytes.length :=
    UInt32.toNat_ofNat_of_lt' short
  by_cases nonempty : host.SparesNull
  · by_cases grants : host.Grants
    · have written : (host.granted (List.replicate (UInt32.ofNat bytes.length).toNat 0)).Provides
          lengths ↔ (host.granted bytes).Provides lengths :=
        provides_congr rfl (by simp [size])
      rw [provides_cons_of_grants grants nonempty, written]
      exact ⟨fun provided => ⟨nonempty, grants, provided⟩, fun all => all.2.2⟩
    · exact iff_of_false (not_provides_of_not_grants grants) fun all => grants all.2.1
  · have empty : host.arena = [] := not_sparesNull_iff.mp nonempty
    exact iff_of_false (not_provides_of_empty empty) fun all => nonempty all.1

/-- A host that refuses nothing and counts nothing provides whatever fits below
the end of the address space. -/
theorem provides_of_unlimited (unlimited : host.policy = .unlimited)
    (nonempty : host.SparesNull)
    (fits : host.arena.length + lengths.foldr (· + ·) 0 < UInt32.size) :
    host.Provides lengths := by
  induction lengths generalizing host with
  | nil => trivial
  | cons length lengths ih =>
    rw [List.foldr_cons] at fits
    have size : (UInt32.ofNat length).toNat = length :=
      UInt32.toNat_ofNat_of_lt' (by omega)
    have grants : host.Grants := by
      refine ⟨?_, by omega⟩
      rw [unlimited]
      rfl
    rw [provides_cons_of_grants grants nonempty, size]
    refine ih ?_ (nonempty.granted _) ?_
    · show host.policy.draw.2 = _
      rw [unlimited]
      rfl
    · simp only [arena_granted, List.length_append, List.length_replicate]
      omega

/-! ## Nothing but allocations -/

/-- What lies between the two hosts is nothing but allocations: apart from the
arena, which grew at its end, and the budget, the host is as it was. -/
structure OnlyAllocated (before after : Host) : Prop where
  /-- The arena grew at its end. -/
  arena : before.arena <+: after.arena
  /-- All allocations are refused, or not, as before. -/
  refuses : after.policy.refuses = before.policy.refuses
  /-- The answers that were configured are as they were. -/
  setup : after.setup = before.setup
  /-- Nothing was told. -/
  records : after.records = before.records

@[refl] theorem OnlyAllocated.refl (host : Host) : OnlyAllocated host host :=
  ⟨List.prefix_refl _, rfl, rfl, rfl⟩

theorem OnlyAllocated.trans (first : OnlyAllocated before middle)
    (second : OnlyAllocated middle after) : OnlyAllocated before after :=
  ⟨first.arena.trans second.arena, second.refuses.trans first.refuses,
    second.setup.trans first.setup, second.records.trans first.records⟩

theorem refuses_draw (policy : AllocationPolicy) : policy.draw.2.refuses = policy.refuses := by
  unfold AllocationPolicy.draw
  split
  · rfl
  · split <;> rfl

theorem onlyAllocated_granted (host : Host) (bytes : Bytes) :
    host.OnlyAllocated (host.granted bytes) :=
  ⟨List.prefix_append _ _, refuses_draw _, rfl, rfl⟩

theorem onlyAllocated_refused (host : Host) (size : UInt32) :
    host.OnlyAllocated (host.refused size) :=
  ⟨List.prefix_refl _, refuses_draw _, rfl, rfl⟩

/-- Regions of these lengths were asked for, whether or not they were granted:
what the host provides now is what it provided behind them. -/
structure Allocated (before : Host) (lengths : List Nat) (after : Host) : Prop
    extends OnlyAllocated before after where
  /-- What the host provides now. -/
  provides : ∀ length rest,
    after.Provides (length :: rest) ↔ before.Provides (lengths ++ length :: rest)

theorem Allocated.refl (host : Host) : Allocated host [] host :=
  ⟨.refl host, fun _ _ => Iff.rfl⟩

theorem Allocated.granted (allocated : Allocated before lengths host) (grants : host.Grants)
    (nonempty : host.SparesNull) (short : bytes.length < UInt32.size) :
    Allocated before (lengths ++ [bytes.length]) (host.granted bytes) where
  toOnlyAllocated := allocated.toOnlyAllocated.trans (onlyAllocated_granted host bytes)
  provides length rest := by
    rw [List.append_assoc, List.singleton_append, ← allocated.provides, provides_cons_iff short]
    exact ⟨fun provided => ⟨nonempty, grants, provided⟩, fun all => all.2.2⟩

/-- A refusal is final, so behind it nothing is provided any more. -/
theorem Allocated.refused (allocated : Allocated before lengths host) (refuses : ¬ host.Grants)
    (asked : Nat) (size : UInt32) :
    Allocated before (lengths ++ [asked]) (host.refused size) where
  toOnlyAllocated := allocated.toOnlyAllocated.trans (onlyAllocated_refused host size)
  provides length rest := by
    rw [List.append_assoc, List.singleton_append, ← allocated.provides]
    exact iff_of_false (not_provides_of_not_grants (not_grants_refused refuses size))
      (not_provides_of_not_grants refuses)

/-- A host that still grants has granted everything before. -/
theorem Allocated.provided (allocated : Allocated before lengths after) (grants : after.Grants)
    (somewhere : after.SparesNull) : before.Provides lengths := by
  have next : after.Provides [([] : Bytes).length] :=
    (provides_cons_iff (by decide)).mpr ⟨somewhere, grants, trivial⟩
  exact provides_of_append ((allocated.provides _ _).mp next)

end Host

namespace Guest

variable {world : World} {bytes : Bytes} {length : UInt32} {rest : List Nat}

/-! ## With the regions, and without -/

/-- A region that the host provides is reserved, and the rest is still provided. -/
theorem reserve_of_provides (provided : world.host.Provides (length.toNat :: rest)) :
    world.host.SparesNull ∧ world.host.Grants ∧
      reserve length world = .ok (.ok (world.host.nextRegion length))
        (world.granted (List.replicate length.toNat 0)) ∧
      (world.granted (List.replicate length.toNat 0)).host.Provides rest := by
  have size : (List.replicate length.toNat (0 : UInt8)).length = length.toNat :=
    List.length_replicate
  have short : (List.replicate length.toNat (0 : UInt8)).length < UInt32.size := by
    rw [size]
    exact length.toNat_lt
  rw [← size, Host.provides_cons_iff short] at provided
  obtain ⟨nonempty, grants, provided⟩ := provided
  exact ⟨nonempty, grants, reserve_of_grants grants nonempty length, provided⟩

theorem reserve_of_not_provides (missing : ¬ world.host.Provides [length.toNat]) :
    ∃ after, reserve length world = .ok (.error .outOfMemory) after ∧
      world.host.OnlyAllocated after.host := by
  by_cases grants : world.host.Grants
  · have size : UInt32.ofNat length.toNat = length := UInt32.ofNat_toNat
    have null : (world.host.nextRegion length).pointer = nullPointer := by
      rw [Host.Provides, size, Host.allocate_of_grants grants] at missing
      exact Classical.not_not.mp fun notNull => missing ⟨notNull, trivial⟩
    have answered := call_of_ok (Host.allocate_of_grants grants length)
    rw [null] at answered
    rw [reserve, allocate, bind_assoc, bind_of_ok answered]
    exact ⟨_, rfl, Host.onlyAllocated_granted world.host _⟩
  · exact ⟨_, reserve_of_not_grants grants length, Host.onlyAllocated_refused world.host _⟩

/-- What the host has room for is written, and the rest is still provided. -/
theorem writeBytes_of_provides (short : bytes.length < UInt32.size)
    (provided : world.host.Provides (bytes.length :: rest)) :
    world.host.SparesNull ∧ world.host.Grants ∧
      writeBytes bytes world
        = .ok (.ok (world.host.nextRegion (UInt32.ofNat bytes.length))) (world.granted bytes) ∧
      (world.granted bytes).host.Provides rest := by
  obtain ⟨nonempty, grants, provided⟩ := (Host.provides_cons_iff short).mp provided
  exact ⟨nonempty, grants, writeBytes_of_grants grants nonempty short, provided⟩

theorem writeBytes_of_not_provides (short : bytes.length < UInt32.size)
    (missing : ¬ world.host.Provides [bytes.length]) :
    ∃ after, writeBytes bytes world = .ok (.error .outOfMemory) after ∧
      world.host.OnlyAllocated after.host := by
  have size : (UInt32.ofNat bytes.length).toNat = bytes.length :=
    UInt32.toNat_ofNat_of_lt' short
  rw [← size] at missing
  obtain ⟨after, refused, only⟩ := reserve_of_not_provides missing
  rw [writeBytes, narrow, if_pos short]
  simp only
  rw [bind_of_ok refused]
  exact ⟨after, rfl, only⟩

/-- An argument that is too long or finds no room. -/
theorem writeBytes_of_no_room
    (noRoom : ¬ (bytes.length < UInt32.size ∧ world.host.Provides [bytes.length])) :
    ∃ error after, writeBytes bytes world = .ok (.error error) after ∧
      world.host.OnlyAllocated after.host := by
  by_cases short : bytes.length < UInt32.size
  · have missing := fun room => noRoom ⟨short, room⟩
    obtain ⟨after, refused, only⟩ := writeBytes_of_not_provides short missing
    exact ⟨_, after, refused, only⟩
  · exact ⟨_, world, writeBytes_of_long short, .refl _⟩

/-- The bytes that a written region holds. -/
theorem nextRegion_holds_written (nonempty : world.host.SparesNull)
    (grants : world.host.Grants) (short : bytes.length < UInt32.size) :
    (world.host.nextRegion (UInt32.ofNat bytes.length)).Holds
      (world.granted bytes).host.arena bytes :=
  Host.nextRegion_holds grants nonempty (UInt32.toNat_ofNat_of_lt' short).symm

/-- **What follows an argument** is shown for both of its outcomes: the argument was too
long or found no room, or it stands in the arena. -/
theorem bind_writeBytes_cases {α : Type} {next : Except BoundaryError Buffer → Guest α}
    {outcome : α → World → Prop}
    (missing : ¬ (bytes.length < UInt32.size ∧ world.host.Provides [bytes.length]) →
      ∀ error after, world.host.OnlyAllocated after.host →
        ∃ a last, next (.error error) after = .ok a last ∧ outcome a last)
    (found : bytes.length < UInt32.size → world.host.SparesNull → world.host.Grants →
      ∀ buffer : Buffer, buffer.Holds (world.granted bytes).host.arena bytes →
        ∃ a last, next (.ok buffer) (world.granted bytes) = .ok a last ∧ outcome a last) :
    ∃ a last, (writeBytes bytes >>= next) world = .ok a last ∧ outcome a last := by
  by_cases room : bytes.length < UInt32.size ∧ world.host.Provides [bytes.length]
  · obtain ⟨somewhere, grants, written, -⟩ := writeBytes_of_provides room.1 room.2
    rw [bind_of_ok written]
    exact found room.1 somewhere grants _ (nextRegion_holds_written somewhere grants room.1)
  · obtain ⟨error, after, refused, only⟩ := writeBytes_of_no_room room
    rw [bind_of_ok refused]
    exact missing room error after only

end Guest

/-- An identity is short enough to be written. -/
theorem FixedBytes.short {width : Nat} (id : FixedBytes width) (small : width < UInt32.size) :
    id.toBytes.length < UInt32.size := id.length_toBytes.symm ▸ small

/-! ## Optional arguments -/

/-- The regions that an optional argument asks for. -/
def argumentLengths : Option Bytes → List Nat
  | none | some [] => []
  | some bytes => [bytes.length]

/-- What becomes of an optional argument: it is recorded as it is or as absent,
and the latter just when it was missing or empty or found no room. -/
structure Recorded {β : Type} (absent : β) (argument : Option β) (room : Prop) (field : β) :
    Prop where
  /-- The argument itself, or nothing. -/
  value : argument = some field ∨ field = absent
  /-- When it is nothing. -/
  absent_iff : field = absent ↔ argument = none ∨ argument = some absent ∨ ¬ room

/-- How an optional argument is sent: as the empty buffer when there is none, or
in the region that it found. -/
inductive SentAs (host : Host) (lengths : List Nat) (arena : Bytes) :
    Option Bytes → Buffer → Prop
  | absent {argument : Option Bytes}
      (missing : argument = none ∨ argument = some [] ∨
        ¬ host.Provides (lengths ++ argumentLengths argument)) :
      SentAs host lengths arena argument .empty
  | present {bytes : Bytes} {buffer : Buffer} (nonempty : bytes ≠ [])
      (room : host.Provides (lengths ++ argumentLengths (some bytes)))
      (holds : buffer.Holds arena bytes) : SentAs host lengths arena (some bytes) buffer

section Sent

open Guest

variable {host before : Host} {lengths : List Nat} {arena later : Bytes} {argument : Option Bytes}
  {buffer : Buffer} {world : World}

theorem argumentLengths_of_nonempty {bytes : Bytes} (nonempty : bytes ≠ []) :
    argumentLengths (some bytes) = [bytes.length] := by
  cases bytes with
  | nil => exact absurd rfl nonempty
  | cons b bytes => rfl

theorem SentAs.mono (sent : SentAs host lengths arena argument buffer)
    (kept : arena <+: later) : SentAs host lengths later argument buffer := by
  cases sent with
  | absent missing => exact .absent missing
  | present nonempty room holds => exact .present nonempty room (holds.mono kept)

/-- **An optional argument is sent, and the call goes on whether or not it found
room.** -/
theorem optionalBytes_sentAs (allocated : before.Allocated lengths world.host)
    (somewhere : world.host.SparesNull)
    (short : ∀ bytes ∈ argument, bytes.length < UInt32.size) :
    ∃ buffer after, optionalBytes argument world = .ok buffer after ∧
      before.Allocated (lengths ++ argumentLengths argument) after.host ∧
      world.host.arena <+: after.host.arena ∧
      SentAs before lengths after.host.arena argument buffer := by
  cases argument with
  | none =>
    refine ⟨_, world, rfl, ?_, List.prefix_refl _, .absent (.inl rfl)⟩
    rw [argumentLengths, List.append_nil]
    exact allocated
  | some bytes =>
    by_cases empty : bytes = []
    · subst empty
      refine ⟨_, world, rfl, ?_, List.prefix_refl _, .absent (.inr (.inl rfl))⟩
      rw [argumentLengths, List.append_nil]
      exact allocated
    · have short := short bytes rfl
      have present : ¬ bytes.isEmpty = true := mt List.isEmpty_iff.mp empty
      have room : before.Provides (lengths ++ argumentLengths (some bytes)) ↔
          world.host.Grants := by
        rw [argumentLengths_of_nonempty empty, ← allocated.provides, Host.provides_cons_iff short]
        exact ⟨fun provided => provided.2.1, fun grants => ⟨somewhere, grants, trivial⟩⟩
      by_cases grants : world.host.Grants
      · refine ⟨world.host.nextRegion (UInt32.ofNat bytes.length), world.granted bytes, ?_, ?_,
          List.prefix_append _ _, .present empty (room.mpr grants)
            (nextRegion_holds_written somewhere grants short)⟩
        · rw [optionalBytes, if_neg present, bind_of_ok (writeBytes_of_grants grants somewhere short)]
          rfl
        · rw [argumentLengths_of_nonempty empty]
          exact allocated.granted grants somewhere short
      · -- the argument is missing now, and so is every one behind it
        refine ⟨.empty, world.refused (UInt32.ofNat bytes.length), ?_, ?_, List.prefix_refl _,
          .absent (.inr (.inr (mt room.mp grants)))⟩
        · rw [optionalBytes, if_neg present, bind_of_ok (writeBytes_of_not_grants grants short)]
          rfl
        · rw [argumentLengths_of_nonempty empty]
          exact allocated.refused grants _ _

/-- The bytes that the host reads of an optional argument. -/
theorem SentAs.readArgument (sent : SentAs before lengths host.arena argument buffer) :
    ∃ field, Host.readArgument buffer.pointer buffer.length host = .ok field host ∧
      Recorded [] argument (before.Provides (lengths ++ argumentLengths argument)) field := by
  cases sent with
  | absent missing => exact ⟨[], rfl, .inr rfl, iff_of_true rfl missing⟩
  | present nonempty room holds =>
    refine ⟨_, Host.readArgument_holds holds, .inl rfl, iff_of_false nonempty ?_⟩
    rintro (none | empty | refused)
    · cases none
    · exact nonempty (Option.some.inj empty)
    · exact refused room

/-- An argument that found room is recorded as it is. -/
theorem Recorded.eq_getD {β : Type} {absent field : β} {argument : Option β} {room : Prop}
    (recorded : Recorded absent argument room field) (found : room) :
    field = argument.getD absent := by
  rcases recorded.value with whole | nothing
  · rw [whole, Option.getD_some]
  · rcases recorded.absent_iff.mp nothing with none | empty | refused
    · rw [nothing, none, Option.getD_none]
    · rw [nothing, empty, Option.getD_some]
    · exact absurd found refused

end Sent

end HostBoundary
