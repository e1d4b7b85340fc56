import HostBoundary.Host.Arena

/-!
# Regions of the arena

The definitions of the arena say what one access does.  This module says what a
*region* is worth afterwards: which later changes of the arena leave its bytes
alone, and which allocations are granted.

## Main definitions

* `Buffer.Within` — a region that is not null and ends inside the arena.
* `Buffer.Holds` — such a region, together with the bytes that lie there.
* `Host.Grants` — whether the next allocation is granted.
* `Host.granted`, `Host.refused` — the host after an allocation.
* `Host.Reserved` — the invariant of the arena: its front is never allocated.
* `Host.SparesNull` — what the operations need of it.

## Reading through a prefix

The arena only ever grows at its end, so the fact that carries a region from
one state to a later one is `arena <+: later`.  `Buffer.Holds.mono` is that
step, and it is all that a reader has to know about what happened in between.
-/

namespace HostBoundary

variable {arena later bytes front back : Bytes} {start length : Nat}

/-! ## Regions of byte strings -/

namespace Host

theorem length_region (fits : start + length ≤ arena.length) :
    (region arena start length).length = length := by
  simp only [region, List.length_take, List.length_drop]
  omega

/-- The region between two parts is the part between them. -/
theorem region_append (front bytes back : Bytes) :
    region (front ++ bytes ++ back) front.length bytes.length = bytes := by
  simp [region, List.append_assoc]

/-- A region inside a prefix is the same region of the whole. -/
theorem region_of_prefix (kept : arena <+: later) (fits : start + length ≤ arena.length) :
    region later start length = region arena start length := by
  obtain ⟨tail, rfl⟩ := kept
  have inside : start ≤ arena.length := by omega
  simp only [region]
  rw [List.drop_append_of_le_length inside, List.take_append_of_le_length]
  rw [List.length_drop]
  omega

/-- Overwriting the front of what stands behind `front`. -/
theorem overwrite_append (front bytes back : Bytes) :
    overwrite (front ++ back) front.length bytes
      = front ++ bytes ++ back.drop bytes.length := by
  simp [overwrite, List.drop_append]

/-- What stands below a position is not touched by overwriting above it. -/
theorem take_overwrite {low : Nat} (above : low ≤ start) (inside : start ≤ arena.length) :
    (overwrite arena start bytes).take low = arena.take low := by
  have reach : low ≤ (arena.take start ++ bytes).length := by
    simp only [List.length_append, List.length_take]
    omega
  have reachFront : low ≤ (arena.take start).length := by
    rw [List.length_take]
    omega
  simp only [overwrite]
  rw [List.take_append_of_le_length reach, List.take_append_of_le_length reachFront,
    List.take_take, Nat.min_eq_left above]

end Host

/-- Two arenas that agree below the end of the first make the first a prefix. -/
theorem prefix_of_take_eq (kept : later.take arena.length = arena.take arena.length) :
    arena <+: later := by
  rw [List.take_length] at kept
  rw [← kept]
  exact List.take_prefix _ _

/-! ## Buffers in an arena -/

namespace Buffer

/-- The region is not the null pointer's and ends inside an arena of `size` bytes. -/
structure Within (buffer : Buffer) (size : Nat) : Prop where
  /-- It is somewhere. -/
  notNull : buffer.pointer ≠ nullPointer
  /-- It ends inside. -/
  fits : buffer.pointer.toNat + buffer.length.toNat ≤ size

/-- The region lies inside the arena, and the bytes lie there. -/
structure Holds (buffer : Buffer) (arena bytes : Bytes) : Prop
    extends buffer.Within arena.length where
  /-- The bytes of the region. -/
  region_eq : Host.region arena buffer.pointer.toNat buffer.length.toNat = bytes

variable {buffer : Buffer}

theorem Within.mono {size larger : Nat} (within : buffer.Within size) (le : size ≤ larger) :
    buffer.Within larger :=
  ⟨within.notNull, Nat.le_trans within.fits le⟩

theorem toNat_min_le (length whole : UInt32) : (min length whole).toNat ≤ whole.toNat := by
  show (if length ≤ whole then length else whole).toNat ≤ whole.toNat
  split
  · next shorter => exact UInt32.le_iff_toNat_le.mp shorter
  · exact Nat.le_refl _

/-- **What a region holds, it holds in every larger arena.** -/
theorem Holds.mono (holds : buffer.Holds arena bytes) (kept : arena <+: later) :
    buffer.Holds later bytes where
  toWithin := holds.toWithin.mono kept.length_le
  region_eq := by rw [Host.region_of_prefix kept holds.fits, holds.region_eq]

theorem Holds.length_eq (holds : buffer.Holds arena bytes) :
    bytes.length = buffer.length.toNat := by
  rw [← holds.region_eq, Host.length_region holds.fits]

/-- A region that holds an identity is as long as the identities are. -/
theorem Holds.length_of_identity {width : Nat} {id : FixedBytes width}
    (holds : buffer.Holds arena id.toBytes) {capacity : UInt32} (size : capacity.toNat = width) :
    buffer.length = capacity := by
  rw [← UInt32.toNat_inj, ← holds.length_eq, id.length_toBytes, size]

end Buffer

namespace Host

/-! ## Accesses that stay inside -/

variable {host : Host} {buffer : Buffer}

/-- Reading inside the arena answers and changes nothing. -/
theorem read_within (within : buffer.Within host.arena.length) :
    read buffer.pointer buffer.length host
      = .ok (region host.arena buffer.pointer.toNat buffer.length.toNat) host := by
  simp [read, within.fits]

theorem read_holds (holds : buffer.Holds host.arena bytes) :
    read buffer.pointer buffer.length host = .ok bytes host := by
  rw [read_within holds.toWithin, holds.region_eq]

/-- An argument is read as the bytes that its region holds, the empty ones included. -/
theorem readArgument_holds (holds : buffer.Holds host.arena bytes) :
    readArgument buffer.pointer buffer.length host = .ok bytes host := by
  by_cases empty : buffer.length = 0
  · have none : bytes = [] := by
      rw [← List.length_eq_zero_iff, holds.length_eq, empty]
      rfl
    rw [empty, readArgument_zero, none]
    rfl
  · have present : (decide (buffer.pointer = nullPointer) || decide (buffer.length = 0)) = false := by
      simp [holds.notNull, empty]
    simp only [readArgument, present, Bool.false_eq_true, if_false]
    exact read_holds holds

/-! ## Allocations -/

/-- Whether the next allocation is granted: the policy allows one more, and the
end of the arena is a pointer. -/
def Grants (host : Host) : Prop :=
  host.policy.draw.1 = true ∧ host.arena.length < UInt32.size

instance (host : Host) : Decidable host.Grants := inferInstanceAs (Decidable (_ ∧ _))

/-- The region that the next allocation of `size` bytes answers, if it is granted. -/
def nextRegion (host : Host) (size : UInt32) : Buffer := ⟨UInt32.ofNat host.arena.length, size⟩

/-- The host after it granted a region that `bytes` were then written into. -/
def granted (host : Host) (bytes : Bytes) : Host :=
  { host with
    memory := .ofBytes (host.arena ++ bytes)
    policy := host.policy.draw.2
    requests := host.requests ++
      [⟨UInt32.ofNat bytes.length, UInt32.ofNat host.arena.length⟩] }

@[simp] theorem arena_granted (host : Host) (bytes : Bytes) :
    (host.granted bytes).arena = host.arena ++ bytes := rfl

/-- The host after it refused a region. -/
def refused (host : Host) (size : UInt32) : Host :=
  { host with
    policy := host.policy.draw.2
    requests := host.requests ++ [⟨size, nullPointer⟩] }

/-- A granted allocation appends zeros. -/
theorem allocate_of_grants (grants : host.Grants) (size : UInt32) :
    allocate size host
      = .ok (host.nextRegion size).pointer (host.granted (List.replicate size.toNat 0)) := by
  simp [allocate, granted, nextRegion, grants.1, grants.2, grow_memory]

/-- A refused allocation answers the null pointer and leaves the arena alone. -/
theorem allocate_of_not_grants (refuses : ¬ host.Grants) (size : UInt32) :
    allocate size host = .ok nullPointer (host.refused size) := by
  have guard : (host.policy.draw.1 && decide (host.arena.length < UInt32.size)) = false := by
    rw [Bool.eq_false_iff]
    intro both
    rw [Bool.and_eq_true, decide_eq_true_eq] at both
    exact refuses both
  simp [allocate, refused, guard]

theorem toNat_nextRegion (grants : host.Grants) (size : UInt32) :
    (host.nextRegion size).pointer.toNat = host.arena.length :=
  UInt32.toNat_ofNat_of_lt' grants.2

/-- **The invariant of the arena**: the bytes at its front that are never allocated are
there.  A fresh host has it, and no step takes it away. -/
def Reserved (host : Host) : Prop := arenaBase ≤ host.arena.length

/-- What the operations need of the invariant: the arena is not empty, so that no region
begins at the null pointer.  A region that did would be taken for a refusal. -/
def SparesNull (host : Host) : Prop := 0 < host.arena.length

instance (host : Host) : Decidable host.Reserved :=
  inferInstanceAs (Decidable (arenaBase ≤ host.arena.length))

instance (host : Host) : Decidable host.SparesNull :=
  inferInstanceAs (Decidable (0 < host.arena.length))

theorem Reserved.sparesNull (reserved : host.Reserved) : host.SparesNull :=
  Nat.lt_of_lt_of_le (by decide) reserved

theorem SparesNull.mono {later : Host} (spares : host.SparesNull)
    (le : host.arena.length ≤ later.arena.length) : later.SparesNull :=
  Nat.lt_of_lt_of_le spares le

theorem SparesNull.granted (spares : host.SparesNull) (bytes : Bytes) :
    (host.granted bytes).SparesNull := by
  refine spares.mono ?_
  rw [arena_granted, List.length_append]
  exact Nat.le_add_right _ _

/-- A region that is not null lies behind something. -/
theorem sparesNull_of_within (within : buffer.Within host.arena.length) : host.SparesNull := by
  have somewhere : 0 < buffer.pointer.toNat :=
    Nat.pos_of_ne_zero fun zero => within.notNull (UInt32.toNat_inj.mp zero)
  exact Nat.lt_of_lt_of_le somewhere (Nat.le_trans (Nat.le_add_right _ _) within.fits)

theorem not_sparesNull_iff : ¬ host.SparesNull ↔ host.arena = [] :=
  Nat.not_lt.trans (Nat.le_zero.trans List.length_eq_zero_iff)

/-- A host whose arena is not empty never grants the null pointer. -/
theorem nextRegion_ne_null (grants : host.Grants) (nonempty : host.SparesNull)
    (size : UInt32) : (host.nextRegion size).pointer ≠ nullPointer := by
  intro null
  have zero : (host.nextRegion size).pointer.toNat = 0 := by rw [null]; rfl
  rw [toNat_nextRegion grants] at zero
  exact Nat.ne_of_gt nonempty zero

/-- The region of a granted allocation holds what was written into it. -/
theorem nextRegion_holds (grants : host.Grants) (nonempty : host.SparesNull)
    {size : UInt32} (fits : bytes.length = size.toNat) :
    (host.nextRegion size).Holds (host.granted bytes).arena bytes where
  notNull := nextRegion_ne_null grants nonempty size
  fits := by
    rw [toNat_nextRegion grants]
    simp [nextRegion, fits]
  region_eq := by
    rw [toNat_nextRegion grants]
    simpa [nextRegion, ← fits] using region_append host.arena bytes []

/-- **A refusal is final.**  What refuses an allocation is a policy that stays as
it is, or an arena that never shrinks. -/
theorem not_grants_refused (refuses : ¬ host.Grants) (size : UInt32) :
    ¬ (host.refused size).Grants := by
  by_cases allowed : host.policy.draw.1 = true
  · exact fun again => refuses ⟨allowed, again.2⟩
  · have same : (host.refused size).policy = host.policy :=
      AllocationPolicy.draw_snd_of_not_fst (by simpa using allowed)
    intro again
    exact allowed (same ▸ again.1)

end Host

end HostBoundary
