import HostBoundary.Host.Basic

/-!
# The arena

The arena is the linear memory that host and contract share.  It only grows:
an allocation appends zeros and answers the old end, and nothing is ever freed,
so regions from different allocations do not overlap.

## Two ways to fail

An allocation that is not granted answers the null pointer.  That is an
ordinary answer, and callers deal with it.  An access that reaches over the end
of the arena is a *fault*: it ends the call at once, and the host stays as it
was at that point.  `HostCall` is the type of calls with this behaviour.

## Which allocation is not granted

In this order: one while the policy refuses all; one beyond the budget; one
while the arena is too long for its end to be a pointer.  The last has already
used up a unit of the budget.
-/

namespace HostBoundary

/-- An access over the end of the arena. -/
inductive ArenaFault where
  /-- A read of so many bytes at a pointer. -/
  | read (pointer length : UInt32)
  /-- A write of so many bytes at a pointer. -/
  | write (pointer : UInt32) (length : Nat)
deriving DecidableEq, Repr

namespace ArenaFault

/-- The wording of a fault. -/
def message : ArenaFault → String
  | read pointer length =>
    "mock host read " ++ toString pointer.toNat ++ "..+" ++ toString length.toNat
      ++ " outside the arena"
  | write pointer length =>
    "mock host write " ++ toString pointer.toNat ++ "..+" ++ toString length
      ++ " outside the arena"

end ArenaFault

/-- A call of the host: it may change the host, and it may end in a fault. -/
abbrev HostCall := EStateM ArenaFault Host

/-! ## Allocation -/

/-- What a request for an allocation finds in a policy: whether it may be
granted, and the policy that is left. -/
def AllocationPolicy.draw (policy : AllocationPolicy) : Bool × AllocationPolicy :=
  if policy.refuses then (false, policy)
  else
    match policy.budget with
    | none => (true, policy)
    | some 0 => (false, policy)
    | some (n + 1) => (true, { policy with budget := some n })

namespace AllocationPolicy

/-- A policy that does not grant stays as it is. -/
theorem draw_snd_of_not_fst {policy : AllocationPolicy} (h : policy.draw.1 = false) :
    policy.draw.2 = policy := by
  unfold draw at h ⊢
  split
  · rfl
  · next accepts =>
    rw [if_neg accepts] at h
    cases budget : policy.budget with
    | none => simp [budget] at h
    | some n =>
      cases n with
      | zero => rfl
      | succ n => simp [budget] at h

end AllocationPolicy

namespace Host

/-- Allocates `size` bytes and answers where they begin, or the null pointer. -/
def allocate (size : UInt32) : HostCall UInt32 := fun host =>
  let (allowed, policy) := host.policy.draw
  if allowed && host.memory.size < UInt32.size then
    let pointer := UInt32.ofNat host.memory.size
    let memory := host.memory.grow size.toNat
    .ok pointer { host with memory, policy, requests := host.requests ++ [⟨size, pointer⟩] }
  else
    .ok nullPointer { host with policy, requests := host.requests ++ [⟨size, nullPointer⟩] }

/-! ## Access -/

/-- The region of `length` bytes at `start`. -/
def region (arena : Bytes) (start length : Nat) : Bytes := (arena.drop start).take length

/-- The arena with the bytes in place of what was at `start`. -/
def overwrite (arena : Bytes) (start : Nat) (bytes : Bytes) : Bytes :=
  arena.take start ++ bytes ++ arena.drop (start + bytes.length)

/-- Reads `length` bytes at a pointer. -/
def read (pointer length : UInt32) : HostCall Bytes := fun host =>
  if pointer.toNat + length.toNat ≤ host.arena.length then
    .ok (region host.arena pointer.toNat length.toNat) host
  else .error (.read pointer length) host

/-- Writes the bytes at a pointer. -/
def write (pointer : UInt32) (bytes : Bytes) : HostCall Unit := fun host =>
  if pointer.toNat + bytes.length ≤ host.arena.length then
    .ok () (host.withArena (overwrite host.arena pointer.toNat bytes))
  else .error (.write pointer bytes.length) host

theorem length_overwrite {arena : Bytes} {start : Nat} {bytes : Bytes}
    (fits : start + bytes.length ≤ arena.length) :
    (overwrite arena start bytes).length = arena.length := by
  simp [overwrite]
  omega

/-! ## Arguments and replies -/

/-- Reads an argument.  Nothing at the null pointer, and nothing where the
length is zero, is an absent argument. -/
def readArgument (pointer length : UInt32) : HostCall Bytes :=
  if pointer = nullPointer || length = 0 then pure [] else read pointer length

@[simp] theorem readArgument_null (length : UInt32) :
    readArgument nullPointer length = pure [] := by
  simp [readArgument]

@[simp] theorem readArgument_zero (pointer : UInt32) : readArgument pointer 0 = pure [] := by
  simp [readArgument]

/-- Reads an argument as a text, whatever its bytes are. -/
def readText (pointer length : UInt32) : HostCall String := do
  return Utf8.decodeLossy (← readArgument pointer length)

/-- Writes a reply into a buffer of `capacity` bytes and answers its length.
An empty reply and one that does not fit are not written, and answer zero. -/
def fill (pointer capacity : UInt32) (reply : Bytes) : HostCall UInt32 :=
  if reply.isEmpty || reply.length > capacity.toNat then pure 0
  else do
    write pointer reply
    return UInt32.ofNat reply.length

@[simp] theorem fill_nil (pointer capacity : UInt32) : fill pointer capacity [] = pure 0 := by
  simp [fill]

/-! ## Setup and records -/

/-- What the host was configured to answer. -/
def configured {α : Type} (ask : Setup → α) : HostCall α := do return ask (← get).setup

/-- Adds to what the host was told. -/
def record (change : Records → Records) : HostCall Unit :=
  modify fun host => { host with records := change host.records }

end Host

end HostBoundary
