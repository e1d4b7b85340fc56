import Mathlib.Algebra.Group.Nat.Defs
import HostBoundary.Guest.Reply
import HostBoundary.Proofs.Arena

/-!
# What the memory operations do

Every operation of the contract side comes down to allocations, each with what
is written into it, and calls of the host in between.  The equations here say
what each of the former does to a whole world, one equation for each way the
allocation can go.

The two worlds that an allocation leads to are `World.granted` and
`World.refused`.  All equations ask that the arena is not empty: a region at the
null pointer would be taken for a refusal.  No arena that began with the
reserved bytes of a fresh host is ever empty.
-/

namespace HostBoundary

/-! ## Running -/

section Run

variable {ε σ α β : Type}

/-- A computation after one that answered. -/
theorem bind_of_ok {act : EStateM ε σ α} {next : α → EStateM ε σ β} {state after : σ} {a : α}
    (answers : act state = .ok a after) : (act >>= next) state = next a after := by
  show (match act state with
    | .ok a after => next a after
    | .error e after => .error e after) = next a after
  rw [answers]

/-- A computation after one that failed. -/
theorem bind_of_error {act : EStateM ε σ α} {next : α → EStateM ε σ β} {state after : σ} {e : ε}
    (fails : act state = .error e after) : (act >>= next) state = .error e after := by
  show (match act state with
    | .ok a after => next a after
    | .error e after => .error e after) = .error e after
  rw [fails]

theorem map_of_ok {act : EStateM ε σ α} (f : α → β) {state after : σ} {a : α}
    (answers : act state = .ok a after) : (f <$> act) state = .ok (f a) after := by
  show (match act state with
    | .ok a after => EStateM.Result.ok (f a) after
    | .error e after => .error e after) = .ok (f a) after
  rw [answers]

/-- A sequence answers when both of its parts do. -/
theorem bind_eq_ok_iff {act : EStateM ε σ α} {next : α → EStateM ε σ β} {state after : σ}
    {b : β} : (act >>= next) state = .ok b after ↔
      ∃ a middle, act state = .ok a middle ∧ next a middle = .ok b after := by
  constructor
  · intro answers
    cases first : act state with
    | ok a middle =>
      rw [bind_of_ok first] at answers
      exact ⟨a, middle, rfl, answers⟩
    | error e middle =>
      rw [bind_of_error first] at answers
      cases answers
  · rintro ⟨a, middle, first, second⟩
    rw [bind_of_ok first, second]

theorem map_eq_ok_iff {act : EStateM ε σ α} {f : α → β} {state after : σ} {b : β} :
    (f <$> act) state = .ok b after ↔ ∃ a, act state = .ok a after ∧ f a = b := by
  rw [map_eq_pure_bind, bind_eq_ok_iff]
  constructor
  · rintro ⟨a, middle, first, ⟨⟩⟩
    exact ⟨a, first, rfl⟩
  · rintro ⟨a, first, rfl⟩
    exact ⟨a, after, first, rfl⟩

end Run

/-! ## Worlds after an allocation -/

namespace World

/-- The world after a granted region that `bytes` were then written into. -/
def granted (world : World) (bytes : Bytes) : World :=
  { world with host := world.host.granted bytes }

/-- The world after a refused region. -/
def refused (world : World) (size : UInt32) : World :=
  ⟨world.host.refused size, world.trace ++ [.allocationRefused size]⟩

end World

namespace Guest

variable {world : World} {bytes : Bytes} {length : UInt32}

/-- A call that the host answers. -/
theorem call_of_ok {α : Type} {act : HostCall α} {a : α} {host : Host}
    (answers : act world.host = .ok a host) :
    call act world = .ok a { world with host } := by
  simp [call, answers]

/-! ## Allocating -/

theorem allocate_of_grants (grants : world.host.Grants)
    (nonempty : world.host.SparesNull) (length : UInt32) :
    allocate length world
      = .ok (world.host.nextRegion length).pointer
          (world.granted (List.replicate length.toNat 0)) := by
  have granted := call_of_ok (Host.allocate_of_grants grants length)
  have notNull := Host.nextRegion_ne_null grants nonempty length
  rw [allocate, bind_of_ok granted, if_neg notNull]
  rfl

theorem allocate_of_not_grants (refuses : ¬ world.host.Grants) (length : UInt32) :
    allocate length world = .ok nullPointer (world.refused length) := by
  have refused := call_of_ok (Host.allocate_of_not_grants refuses length)
  rw [allocate, bind_of_ok refused, if_pos rfl]
  rfl

theorem reserve_of_grants (grants : world.host.Grants)
    (nonempty : world.host.SparesNull) (length : UInt32) :
    reserve length world
      = .ok (.ok (world.host.nextRegion length))
          (world.granted (List.replicate length.toNat 0)) := by
  rw [reserve, bind_of_ok (allocate_of_grants grants nonempty length),
    if_neg (Host.nextRegion_ne_null grants nonempty length)]
  rfl

theorem reserve_of_not_grants (refuses : ¬ world.host.Grants) (length : UInt32) :
    reserve length world = .ok (.error .outOfMemory) (world.refused length) := by
  rw [reserve, bind_of_ok (allocate_of_not_grants refuses length), if_pos rfl]
  rfl

/-! ## Writing -/

/-- Writing into the region at the end of the arena replaces its zeros. -/
theorem write_granted (grants : world.host.Grants) (short : bytes.length < UInt32.size) :
    call (Host.write (world.host.nextRegion (UInt32.ofNat bytes.length)).pointer bytes)
        (world.granted (List.replicate (UInt32.ofNat bytes.length).toNat 0))
      = .ok () (world.granted bytes) := by
  have size : (UInt32.ofNat bytes.length).toNat = bytes.length :=
    UInt32.toNat_ofNat_of_lt' short
  have place := Host.toNat_nextRegion grants (UInt32.ofNat bytes.length)
  have room : (world.host.nextRegion (UInt32.ofNat bytes.length)).pointer.toNat + bytes.length
      ≤ (world.host.granted (List.replicate bytes.length 0)).arena.length := by
    simp [place]
  apply call_of_ok
  rw [size, World.granted, Host.write, if_pos room, place, Host.arena_granted,
    Host.overwrite_append]
  simp [Host.withArena, Host.granted]

theorem writeBytes_of_grants (grants : world.host.Grants)
    (nonempty : world.host.SparesNull) (short : bytes.length < UInt32.size) :
    writeBytes bytes world
      = .ok (.ok (world.host.nextRegion (UInt32.ofNat bytes.length))) (world.granted bytes) := by
  rw [writeBytes, narrow, if_pos short]
  simp only
  rw [bind_of_ok (reserve_of_grants grants nonempty _)]
  cases bytes with
  | nil => rfl
  | cons b rest =>
    simp only [List.isEmpty_cons, Bool.not_false, if_true]
    rw [bind_of_ok (write_granted grants short)]
    rfl

theorem writeBytes_of_not_grants (refuses : ¬ world.host.Grants)
    (short : bytes.length < UInt32.size) :
    writeBytes bytes world
      = .ok (.error .outOfMemory) (world.refused (UInt32.ofNat bytes.length)) := by
  rw [writeBytes, narrow, if_pos short]
  simp only
  rw [bind_of_ok (reserve_of_not_grants refuses _)]
  rfl

theorem writeBytes_of_long (long : ¬ bytes.length < UInt32.size) :
    writeBytes bytes world = .ok (.error .tooWide) world := by
  rw [writeBytes, narrow, if_neg long]
  rfl

/-! ## What an answered allocation is worth -/

section Answered

variable {after : World} {buffer : Buffer} {pointer : UInt32}
variable (nonempty : world.host.SparesNull)

include nonempty

/-- A region that was granted holds zeros. -/
theorem holds_of_allocate (answers : allocate length world = .ok pointer after)
    (notNull : pointer ≠ nullPointer) :
    Buffer.Holds ⟨pointer, length⟩ after.host.arena (List.replicate length.toNat 0) := by
  by_cases grants : world.host.Grants
  · rw [allocate_of_grants grants nonempty] at answers
    cases answers
    exact Host.nextRegion_holds grants nonempty List.length_replicate
  · rw [allocate_of_not_grants grants] at answers
    cases answers
    exact absurd rfl notNull

theorem holds_of_reserve (answers : reserve length world = .ok (.ok buffer) after) :
    buffer.Holds after.host.arena (List.replicate length.toNat 0) := by
  by_cases grants : world.host.Grants
  · rw [reserve_of_grants grants nonempty] at answers
    cases answers
    exact Host.nextRegion_holds grants nonempty List.length_replicate
  · rw [reserve_of_not_grants grants] at answers
    cases answers

/-- A region that was written holds what was written. -/
theorem holds_of_writeBytes (answers : writeBytes bytes world = .ok (.ok buffer) after) :
    buffer.Holds after.host.arena bytes := by
  by_cases short : bytes.length < UInt32.size
  · by_cases grants : world.host.Grants
    · rw [writeBytes_of_grants grants nonempty short] at answers
      cases answers
      exact Host.nextRegion_holds grants nonempty (UInt32.toNat_ofNat_of_lt' short).symm
    · rw [writeBytes_of_not_grants grants short] at answers
      cases answers
  · rw [writeBytes_of_long short] at answers
    cases answers

/-- A pointer that is not null begins a copy of the bytes. -/
theorem holds_of_allocateBytes (answers : allocateBytes bytes world = .ok pointer after)
    (notNull : pointer ≠ nullPointer) :
    Buffer.Holds ⟨pointer, UInt32.ofNat bytes.length⟩ after.host.arena bytes := by
  obtain ⟨outcome, middle, written, ⟨⟩⟩ := bind_eq_ok_iff.mp answers
  cases outcome with
  | error error => exact absurd rfl notNull
  | ok buffer =>
    have holds := holds_of_writeBytes nonempty written
    have size : buffer.length = UInt32.ofNat bytes.length := by
      rw [holds.length_eq, UInt32.ofNat_toNat]
    rw [← size]
    exact holds

end Answered

/-! ## Reading -/

/-- The bytes of a region that holds them, the empty ones included. -/
theorem readBytes_holds {buffer : Buffer} (holds : buffer.Holds world.host.arena bytes) :
    readBytes buffer.pointer buffer.length world = .ok bytes world := by
  by_cases empty : buffer.length = 0
  · have none : bytes = [] := by
      rw [← List.length_eq_zero_iff, holds.length_eq, empty]
      rfl
    simp [readBytes, empty, none, pure, EStateM.pure]
  · have present :
        (decide (buffer.pointer = nullPointer) || decide (buffer.length = 0)) = false := by
      simp [holds.notNull, empty]
    simp only [readBytes, present, Bool.false_eq_true, if_false]
    exact call_of_ok (Host.read_holds holds)

theorem readBuffer_holds {buffer : Buffer} (holds : buffer.Holds world.host.arena bytes) :
    readBuffer buffer world = .ok bytes world :=
  readBytes_holds holds

/-- The text of a region that holds its bytes. -/
theorem readText_holds {buffer : Buffer} {text : String}
    (holds : buffer.Holds world.host.arena (Utf8.encode text)) :
    readText buffer.pointer buffer.length world = .ok text world := by
  have strict : readText? buffer.pointer buffer.length world = .ok (.ok text) world := by
    rw [readText?, bind_of_ok (readBytes_holds holds)]
    simp [decodeUtf8, pure, EStateM.pure]
  rw [readText, bind_of_ok strict]
  rfl

/-- Reading undoes writing, up to the width. -/
theorem fromLittleEndian_littleEndian (width n : Nat) :
    Bytes.fromLittleEndian (Bytes.littleEndian width n) = n % 256 ^ width := by
  induction width generalizing n with
  | zero => simp [Bytes.littleEndian, Bytes.fromLittleEndian, Nat.mod_one]
  | succ width ih =>
    rw [Bytes.littleEndian, Bytes.fromLittleEndian, ih, Nat.pow_succ', Nat.mod_mul]
    rfl

/-- The number whose eight bytes a region holds. -/
theorem readNumber_holds {buffer : Buffer} {n : UInt64}
    (holds : buffer.Holds world.host.arena (Bytes.ofUInt64 n)) :
    readNumber buffer.pointer world = .ok n world := by
  have size : buffer.length = 8 := by
    rw [← UInt32.toNat_inj, ← holds.length_eq, Bytes.length_ofUInt64]
    rfl
  have bytes := readBytes_holds holds
  have number : UInt64.ofNat (Bytes.fromLittleEndian (Bytes.ofUInt64 n)) = n := by
    have bound : n.toNat < 256 ^ 8 := n.toNat_lt
    rw [Bytes.ofUInt64, fromLittleEndian_littleEndian, Nat.mod_eq_of_lt bound,
      UInt64.ofNat_toNat]
  have decoded : readUInt64 (Bytes.ofUInt64 n) = .ok n := by
    have all : (Bytes.ofUInt64 n).take 8 = Bytes.ofUInt64 n :=
      List.take_of_length_le (by simp)
    rw [readUInt64, if_pos (by simp), all, number]
  rw [size] at bytes
  rw [readNumber, bind_of_ok bytes, decoded]
  rfl

end Guest

end HostBoundary
