import HostBoundary.Proofs.Allocations
import HostBoundary.Proofs.Runs

/-!
# Allocations in a row

What a contract may rely on once an allocation has failed is that no later one
succeeds: a call that wrote its first argument and not its second is never followed
by one that finds room for both.  This module follows a host through any number of
allocations, of any sizes, and says what they answer and what they leave.

## What a budget counts

A unit of the budget is used up before the arena is looked at.  So a budget counts
the allocations that were *asked for* while there was some of it left, not the ones
that succeeded.  The two are the same as long as the end of the arena is a pointer.
On a longer arena every allocation fails, and still uses up a unit until none is
left (`AllocationPolicy.spend`).

## Main results

* `Host.allocateAll_of_not_grants` — behind a failed allocation.
* `Host.allocateAll_of_budget` — under a budget, on an arena that has room.
* `Host.allocations_exact` — both, from what the allocations answer.
* `Reachable.allocates` — the same wherever a run leads.
-/

namespace HostBoundary

/-! ## The policy -/

namespace AllocationPolicy

variable {policy : AllocationPolicy}

/-- The policy when `count` more allocations were asked for. -/
def spend (policy : AllocationPolicy) (count : Nat) : AllocationPolicy :=
  { policy with
    budget := if policy.refuses then policy.budget else policy.budget.map (· - count) }

@[simp] theorem spend_zero (policy : AllocationPolicy) : policy.spend 0 = policy := by
  cases policy with
  | mk refuses budget => cases refuses <;> cases budget <;> rfl

theorem spend_spend (policy : AllocationPolicy) (first second : Nat) :
    (policy.spend first).spend second = policy.spend (first + second) := by
  cases policy with
  | mk refuses budget => cases refuses <;> cases budget <;> simp [spend, Nat.sub_sub]

/-- **An allocation uses up a unit**, whether or not it is granted. -/
theorem draw_snd (policy : AllocationPolicy) : policy.draw.2 = policy.spend 1 := by
  cases policy with
  | mk refuses budget =>
    cases refuses with
    | true => rfl
    | false =>
      cases budget with
      | none => rfl
      | some count => cases count <;> rfl

/-- A policy that allows nothing has no unit left to use up. -/
theorem spend_of_not_allowed (refuses : policy.draw.1 = false) (count : Nat) :
    policy.spend count = policy := by
  have same : policy.spend 1 = policy := by
    rw [← draw_snd, draw_snd_of_not_fst refuses]
  induction count with
  | zero => exact spend_zero policy
  | succ count ih => rw [← spend_spend, ih, same]

/-- A budget allows an allocation as long as there is some of it left. -/
theorem draw_fst_of_budget (count : Nat) :
    (⟨false, some count⟩ : AllocationPolicy).draw.1 = decide (0 < count) := by
  cases count <;> rfl

end AllocationPolicy

namespace Host

variable {host : Host} {sizes : List UInt32}

/-! ## One after the other -/

/-- Allocations of these sizes, one after the other. -/
def allocateAll (sizes : List UInt32) : HostCall (List UInt32) := sizes.mapM allocate

theorem allocateAll_nil (host : Host) : allocateAll [] host = .ok [] host := rfl

theorem allocateAll_cons_of_ok {size pointer : UInt32} {pointers : List UInt32}
    {middle after : Host} (first : allocate size host = .ok pointer middle)
    (rest : allocateAll sizes middle = .ok pointers after) :
    allocateAll (size :: sizes) host = .ok (pointer :: pointers) after := by
  rw [allocateAll, List.mapM_cons, bind_of_ok first]
  exact bind_of_ok rest

/-- **Behind a failed allocation all fail**, and the arena stays as it is. -/
theorem allocateAll_of_not_grants (refuses : ¬ host.Grants) (sizes : List UInt32) :
    ∃ after, allocateAll sizes host = .ok (.replicate sizes.length nullPointer) after ∧
      after.arena = host.arena ∧ after.policy = host.policy.spend sizes.length := by
  induction sizes generalizing host with
  | nil => exact ⟨host, rfl, rfl, (host.policy.spend_zero).symm⟩
  | cons size sizes ih =>
    obtain ⟨after, answers, arena, policy⟩ := ih (not_grants_refused refuses size)
    refine ⟨after, ?_, arena, ?_⟩
    · rw [List.length_cons, List.replicate_succ]
      exact allocateAll_cons_of_ok (allocate_of_not_grants refuses size) answers
    · have drawn : (host.refused size).policy = host.policy.spend 1 := host.policy.draw_snd
      rw [policy, drawn, AllocationPolicy.spend_spend, List.length_cons, Nat.add_comm]

/-- What the later ones leave of the budget. -/
theorem budget_spend_refused (refuses : ¬ host.Grants) (size : UInt32) (count : Nat) :
    ((host.refused size).policy.spend count).budget =
      if host.policy.refuses ∨ host.arena.length < UInt32.size then
        (host.refused size).policy.budget
      else (host.refused size).policy.budget.map (· - count) := by
  have kept : (host.refused size).policy.refuses = host.policy.refuses := refuses_draw host.policy
  by_cases all : host.policy.refuses
  · rw [if_pos (.inl all), AllocationPolicy.spend, if_pos (kept.trans all)]
  · by_cases room : host.arena.length < UInt32.size
    · -- the end of the arena is a pointer, so it is the policy that does not allow one more
      have notAllowed : host.policy.draw.1 = false := by
        rw [← Bool.not_eq_true]
        exact fun allowed => refuses ⟨allowed, room⟩
      have same : (host.refused size).policy = host.policy :=
        AllocationPolicy.draw_snd_of_not_fst notAllowed
      rw [if_pos (.inr room), same, AllocationPolicy.spend_of_not_allowed notAllowed]
    · have neither : ¬ (host.policy.refuses ∨ host.arena.length < UInt32.size) :=
        not_or.mpr ⟨all, room⟩
      rw [if_neg neither, AllocationPolicy.spend, if_neg (kept ▸ all)]

/-! ## Under a budget -/

/-- How many bytes these allocations ask for together. -/
def total (sizes : List UInt32) : Nat := sizes.foldr (fun size rest => size.toNat + rest) 0

/-- Where regions of these sizes begin that stand one behind the other. -/
def starts : Nat → List UInt32 → List UInt32
  | _, [] => []
  | start, size :: sizes => UInt32.ofNat start :: starts (start + size.toNat) sizes

/-- The arena stays below the end of the address space, whichever of these
allocations were made. -/
def StaysBelow (host : Host) (sizes : List UInt32) : Prop :=
  ∀ first pointers after, first <+: sizes → allocateAll first host = .ok pointers after →
    after.arena.length < UInt32.size

theorem StaysBelow.now (below : host.StaysBelow sizes) : host.arena.length < UInt32.size :=
  below [] [] host (List.nil_prefix) (allocateAll_nil host)

theorem StaysBelow.later {size pointer : UInt32} {middle : Host}
    (below : host.StaysBelow (size :: sizes)) (answers : allocate size host = .ok pointer middle) :
    middle.StaysBelow sizes := by
  intro first pointers after isPrefix later
  exact below (size :: first) _ after ((List.prefix_cons_inj size).mpr isPrefix)
    (allocateAll_cons_of_ok answers later)

/-- An allocation appends no more than was asked for. -/
theorem length_allocate_le {size pointer : UInt32} {after : Host}
    (answers : allocate size host = .ok pointer after) :
    after.arena.length ≤ host.arena.length + size.toNat := by
  by_cases grants : host.Grants
  · rw [allocate_of_grants grants] at answers
    cases answers
    simp
  · rw [allocate_of_not_grants grants] at answers
    cases answers
    exact Nat.le_add_right _ _

/-- Allocations that fit all together stay below the end of the address space. -/
theorem staysBelow_of_total (fits : host.arena.length + total sizes < UInt32.size) :
    host.StaysBelow sizes := by
  induction sizes generalizing host with
  | nil =>
    intro first pointers after isPrefix answers
    rw [List.prefix_nil.mp isPrefix] at answers
    cases answers
    exact fits
  | cons size sizes ih =>
    intro first pointers after isPrefix answers
    cases first with
    | nil =>
      cases answers
      exact Nat.lt_of_le_of_lt (Nat.le_add_right _ _) fits
    | cons asked first =>
      obtain ⟨rfl, restPrefix⟩ := List.cons_prefix_cons.mp isPrefix
      rw [allocateAll, List.mapM_cons] at answers
      obtain ⟨pointer, middle, answered, answers⟩ := bind_eq_ok_iff.mp answers
      obtain ⟨rest, last, later, ⟨⟩⟩ := bind_eq_ok_iff.mp answers
      have grown := length_allocate_le answered
      have split : total (asked :: sizes) = asked.toNat + total sizes := by simp [total]
      exact ih (by omega) first rest after restPrefix later

/-- **A budget of `count` is worth `count` allocations**, as long as the arena has
room for them: each answers the end of the arena and appends zeros to it. -/
theorem allocateAll_of_budget {count : Nat} (somewhere : host.SparesNull)
    (budget : host.policy = ⟨false, some count⟩) (below : host.StaysBelow sizes) :
    ∃ after, allocateAll sizes host
        = .ok (starts host.arena.length (sizes.take count) ++
            .replicate (sizes.length - count) nullPointer) after ∧
      after.arena = host.arena ++ .replicate (total (sizes.take count)) 0 ∧
      after.policy = ⟨false, some (count - sizes.length)⟩ := by
  induction sizes generalizing host count with
  | nil => exact ⟨host, by simp [allocateAll_nil, starts], by simp [total], by simp [budget]⟩
  | cons size sizes ih =>
    cases count with
    | zero =>
      have notAllowed : host.policy.draw.1 = false := by
        rw [budget, AllocationPolicy.draw_fst_of_budget]
        rfl
      have refuses : ¬ host.Grants := fun grants => Bool.false_ne_true (notAllowed ▸ grants.1)
      obtain ⟨after, answers, arena, policy⟩ := allocateAll_of_not_grants refuses (size :: sizes)
      refine ⟨after, by simpa [starts] using answers, by simpa [total] using arena, ?_⟩
      rw [policy, AllocationPolicy.spend_of_not_allowed notAllowed, budget, Nat.zero_sub]
    | succ count =>
      have allowed : host.policy.draw.1 = true := by
        rw [budget, AllocationPolicy.draw_fst_of_budget]
        rfl
      have grants : host.Grants := ⟨allowed, below.now⟩
      have answered := allocate_of_grants grants size
      have left : (host.granted (.replicate size.toNat 0)).policy = ⟨false, some count⟩ := by
        show host.policy.draw.2 = _
        rw [budget]
        rfl
      have longer : (host.granted (.replicate size.toNat 0)).arena.length
          = host.arena.length + size.toNat := by simp
      obtain ⟨after, answers, arena, policy⟩ :=
        ih (somewhere.granted _) left (below.later answered)
      refine ⟨after, ?_, ?_, ?_⟩
      · rw [longer] at answers
        simpa [starts, nextRegion] using allocateAll_cons_of_ok answered answers
      · rw [arena]
        simp [total]
      · rw [policy, List.length_cons, Nat.add_sub_add_right]

/-- The regions that begin below the end of the address space are not null. -/
theorem ne_null_of_mem_starts {start : Nat} (somewhere : 0 < start)
    (below : start + total sizes < UInt32.size) :
    ∀ pointer ∈ starts start sizes, pointer ≠ nullPointer := by
  induction sizes generalizing start with
  | nil => exact List.forall_mem_nil _
  | cons size sizes ih =>
    have split : total (size :: sizes) = size.toNat + total sizes := by simp [total]
    refine List.forall_mem_cons.mpr ⟨?_, ih (by omega) (by omega)⟩
    intro null
    have place : (UInt32.ofNat start).toNat = start := UInt32.toNat_ofNat_of_lt' (by omega)
    rw [null] at place
    exact absurd place (Nat.ne_of_lt somewhere)

/-! ## Every sequence of allocations -/

/-- Behind an allocation that answers the null pointer all answer it and leave the arena
as it is.  They leave the budget as it is too, unless they fail only because the arena is
too long: then each uses up a unit. -/
def FailsForGood (host : Host) : Prop :=
  ∀ size failed, allocate size host = .ok nullPointer failed →
    ∀ sizes, ∃ after,
      allocateAll sizes failed = .ok (.replicate sizes.length nullPointer) after ∧
      failed.arena = host.arena ∧ after.arena = host.arena ∧
      after.policy.budget =
        if host.policy.refuses ∨ host.arena.length < UInt32.size then failed.policy.budget
        else failed.policy.budget.map (· - sizes.length)

/-- With a budget of `count`, on a host that refuses nothing and has room, exactly the first
`count` allocations answer a region: each the end of the arena, to which it appends zeros. -/
def SpendsExactly (host : Host) : Prop :=
  ∀ count sizes, host.policy = ⟨false, some count⟩ → host.StaysBelow sizes →
    ∃ after, allocateAll sizes host
        = .ok (starts host.arena.length (sizes.take count) ++
            .replicate (sizes.length - count) nullPointer) after ∧
      (∀ pointer ∈ starts host.arena.length (sizes.take count), pointer ≠ nullPointer) ∧
      after.arena = host.arena ++ .replicate (total (sizes.take count)) 0 ∧
      after.policy = ⟨false, some (count - sizes.length)⟩

theorem SparesNull.failsForGood (spares : host.SparesNull) : host.FailsForGood := by
  intro size failed answers sizes
  have refuses : ¬ host.Grants := by
    intro grants
    rw [allocate_of_grants grants] at answers
    injection answers with null
    exact nextRegion_ne_null grants spares size null
  rw [allocate_of_not_grants refuses] at answers
  injection answers with _ same
  subst same
  obtain ⟨after, answers, arena, policy⟩ :=
    allocateAll_of_not_grants (not_grants_refused refuses size) sizes
  refine ⟨after, answers, rfl, arena, ?_⟩
  rw [policy]
  exact budget_spend_refused refuses size sizes.length

theorem SparesNull.spendsExactly (spares : host.SparesNull) : host.SpendsExactly := by
  intro count sizes budget below
  obtain ⟨after, answers, arena, policy⟩ := allocateAll_of_budget spares budget below
  refine ⟨after, answers, ?_, arena, policy⟩
  have reached := below sizes _ after (List.prefix_refl _) answers
  rw [arena, List.length_append, List.length_replicate] at reached
  exact ne_null_of_mem_starts spares reached

/-- **Failure is final, and budgets are exact**, on every host whose arena is not empty.
Without any byte in front, the first region would begin at the null pointer, and an
allocation that was granted would read as one that failed.  Every host that a run leads to
has the bytes in front (`Reachable.reserved`), so there both hold without a condition
(`Reachable.allocates`). -/
theorem allocations_exact (host : Host) (spares : host.SparesNull) :
    host.FailsForGood ∧ host.SpendsExactly :=
  ⟨spares.failsForGood, spares.spendsExactly⟩

/-- A host whose memory grew by a region of the largest size, so that the end of its
arena is not a pointer any more, and that has a budget of two. -/
def overlong : Host :=
  { initial with memory := initial.memory.grow 4294967295, policy := ⟨false, some 2⟩ }

/-- On such a host the budget runs out without any success; on a fresh one a budget of
two is worth two regions, one of them empty. -/
theorem allocations_exact_overlong :
    (∃ failed after, allocate 0 overlong = .ok nullPointer failed ∧
      allocateAll [0] failed = .ok [nullPointer] after ∧
      failed.policy.budget = some 1 ∧ after.policy.budget = some 0) ∧
    ∃ after, allocateAll [0, 5, 3] { initial with policy := ⟨false, some 2⟩ }
        = .ok [8, 8, nullPointer] after ∧
      after.policy = ⟨false, some 0⟩ := by
  constructor
  · have size : overlong.arena.length = 4294967303 := overlong.size_memory.symm
    have spares : overlong.SparesNull := by
      rw [SparesNull, size]
      decide
    have tooLong : ¬ overlong.arena.length < UInt32.size := by
      rw [size]
      decide
    have onlyTooLong : ¬ (overlong.policy.refuses = true ∨ overlong.arena.length < UInt32.size) :=
      not_or.mpr ⟨Bool.false_ne_true, tooLong⟩
    have failed := allocate_of_not_grants (fun grants => tooLong grants.2) 0
    obtain ⟨after, answers, -, -, budget⟩ :=
      (allocations_exact overlong spares).1 0 _ failed [0]
    refine ⟨_, after, failed, answers, rfl, ?_⟩
    rw [budget, if_neg onlyTooLong]
    rfl
  · have below : ({ initial with policy := ⟨false, some 2⟩ } : Host).StaysBelow [0, 5, 3] :=
      staysBelow_of_total (by decide)
    obtain ⟨after, answers, -, -, policy⟩ :=
      (allocations_exact { initial with policy := ⟨false, some 2⟩ } (by decide)).2 2 _ rfl below
    exact ⟨after, answers, policy⟩

end Host

/-- **Wherever a run leads**, failure is final and budgets are exact. -/
theorem Reachable.allocates {world : World} (reachable : Reachable world) :
    world.host.FailsForGood ∧ world.host.SpendsExactly :=
  ⟨reachable.sparesNull.failsForGood, reachable.sparesNull.spendsExactly⟩

end HostBoundary
