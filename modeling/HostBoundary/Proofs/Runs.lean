import HostBoundary.Proofs.Operations

/-!
# Runs over one arena

A run is any sequence of steps of the public interface: settings from outside,
resets, and operations of the contract side with any arguments.  The arguments
include the builder that is worked on and the invocation that an entry point of
the contract is given, so a run may use other `Locals` at every step.

## Two relations

* `Reachable` — the worlds that runs lead to from a fresh host.
* `Leads` — the worlds that a run without a reset leads to from a given one.

`Tenancy` refines the former: it carries along the buffers that were handed out
on the current host, and lets a read go nowhere else.

## Main results

* `tenancy_faultless` — such a run never reaches over the end of the arena.
* `arena_unclobbered` — the arena of a run only grows at its end, by exactly what
  was granted, so whatever was written stays readable until a reset.

Both rest on what one step does (`Step.grows_run`, `Step.safe_run`), and that on the
safety of the single operations.  What a step leaves of the records is said through a
view of them: a step that tells the host nothing of what the view shows
(`Step.Unseen`) leaves the view as it was (`Step.grows_run_of_unseen`).
-/

namespace HostBoundary

open AllocationRequest (Laid grantedBytes)
open Host (Growth)

/-- The view that shows nothing. -/
def Records.hidden (_ : Records) : Unit := ()

variable {base : Nat} {held : List Buffer}

/-! ## Steps of the public interface -/

namespace Step

/-- The operations of the contract side.  Settings and resets come from
outside, and a call at a pointer of one's own choice is not public. -/
def IsOperation : Step → Prop
  | configure _ | reset | raw _ => False
  | dump | memory _ | query _ | report _ | builder _ _ | loadInvocation | transfer
  | vote _ _ => True

/-- All steps but the calls at a pointer of one's own choice. -/
def IsPublic : Step → Prop
  | raw _ => False
  | _ => True

end Step

namespace World

/-- The world that a computation leaves, whether or not it ends in a fault. -/
def after {α : Type} (act : Guest α) (world : World) : World :=
  match act world with
  | .ok _ left | .error _ left => left

/-- The world that a step leaves. -/
def next (world : World) (locals : Locals) (step : Step) : World :=
  world.after (step.run locals)

end World

/-! ## What one step does -/

namespace Guest

variable {α β γ : Type} {view : Records → β}

theorem after_of_ok {act : Guest α} {world left : World} {a : α}
    (answers : act world = .ok a left) : world.after act = left := by
  simp [World.after, answers]

/-- The host grows, whether or not the computation ends in a fault. -/
def Grows (view : Records → β) (base : Nat) (act : Guest α) : Prop :=
  ∀ world : World, 0 < base → base ≤ world.host.arena.length →
    Growth view base world.host (world.after act).host

theorem Safe.grows {act : Guest α} (safe : Safe view base [] act) : Grows view base act := by
  intro world pos reached
  obtain ⟨a, left, answers, growth⟩ := safe world pos reached (by simp)
  rw [after_of_ok answers]
  exact growth

theorem grows_pure (a : α) : Grows view base (pure a) := (safe_pure a).grows

theorem Grows.bind {act : Guest α} {next : α → Guest γ} (first : Grows view base act)
    (second : ∀ a, Grows view base (next a)) : Grows view base (act >>= next) := by
  intro world pos reached
  have growth := first world pos reached
  cases outcome : act world with
  | ok a middle =>
    have same : world.after (act >>= next) = middle.after (next a) := by
      rw [World.after, bind_of_ok outcome]
      rfl
    rw [after_of_ok outcome] at growth
    rw [same]
    exact growth.trans (second a middle pos (Nat.le_trans reached growth.length_le))
  | error fault middle =>
    -- a fault ends the computation where the first part left the world
    have same : world.after (act >>= next) = middle := by
      rw [World.after, bind_of_error outcome]
    have first : world.after act = middle := by rw [World.after, outcome]
    rw [first] at growth
    rw [same]
    exact growth

theorem Grows.map {act : Guest α} (f : α → γ) (grows : Grows view base act) :
    Grows view base (f <$> act) := by
  rw [map_eq_pure_bind]
  exact grows.bind fun a => grows_pure (f a)

/-- A read changes nothing, wherever it goes. -/
theorem grows_readBytes (pointer length : UInt32) :
    Grows view base (readBytes pointer length) := by
  unfold readBytes
  split
  · exact grows_pure []
  · intro world _ _
    have same : (world.after (call (Host.read pointer length))).host = world.host := by
      by_cases inside : pointer.toNat + length.toNat ≤ world.host.arena.length <;>
        simp [World.after, call, Host.read, inside]
    rw [same]

theorem grows_readText? (pointer length : UInt32) :
    Grows view base (readText? pointer length) :=
  (grows_readBytes pointer length).bind fun _ => grows_pure _

end Guest

open Guest

namespace MemoryStep

/-- The step reads nowhere but in buffers that are held. -/
def ReadsWithin (held : List Buffer) : MemoryStep → Prop
  | readBytes pointer length | readText pointer length | readTextStrictly pointer length =>
    Readable held pointer length
  | readBuffer buffer => Readable held buffer.pointer buffer.length
  | readNumber pointer => Readable held pointer 8
  | allocate _ | reserve _ | writeBytes _ | writeText _ | allocateText _ | allocateBytes _ => True

theorem safe_run {step : MemoryStep} {β : Type} {view : Records → β}
    (within : step.ReadsWithin held) : Safe view base held step.run := by
  cases step with
  | allocate length => exact (safe_allocate length).map _
  | reserve length => exact (safe_reserve length).map _
  | writeBytes bytes => exact (safe_writeBytes bytes).map _
  | writeText text => exact (safe_writeBytes _).map _
  | allocateText text => exact (safe_allocateBytes (Utf8.encode text)).map _
  | allocateBytes bytes => exact (safe_allocateBytes bytes).map _
  | readBytes pointer length => exact (safe_readBytes within).map _
  | readBuffer buffer => exact (safe_readBytes within).map _
  | readText pointer length => exact (safe_readText within).map _
  | readTextStrictly pointer length => exact (safe_readText? within).map _
  | readNumber pointer => exact (safe_readNumber within).map _

/-- Steps that allocate are safe on their own; the others only read. -/
theorem grows_run {β : Type} {view : Records → β} (step : MemoryStep) :
    Grows view base step.run := by
  cases step with
  | allocate _ | reserve _ | writeBytes _ | writeText _ | allocateText _ | allocateBytes _ =>
    exact (safe_run (by trivial)).grows
  | readBytes pointer length => exact (grows_readBytes pointer length).map _
  | readBuffer buffer => exact (grows_readBytes _ _).map _
  | readTextStrictly pointer length => exact (grows_readText? pointer length).map _
  | readText pointer length =>
    refine ((grows_readText? pointer length).bind fun text => ?_).map _
    cases text with
    | ok text => exact grows_pure text
    | error error => exact ((safe_emit _).bind fun _ => safe_pure "").grows
  | readNumber pointer =>
    refine ((grows_readBytes pointer 8).bind fun bytes => ?_).map _
    split <;> exact grows_pure _

end MemoryStep

/-- Questions leave all records alone. -/
theorem QueryStep.safe_run (step : QueryStep) {β : Type} {view : Records → β} :
    Safe view base held step.run := by
  cases step with
  | abiVersion => exact (safe_configured _).map _
  | txIndex => exact (safe_configured _).map _
  | caller => exact safe_caller.map _
  | contractAddress => exact safe_contractAddress.map _
  | txHash => exact safe_txHash.map _
  | timestamp => exact (safe_configured _).map _
  | blockHeight => exact (safe_configured _).map _
  | chainId => exact safe_chainId?.map _
  | isCompatible expected => exact ((safe_configured _).bind fun _ => safe_pure _).map _
  | blockHash height => exact (safe_blockHash? height).map _
  | merkleRoot height => exact (safe_merkleRoot? height).map _
  | stateRoot height => exact (safe_stateRoot? height).map _
  | minerAddress height => exact (safe_minerAddress? height).map _
  | initParams maxLength => exact (safe_initParams? maxLength).map _
  | contractParams maxLength => exact (safe_initParams? maxLength).map _
  | stateValue key => exact (safe_stateValue? key).map _
  | confirmedState stateId => exact (safe_confirmedState? stateId).map _
  | stateVersion stateId => exact (safe_stateVersion stateId).map _
  | utxo point => exact (safe_utxo? point).map _
  | utxoExists point => exact (safe_utxoExists point).map _
  | resource contentHash => exact (safe_resource? contentHash).map _
  | resourceExists contentHash => exact (safe_resourceExists contentHash).map _
  | balance address tokenId => exact (safe_balance address tokenId).map _
  | base58Of address => exact (safe_base58Of? address).map _
  | addressOfBase58 text => exact (safe_addressOfBase58? text).map _
  | addressText address => exact (safe_addressText address).map _

/-- The view shows nothing of what a report is about. -/
def ReportStep.Unseen {β : Type} (view : Records → β) : ReportStep → Prop
  | setReturnData _ => ∀ r data, view { r with returnData := data } = view r
  | emitEvent _ => ∀ r events, view { r with events := events } = view r
  | logDebug _ => ∀ r logs, view { r with logs := logs } = view r
  | createOutput .. | createLockedOutput .. | appendState .. | appendResource .. | createBatch _ =>
    HostCall.OutputsUnseen view
  | provideEvidence .. => ∀ r evidence, view { r with evidence := evidence } = view r
  | declareState _ | controlledState _ => True

theorem ReportStep.safe_run {step : ReportStep} {β : Type} {view : Records → β}
    (unseen : step.Unseen view) : Safe view base held step.run := by
  cases step with
  | setReturnData data => exact (safe_setReturnData unseen data).map _
  | emitEvent event => exact (safe_emitEvent unseen event).map _
  | logDebug message => exact (safe_logDebug unseen message).map _
  | createOutput recipient amount tokenId =>
    exact (safe_createOutput unseen recipient amount tokenId).map _
  | createLockedOutput recipient amount tokenId locking =>
    exact (safe_createLockedOutput unseen recipient amount tokenId locking).map _
  | appendState stateId version execHash publicInputs parentHash =>
    exact (safe_appendState unseen stateId version execHash publicInputs parentHash).map _
  | appendResource resource owner locking =>
    exact (safe_appendResource unseen resource owner locking).map _
  | createBatch items => exact (safe_createBatch unseen items).map _
  | declareState claim => exact (safe_declareState? claim).map _
  | provideEvidence claimId evidence => exact (safe_provideEvidence unseen claimId evidence).map _
  | controlledState claimId => exact (safe_controlledState? claimId).map _

/-- Only the last two steps reach the host, and they leave all records but the
drafts alone. -/
theorem BuilderStep.safe_run (step : BuilderStep) (builder : Builder) {β : Type}
    {view : Records → β} (unseen : ∀ r drafts, view { r with drafts := drafts } = view r) :
    Safe view base held (step.run builder) := by
  cases step with
  | start | addOutput _ | addIntent _ | setSignMode _ => exact safe_pure _
  | finalize => exact (safe_finalize unseen builder).bind fun _ => safe_pure _
  | build => exact (safe_build unseen builder.draft).bind fun _ => safe_pure _

namespace Step

/-- The step is public, and reads nowhere but in buffers that are held. -/
def ReadsWithin (held : List Buffer) : Step → Prop
  | raw _ => False
  | memory step => step.ReadsWithin held
  | configure _ | reset | dump | query _ | report _ | builder _ _ | loadInvocation | transfer
  | vote _ _ => True

section View

variable {β : Type} {view : Records → β}

/-- The view shows nothing of what a step tells the host. -/
def Unseen (view : Records → β) : Step → Prop
  | report step => step.Unseen view
  | builder _ _ | vote _ _ => ∀ r drafts, view { r with drafts := drafts } = view r
  | transfer => Token.TransferUnseen view
  | configure _ | reset | dump | memory _ | raw _ | query _ | loadInvocation => True

theorem safe_enter (locals : Locals) {entry : Invocation → Guest UInt32}
    (safe : ∀ invocation, Safe view base held (entry invocation)) :
    Safe view base held (enter locals entry) := by
  have shared : Safe view base held (sharedInvocation locals) := by
    unfold sharedInvocation
    split
    · exact safe_pure _
    · exact safe_loadInvocation
  exact shared.bind fun invocation => (safe invocation).bind fun _ => safe_pure _

/-- **No operation faults** as long as it reads what is held, and it leaves alone what
it has nothing to tell about. -/
theorem safe_run_of_unseen (locals : Locals) {step : Step} (operation : step.IsOperation)
    (unseen : step.Unseen view) (within : step.ReadsWithin held) :
    Safe view base held (step.run locals) := by
  cases step with
  | configure _ | reset | raw _ => exact operation.elim
  | dump =>
    intro world _ _ _
    exact ⟨_, world, rfl, .refl _ _ _⟩
  | memory step => exact (MemoryStep.safe_run within).bind fun _ => safe_pure _
  | query step => exact step.safe_run.bind fun _ => safe_pure _
  | report step => exact (ReportStep.safe_run unseen).bind fun _ => safe_pure _
  | builder slot step => exact (step.safe_run _ unseen).bind fun _ => safe_pure _
  | loadInvocation => exact safe_loadInvocation.bind fun _ => safe_pure _
  | transfer => exact safe_enter locals fun invocation => Token.safe_transfer unseen invocation
  | vote proposal choice =>
    exact safe_enter locals fun invocation =>
      Token.safe_vote unseen invocation proposal choice

/-- Every operation lets the host grow, wherever it reads. -/
theorem grows_run_of_unseen (locals : Locals) {step : Step} (operation : step.IsOperation)
    (unseen : step.Unseen view) : Grows view base (step.run locals) := by
  cases step with
  | memory step => exact step.grows_run.bind fun _ => grows_pure _
  | configure _ | reset | raw _ => exact operation.elim
  | dump | query _ | report _ | builder _ _ | loadInvocation | transfer | vote _ _ =>
    exact (safe_run_of_unseen locals operation unseen trivial).grows

end View

theorem unseen_hidden (step : Step) : step.Unseen Records.hidden := by
  cases step with
  | report step =>
    cases step with
    | setReturnData _ | emitEvent _ | logDebug _ | provideEvidence _ _ => exact fun _ _ => rfl
    | createOutput | createLockedOutput | appendState | appendResource | createBatch =>
      exact fun _ _ _ _ _ _ => rfl
    | declareState _ | controlledState _ => trivial
  | builder _ _ | vote _ _ => exact fun _ _ => rfl
  | transfer => exact ⟨fun _ _ => rfl, fun _ _ => rfl, fun _ _ => rfl, fun _ _ => rfl⟩
  | configure _ | reset | dump | memory _ | raw _ | query _ | loadInvocation => trivial

theorem safe_run (locals : Locals) {step : Step} (operation : step.IsOperation)
    (within : step.ReadsWithin held) : Safe Records.hidden base held (step.run locals) :=
  safe_run_of_unseen locals operation step.unseen_hidden within

theorem grows_run (locals : Locals) {step : Step} (operation : step.IsOperation) :
    Grows Records.hidden base (step.run locals) :=
  grows_run_of_unseen locals operation step.unseen_hidden

end Step

/-! ## Runs without a reset -/

namespace Host

/-- What any number of steps make of a host, as long as it is not reset. -/
structure Extends (before after : Host) : Prop where
  /-- The arena grew at its end. -/
  kept : before.arena <+: after.arena
  /-- What it gained was granted. -/
  laid : ∃ added, after.requests = before.requests ++ added ∧
    Laid before.arena.length added after.arena.length

@[refl] theorem Extends.refl (host : Host) : Extends host host :=
  ⟨List.prefix_refl _, [], by simp, .nil _⟩

theorem Extends.trans {before middle after : Host} (first : Extends before middle)
    (second : Extends middle after) : Extends before after := by
  obtain ⟨added, requests, laid⟩ := first.laid
  obtain ⟨more, moreRequests, moreLaid⟩ := second.laid
  refine ⟨first.kept.trans second.kept, added ++ more, ?_, laid.append moreLaid⟩
  rw [moreRequests, requests, List.append_assoc]

end Host

open Host (Extends)

variable {world start later : World}

/-- What an operation adds to the arena is what it was granted. -/
theorem next_extends_of_operation (locals : Locals) {step : Step} (operation : step.IsOperation)
    (nonempty : world.host.SparesNull) :
    Extends world.host (world.next locals step).host := by
  have grows : Guest.Grows Records.hidden world.host.arena.length (step.run locals) :=
    Step.grows_run locals operation
  have growth := grows world nonempty (Nat.le_refl _)
  exact ⟨growth.arena_kept, growth.laid⟩

theorem next_extends (locals : Locals) {step : Step} (isPublic : step.IsPublic)
    (keeps : step ≠ .reset) (nonempty : world.host.SparesNull) :
    Extends world.host (world.next locals step).host := by
  cases step with
  | configure setting => exact ⟨List.prefix_refl _, [], (List.append_nil _).symm, .nil _⟩
  | reset => exact absurd rfl keeps
  | raw _ => exact isPublic.elim
  | dump | memory _ | query _ | report _ | builder _ _ | loadInvocation | transfer | vote _ _ =>
    exact next_extends_of_operation locals trivial nonempty

/-- The worlds that runs of public steps lead to, from a fresh host. -/
inductive Reachable : World → Prop
  | fresh (trace : List TraceEvent) : Reachable ⟨.initial, trace⟩
  | step {world : World} (locals : Locals) (step : Step) (isPublic : step.IsPublic)
      (reached : Reachable world) : Reachable (world.next locals step)

/-- The worlds that runs of public steps without a reset lead to. -/
inductive Leads (start : World) : World → Prop
  | refl : Leads start start
  | step {world : World} (locals : Locals) (step : Step) (isPublic : step.IsPublic)
      (keeps : step ≠ .reset) (led : Leads start world) : Leads start (world.next locals step)

/-- **The ledger of a reachable host is closed**: its granted regions fill the
arena behind the reserved bytes without a gap. -/
theorem Reachable.laid (reachable : Reachable world) :
    Laid Host.arenaBase world.host.requests world.host.arena.length := by
  induction reachable with
  | fresh trace => exact .nil _
  | @step world locals step isPublic _ ih =>
    by_cases reset : step = .reset
    · subst reset
      exact .nil _
    · have nonempty : world.host.SparesNull :=
        Nat.lt_of_lt_of_le (by decide) (Nat.le.intro ih.stop_eq.symm)
      obtain ⟨added, requests, laid⟩ := (next_extends locals isPublic reset nonempty).laid
      rw [requests]
      exact ih.append laid

/-- **The invariant of the arena** holds wherever a run leads. -/
theorem Reachable.reserved (reachable : Reachable world) : world.host.Reserved :=
  Nat.le.intro reachable.laid.stop_eq.symm

theorem Reachable.sparesNull (reachable : Reachable world) : world.host.SparesNull :=
  reachable.reserved.sparesNull

/-- A run without a reset extends the host that it began with. -/
theorem Leads.extends (led : Leads start later) (nonempty : start.host.SparesNull) :
    Extends start.host later.host := by
  induction led with
  | refl => rfl
  | step locals step isPublic keeps _ ih =>
    have stillNonempty := nonempty.mono ih.kept.length_le
    exact ih.trans (next_extends locals isPublic keeps stillNonempty)

/-! ## Copies outlast the run -/

/-- A copy of the bytes was made and its region answered, in one of the four
ways there are. -/
inductive Copied (world : World) : Bytes → Buffer → World → Prop
  | writeBytes {bytes : Bytes} {buffer : Buffer} {after : World}
      (answers : Guest.writeBytes bytes world = .ok (.ok buffer) after) :
      Copied world bytes buffer after
  | writeText {text : String} {buffer : Buffer} {after : World}
      (answers : Guest.writeText text world = .ok (.ok buffer) after) :
      Copied world (Utf8.encode text) buffer after
  | allocateBytes {bytes : Bytes} {pointer : UInt32} {after : World}
      (answers : Guest.allocateBytes bytes world = .ok pointer after)
      (notNull : pointer ≠ nullPointer) :
      Copied world bytes ⟨pointer, UInt32.ofNat bytes.length⟩ after
  | allocateText {text : String} {pointer : UInt32} {after : World}
      (answers : Guest.allocateText text world = .ok pointer after)
      (notNull : pointer ≠ nullPointer) :
      Copied world (Utf8.encode text)
        ⟨pointer, UInt32.ofNat (Utf8.encode text).length⟩ after

/-- A fresh copy is where its region says. -/
theorem Copied.holds {bytes : Bytes} {buffer : Buffer} {after : World}
    (copied : Copied world bytes buffer after) (nonempty : world.host.SparesNull) :
    buffer.Holds after.host.arena bytes := by
  cases copied with
  | writeBytes answers => exact holds_of_writeBytes nonempty answers
  | writeText answers => exact holds_of_writeBytes nonempty answers
  | allocateBytes answers notNull => exact holds_of_allocateBytes nonempty answers notNull
  | allocateText answers notNull => exact holds_of_allocateBytes nonempty answers notNull

/-- **Nothing is ever clobbered.**  In every reachable world an operation leaves
the arena a prefix of what it makes of it, and what the arena gains is exactly
what was granted.  Hence a copy is read back as it was written after any later
steps up to a reset, as bytes, as a text and as a number; and no two granted
regions overlap. -/
theorem arena_unclobbered (reachable : Reachable world) :
    (∀ (locals : Locals) (step : Step), step.IsOperation →
      world.host.arena <+: (world.next locals step).host.arena ∧
      ∃ added, (world.next locals step).host.requests = world.host.requests ++ added ∧
        (world.next locals step).host.arena.length
          = world.host.arena.length + grantedBytes added) ∧
    (∀ (bytes : Bytes) (buffer : Buffer) (after later : World),
      Copied world bytes buffer after → Leads after later →
        buffer.length.toNat = bytes.length ∧
        Guest.readBytes buffer.pointer buffer.length later = .ok bytes later ∧
        (∀ text, bytes = Utf8.encode text →
          Guest.readText buffer.pointer buffer.length later = .ok text later) ∧
        (∀ n, bytes = Bytes.ofUInt64 n →
          Guest.readNumber buffer.pointer later = .ok n later)) ∧
    world.host.requests.Pairwise fun earlier later =>
      earlier.granted = true → later.granted = true →
        earlier.pointer.toNat + earlier.size.toNat ≤ later.pointer.toNat := by
  have nonempty : world.host.SparesNull := reachable.sparesNull
  refine ⟨?_, ?_, reachable.laid.pairwise⟩
  · intro locals step operation
    have step_extends := next_extends_of_operation locals operation nonempty
    obtain ⟨added, requests, laid⟩ := step_extends.laid
    exact ⟨step_extends.kept, added, requests, laid.stop_eq⟩
  · intro bytes buffer after later copied led
    have fresh := copied.holds nonempty
    have stillNonempty := Host.sparesNull_of_within fresh.toWithin
    have holds := fresh.mono (led.extends stillNonempty).kept
    refine ⟨holds.length_eq.symm, readBytes_holds holds, ?_, ?_⟩
    · rintro text rfl
      exact readText_holds holds
    · rintro n rfl
      exact readNumber_holds holds

/-- A text that was written before a transfer is there after it. -/
theorem arena_unclobbered_hello :
    Reachable ⟨.initial, []⟩ ∧
    ∃ buffer after, Copied ⟨.initial, []⟩ (Utf8.encode "hello") buffer after ∧
      Guest.readText buffer.pointer buffer.length (after.next .none .transfer)
        = .ok "hello" (after.next .none .transfer) := by
  have written : Guest.writeText "hello" ⟨.initial, []⟩
      = .ok (.ok ⟨8, 5⟩) (World.granted ⟨.initial, []⟩ (Utf8.encode "hello")) :=
    Guest.writeBytes_of_grants (by decide) (by decide) (by decide)
  have led (after : World) : Leads after (after.next .none .transfer) :=
    .step .none .transfer trivial nofun .refl
  exact ⟨.fresh [], _, _, .writeText written,
    ((arena_unclobbered (.fresh [])).2.1 _ _ _ _ (.writeText written) (led _)).2.2.1 _ rfl⟩

/-! ## Runs that read what they hold -/

namespace MemoryStep

/-- The region that a step on memory hands out with its answer. -/
def handsOut : MemoryStep → Answer → List Buffer
  | _, .region buffer => [buffer]
  | allocate length, .word pointer => if pointer = nullPointer then [] else [⟨pointer, length⟩]
  | allocateBytes bytes, .word pointer =>
    if pointer = nullPointer then [] else [⟨pointer, UInt32.ofNat bytes.length⟩]
  | allocateText text, .word pointer =>
    if pointer = nullPointer then [] else [⟨pointer, UInt32.ofNat (Utf8.encode text).length⟩]
  | _, _ => []

theorem within_of_pointer {size : Nat} {pointer length : UInt32}
    (within : pointer ≠ nullPointer → Buffer.Within ⟨pointer, length⟩ size) :
    ∀ buffer ∈ (if pointer = nullPointer then [] else [⟨pointer, length⟩] : List Buffer),
      buffer.Within size := by
  split
  · simp
  · next notNull =>
    intro buffer mem
    rw [List.mem_singleton.mp mem]
    exact within notNull

theorem within_of_region {size : Nat} {step : MemoryStep} {outcome : Except BoundaryError Buffer}
    (within : ∀ buffer, outcome = .ok buffer → buffer.Within size) :
    ∀ buffer ∈ step.handsOut (.ofExcept .region outcome), buffer.Within size := by
  cases outcome with
  | error error => cases step <;> simp [handsOut, Answer.ofExcept]
  | ok buffer => cases step <;> simpa [handsOut, Answer.ofExcept] using within buffer rfl

/-- What is handed out lies inside the arena. -/
theorem within_of_handsOut {step : MemoryStep} {answer : Answer} {after : World}
    (nonempty : world.host.SparesNull) (answers : step.run world = .ok answer after) :
    ∀ buffer ∈ step.handsOut answer, buffer.Within after.host.arena.length := by
  cases step with
  | allocate length =>
    obtain ⟨pointer, allocated, rfl⟩ := map_eq_ok_iff.mp answers
    exact within_of_pointer fun notNull => (holds_of_allocate nonempty allocated notNull).toWithin
  | allocateBytes bytes =>
    obtain ⟨pointer, allocated, rfl⟩ := map_eq_ok_iff.mp answers
    exact within_of_pointer fun notNull =>
      (holds_of_allocateBytes nonempty allocated notNull).toWithin
  | allocateText text =>
    obtain ⟨pointer, allocated, rfl⟩ := map_eq_ok_iff.mp answers
    exact within_of_pointer fun notNull =>
      (holds_of_allocateBytes nonempty allocated notNull).toWithin
  | reserve length =>
    obtain ⟨outcome, reserved, rfl⟩ := map_eq_ok_iff.mp answers
    refine within_of_region ?_
    rintro buffer rfl
    exact (holds_of_reserve nonempty reserved).toWithin
  | writeBytes bytes =>
    obtain ⟨outcome, written, rfl⟩ := map_eq_ok_iff.mp answers
    refine within_of_region ?_
    rintro buffer rfl
    exact (holds_of_writeBytes nonempty written).toWithin
  | writeText text =>
    obtain ⟨outcome, written, rfl⟩ := map_eq_ok_iff.mp answers
    refine within_of_region ?_
    rintro buffer rfl
    exact (holds_of_writeBytes nonempty written).toWithin
  | readBytes _ _ | readBuffer _ | readNumber _ | readText _ _ =>
    obtain ⟨value, -, rfl⟩ := map_eq_ok_iff.mp answers
    simp [handsOut]
  | readTextStrictly _ _ =>
    obtain ⟨value, -, rfl⟩ := map_eq_ok_iff.mp answers
    cases value <;> simp [handsOut, Answer.ofExcept]

end MemoryStep

/-- The buffers that are held after a step: those that it hands out join those
that were held, and a reset takes all of them away. -/
def World.heldAfter (world : World) (held : List Buffer) : Step → List Buffer
  | .reset => []
  | .memory step =>
    match step.run world with
    | .ok answer _ => step.handsOut answer ++ held
    | .error _ _ => held
  | _ => held

/-- The worlds that runs lead to which read only what they were handed out on
the current host, together with that. -/
inductive Tenancy : World → List Buffer → Prop
  | fresh (trace : List TraceEvent) : Tenancy ⟨.initial, trace⟩ []
  | step {world : World} {held : List Buffer} (locals : Locals) (step : Step)
      (within : step.ReadsWithin held) (tenancy : Tenancy world held) :
      Tenancy (world.next locals step) (world.heldAfter held step)

theorem Step.ReadsWithin.isPublic {step : Step} (within : step.ReadsWithin held) :
    step.IsPublic := by
  cases step with
  | raw _ => exact within.elim
  | configure _ | reset | dump | memory _ | query _ | report _ | builder _ _ | loadInvocation
  | transfer | vote _ _ => trivial

theorem Tenancy.reachable (tenancy : Tenancy world held) : Reachable world := by
  induction tenancy with
  | fresh trace => exact .fresh trace
  | step locals step within _ ih => exact .step locals step within.isPublic ih

/-- One step keeps what is held inside the arena. -/
theorem within_heldAfter (locals : Locals) {step : Step} (isPublic : step.IsPublic)
    (nonempty : world.host.SparesNull)
    (within : ∀ buffer ∈ held, buffer.Within world.host.arena.length) :
    ∀ buffer ∈ world.heldAfter held step,
      buffer.Within (world.next locals step).host.arena.length := by
  by_cases reset : step = .reset
  · subst reset
    simp [World.heldAfter]
  · have kept := (next_extends locals isPublic reset nonempty).kept
    have old : ∀ buffer ∈ held, buffer.Within (world.next locals step).host.arena.length :=
      fun buffer mem => (within buffer mem).mono kept.length_le
    -- only a step on memory hands anything out
    cases step with
    | reset => exact absurd rfl reset
    | memory step =>
      rw [World.heldAfter]
      split
      · next answer after answers =>
        have same : world.next locals (.memory step) = after := by
          rw [World.next, World.after, Step.run, bind_of_ok answers]
          rfl
        rw [same] at old ⊢
        intro buffer mem
        rcases List.mem_append.mp mem with new | previous
        · exact MemoryStep.within_of_handsOut nonempty answers buffer new
        · exact old buffer previous
      · exact old
    | configure _ | dump | raw _ | query _ | report _ | builder _ _ | loadInvocation | transfer
    | vote _ _ => exact old

/-- What a run holds lies inside the arena. -/
theorem Tenancy.within (tenancy : Tenancy world held) :
    ∀ buffer ∈ held, buffer.Within world.host.arena.length := by
  induction tenancy with
  | fresh trace => simp
  | @step world held locals step within tenancy ih =>
    have nonempty : world.host.SparesNull := tenancy.reachable.sparesNull
    exact within_heldAfter locals within.isPublic nonempty ih

/-- **No run reaches over the end of the arena.**  Whatever a run did before, as
long as it read only what it held, its next step answers without a fault; the
arena has its first eight bytes; and an allocation answers the null pointer
exactly when it is refused. -/
theorem tenancy_faultless (tenancy : Tenancy world held) :
    (∀ (locals : Locals) (step : Step), step.ReadsWithin held →
      ∃ answer after, step.run locals world = .ok answer after) ∧
    8 ≤ world.host.arena.length ∧
    ∀ size, ∃ pointer after, Host.allocate size world.host = .ok pointer after ∧
      (pointer ≠ nullPointer ↔ world.host.Grants) := by
  have reserved : 8 ≤ world.host.arena.length := tenancy.reachable.reserved
  have nonempty : world.host.SparesNull := tenancy.reachable.sparesNull
  refine ⟨?_, reserved, ?_⟩
  · intro locals step within
    cases step with
    | configure _ | reset | dump => exact ⟨_, _, rfl⟩
    | raw _ => exact within.elim
    | memory _ | query _ | report _ | builder _ _ | loadInvocation | transfer | vote _ _ =>
      obtain ⟨answer, after, answers, -⟩ := Step.safe_run locals (by trivial) within world nonempty
        (Nat.le_refl _) tenancy.within
      exact ⟨answer, after, answers⟩
  · intro size
    by_cases grants : world.host.Grants
    · have notNull := Host.nextRegion_ne_null grants nonempty size
      exact ⟨_, _, Host.allocate_of_grants grants size, iff_of_true notNull grants⟩
    · exact ⟨_, _, Host.allocate_of_not_grants grants size,
        iff_of_false (fun notNull => notNull rfl) grants⟩

/-- A receipt that is longer than its buffer is cut off, and a part of what was
written is read back. -/
theorem tenancy_faultless_long_receipt :
    let configured := World.next ⟨.initial, []⟩ .none
      (.configure (.receipt (List.replicate 5000 125)))
    let written := configured.next .none (.memory (.writeBytes [1, 2, 3, 4]))
    Tenancy written [⟨8, 4⟩] ∧
      (∃ answer after, Step.run .none (.builder 0 .finalize) written = .ok answer after) ∧
      ∃ answer after, Step.run .none (.memory (.readBytes 9 2)) written = .ok answer after := by
  intro configured written
  have tenancy : Tenancy written [⟨8, 4⟩] :=
    .step .none (.memory (.writeBytes [1, 2, 3, 4])) trivial
      (.step .none (.configure (.receipt (List.replicate 5000 125))) trivial (.fresh []))
  have part : Readable [⟨8, 4⟩] 9 2 :=
    .inr (.inr ⟨_, List.mem_cons_self, by decide, by decide⟩)
  exact ⟨tenancy, (tenancy_faultless tenancy).1 _ _ trivial,
    (tenancy_faultless tenancy).1 _ (.memory (.readBytes 9 2)) part⟩

end HostBoundary
