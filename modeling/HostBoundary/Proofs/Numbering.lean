import Mathlib.Data.List.Induction
import HostBoundary.Proofs.Batches
import HostBoundary.Proofs.Builders
import HostBoundary.Proofs.Outputs
import HostBoundary.Proofs.Runs

/-!
# The numbering of outputs

A host numbers the outputs that it is told, in the order in which it is told them.
It keeps one number for this, and four lists of what it was told: assets, states,
resources and batches.  Nothing but the calls that append outputs ties the number to
the lists, and any of them may be abandoned half way.

## One step, and a run

Each call either leaves the records as they were and answers that it failed, or
appends one output, answers the number of outputs before it, and counts it
(`OutputCall.run_cases`); a batch does the same with all of its items at once
(`Guest.createBatch_cases`).  No other step has anything to tell about outputs
(`Step.unseen_outputs`).  So every step preserves what the number means
(`Numbers.step`), and by induction it means that at every point of a run
(`numbers_run`).

The number has 32 bits, and the last of them is the sentinel of a failed call.  A run
is numbered as long as it creates fewer outputs than that.
-/

namespace HostBoundary

open Guest

/-! ## Calls with arguments of any length

An argument that is longer than the address space is never written.  A mandatory one
ends the call; an optional one is sent as absent, so the call is the one without it.
-/

/-- Bytes that are shorter than the address space. -/
def fits (bytes : Bytes) : Bool := bytes.length < UInt32.size

/-- An optional argument that is too long is sent as one that is missing. -/
theorem optionalBytes_filter (argument : Option Bytes) :
    optionalBytes (argument.filter fits) = optionalBytes argument := by
  cases argument with
  | none => rfl
  | some bytes =>
    by_cases short : bytes.length < UInt32.size
    · rw [Option.filter_some_pos (by simpa [fits] using short)]
    · have present : ¬ bytes.isEmpty = true := by
        rw [List.isEmpty_iff]
        rintro rfl
        exact short (by decide)
      rw [Option.filter_some_neg (by simpa [fits] using short)]
      funext world
      rw [optionalBytes, optionalBytes, if_neg present, bind_of_ok (writeBytes_of_long short)]

theorem optionalText_filter (text : Option String) :
    optionalText (text.filter fun text => fits (Utf8.encode text)) = optionalText text := by
  have same : (text.filter fun text => fits (Utf8.encode text)).map Utf8.encode
      = (text.map Utf8.encode).filter fits := by
    rw [Option.filter_map]
    rfl
  rw [optionalText, same, optionalBytes_filter, optionalText]

namespace OutputCall

/-- The call without the optional arguments that are too long. -/
def shortened : OutputCall → OutputCall
  | plain recipient amount tokenId =>
    plain recipient amount (tokenId.filter fun text => fits (Utf8.encode text))
  | locked recipient amount tokenId locking =>
    locked recipient amount (tokenId.filter fun text => fits (Utf8.encode text))
      (locking.filter fun text => fits (Utf8.encode text))
  | state stateId version execHash inputs parent =>
    state stateId version execHash (inputs.filter fits) parent
  | resource content owner locking =>
    resource content owner (locking.filter fun text => fits (Utf8.encode text))

theorem run_shortened (call : OutputCall) : call.shortened.run = call.run := by
  cases call with
  | plain recipient amount tokenId =>
    simp only [shortened, run, createOutput, optionalText_filter]
  | locked recipient amount tokenId locking =>
    simp only [shortened, run, createLockedOutput, optionalText_filter]
  | state stateId version execHash inputs parent =>
    simp only [shortened, run, Guest.appendState, optionalBytes_filter]
  | resource content owner locking =>
    simp only [shortened, run, Guest.appendResource, optionalText_filter]

theorem short_shortened (call : OutputCall)
    (mandatory : ∀ bytes ∈ call.mandatory, bytes.length < UInt32.size) : call.shortened.Short := by
  have text (argument : Option String) : ∀ bytes ∈ (argument.filter fun text =>
      fits (Utf8.encode text)).map Utf8.encode, bytes.length < UInt32.size := by
    intro bytes mem
    obtain ⟨text, kept, rfl⟩ := Option.map_eq_some_iff.mp mem
    exact of_decide_eq_true (Option.filter_eq_some_iff.mp kept).2
  cases call with
  | plain recipient amount tokenId =>
    exact ⟨mandatory, List.forall_mem_singleton.mpr (text tokenId)⟩
  | locked recipient amount tokenId locking =>
    exact ⟨mandatory, List.forall_mem_cons.mpr
      ⟨text tokenId, List.forall_mem_singleton.mpr (text locking)⟩⟩
  | state stateId version execHash inputs parent =>
    refine ⟨mandatory, List.forall_mem_cons.mpr ⟨?_, List.forall_mem_singleton.mpr ?_⟩⟩
    · intro bytes mem
      exact of_decide_eq_true (Option.filter_eq_some_iff.mp mem).2
    · intro bytes mem
      obtain ⟨hash, -, rfl⟩ := Option.map_eq_some_iff.mp mem
      exact hash.short (by decide)
  | resource content owner locking =>
    exact ⟨mandatory, List.forall_mem_singleton.mpr (text locking)⟩

/-- A call with a mandatory argument that is too long is abandoned. -/
theorem run_of_long (call : OutputCall) (world : World)
    (long : ¬ ∀ bytes ∈ call.mandatory, bytes.length < UInt32.size) :
    ∃ after, call.run world = .ok outputFailed after ∧ world.host.OnlyAllocated after.host := by
  cases call with
  | plain recipient amount tokenId =>
    exact (long (List.forall_mem_singleton.mpr (recipient.short (by decide)))).elim
  | locked recipient amount tokenId locking =>
    exact (long (List.forall_mem_singleton.mpr (recipient.short (by decide)))).elim
  | state stateId version execHash inputs parent =>
    have longId : ¬ stateId.length < UInt32.size := fun short => long
      (List.forall_mem_cons.mpr ⟨short, List.forall_mem_singleton.mpr
        (execHash.short (by decide))⟩)
    rw [run, Guest.appendState, bind_of_ok (writeBytes_of_long longId)]
    exact ⟨_, rfl, .refl _⟩
  | resource content owner locking =>
    have longContent : ¬ content.length < UInt32.size := fun short => long
      (List.forall_mem_cons.mpr ⟨short, List.forall_mem_singleton.mpr
        (owner.short (by decide))⟩)
    rw [run, Guest.appendResource, bind_of_ok (writeBytes_of_long longContent)]
    exact ⟨_, rfl, .refl _⟩

/-- **What a call comes to.**  It is abandoned, and then the host is told nothing; or
one output is taken, numbered and counted. -/
theorem run_cases (call : OutputCall) (world : World) :
    (∃ after, call.run world = .ok outputFailed after ∧ world.host.OnlyAllocated after.host) ∨
    ∃ (output : OutputRecord) (middle : Host) (after : World),
      call.run world = .ok world.host.outputNumber after ∧ world.host.OnlyAllocated middle ∧
      after.host = middle.told fun records => (output.append records).counted world.host.setup := by
  by_cases mandatory : ∀ bytes ∈ call.mandatory, bytes.length < UInt32.size
  · have short := call.short_shortened mandatory
    rw [← call.run_shortened]
    obtain ⟨lengths, sends, outcome⟩ : ∃ lengths sends,
        OutputOutcome world.host lengths sends call.shortened.run world := by
      cases call with
      | plain => exact ⟨_, _, createOutput_outcome short⟩
      | locked => exact ⟨_, _, createLockedOutput_outcome short⟩
      | state => exact ⟨_, _, appendState_outcome short⟩
      | resource => exact ⟨_, _, appendResource_outcome short⟩
    by_cases provided : world.host.Provides lengths
    · obtain ⟨output, middle, after, answers, -, only, told⟩ := outcome.taken provided
      exact .inr ⟨output, middle, after, answers, only, told⟩
    · exact .inl (outcome.abandoned provided)
  · exact .inl (call.run_of_long world mandatory)

end OutputCall

/-! ## The outputs of a run -/

/-- The step that makes the call. -/
def OutputCall.step : OutputCall → Step
  | plain recipient amount tokenId => .report (.createOutput recipient amount tokenId)
  | locked recipient amount tokenId locking =>
    .report (.createLockedOutput recipient amount tokenId locking)
  | state stateId version execHash inputs parent =>
    .report (.appendState stateId version execHash inputs parent)
  | resource content owner locking => .report (.appendResource content owner locking)

namespace Step

/-- A step that appends one output. -/
def appendsOne : Step → Bool
  | report (.createOutput ..) | report (.createLockedOutput ..) | report (.appendState ..)
  | report (.appendResource ..) => true
  | _ => false

/-- How many outputs a step asks for as a batch. -/
def batchSize : Step → Nat
  | report (.createBatch items) => items.length
  | _ => 0

end Step

/-- A step that was taken, with its answer. -/
abbrev Taken := Step × Answer

namespace Taken

/-- The index that the step was answered, if it appends one output and did not fail. -/
def index? : Taken → Option UInt32
  | (step, .word n) => if step.appendsOne && n != outputFailed then some n else none
  | _ => none

/-- How many outputs the step created as a batch: none if it failed. -/
def batched : Taken → Nat
  | (step, .word n) => if n = outputFailed then 0 else step.batchSize
  | _ => 0

/-- The indices that were answered, in order. -/
def indices (log : List Taken) : List UInt32 := log.filterMap index?

/-- How many outputs were created in batches. -/
def inBatches (log : List Taken) : Nat := (log.map batched).foldr (· + ·) 0

/-- How many outputs were created. -/
def created (log : List Taken) : Nat := (indices log).length + inBatches log

theorem indices_append (log more : List Taken) :
    indices (log ++ more) = indices log ++ indices more := List.filterMap_append

theorem inBatches_append (log more : List Taken) :
    inBatches (log ++ more) = inBatches log + inBatches more := by
  induction log with
  | nil => exact (Nat.zero_add _).symm
  | cons first log ih =>
    simp only [inBatches, List.cons_append, List.map_cons, List.foldr_cons] at ih ⊢
    rw [ih, Nat.add_assoc]

theorem created_append (log more : List Taken) :
    created (log ++ more) = created log + created more := by
  rw [created, created, created, indices_append, inBatches_append, List.length_append]
  omega

theorem indices_singleton (entry : Taken) : indices [entry] = entry.index?.toList := by
  rw [indices, List.filterMap_cons]
  cases entry.index? <;> rfl

theorem created_singleton (entry : Taken) :
    created [entry] = entry.index?.toList.length + entry.batched := by
  rw [created, indices_singleton]
  rfl

end Taken

/-- The steps that a run takes, with their answers. -/
def Session.taken : Session → List (Except BoundaryError Step) → List Taken
  | _, [] => []
  | session, .ok step :: rest =>
    (step, (session.step step).1.answer) :: taken (session.step step).2 rest
  | session, .error _ :: rest => taken session rest

theorem Session.taken_append (session : Session) (front back : List (Except BoundaryError Step)) :
    session.taken (front ++ back) = session.taken front ++ (session.run front).2.taken back := by
  induction front generalizing session with
  | nil => rfl
  | cons first rest ih =>
    cases first with
    | error error => exact ih session
    | ok step =>
      rw [List.cons_append, taken, taken, ih, List.cons_append, run_ok_cons]

/-- **What every step keeps holds of a run.**  It is said of the host and of the steps that
were taken so far. -/
theorem Session.run_keeps {motive : Host → List Taken → Prop} {allowed : Step → Prop}
    {session : Session} {steps : List (Except BoundaryError Step)}
    (start : motive session.host [])
    (next : ∀ (session : Session) (log : List Taken) (step : Step), allowed step →
      motive session.host log →
      motive (session.step step).2.host (log ++ [(step, (session.step step).1.answer)]))
    (all : ∀ step, .ok step ∈ steps → allowed step) :
    motive (session.run steps).2.host (session.taken steps) := by
  -- along the run, with one more step at its end
  induction steps using List.reverseRecOn with
  | nil => exact start
  | append_singleton front last ih =>
    have before := ih fun step mem => all step (List.mem_append_left _ mem)
    rw [Session.taken_append, Session.run_append]
    cases last with
    | error error =>
      have nothing : (session.run front).2.taken [.error error] = [] := rfl
      rw [nothing, List.append_nil]
      exact before
    | ok step =>
      exact next _ _ step (all step (List.mem_append_right _ List.mem_cons_self)) before

/-! ## What the number means -/

/-- What the records show of outputs. -/
def Records.outputs (records : Records) :
    List AssetRecord × List StateRecord × List ResourceRecord × List String × UInt32 :=
  (records.assetOutputs, records.stateOutputs, records.resourceOutputs, records.batches,
    records.outputCount)

/-- How many single outputs were recorded. -/
def Records.singles (records : Records) : Nat :=
  records.assetOutputs.length + records.stateOutputs.length + records.resourceOutputs.length

theorem OutputRecord.singles_append (output : OutputRecord) (records : Records) :
    (output.append records).singles = records.singles + 1 := by
  cases output <;>
    simp only [append, Records.singles, List.length_append, List.length_singleton] <;> omega

open Taken

/-- The number of a host is that of the outputs that were created, and each index that
was answered is below it. -/
structure Numbers (host : Host) (log : List Taken) : Prop where
  /-- There is somewhere to allocate. -/
  spares : host.SparesNull
  /-- The host answers indices. -/
  status : host.setup.appendStatus = none
  /-- Each single output that was created is recorded. -/
  singles : host.records.singles = (indices log).length
  /-- All outputs that were created are counted. -/
  count : host.records.outputCount.toNat = created log
  /-- The indices are below the count. -/
  below : ∀ n ∈ indices log, n.toNat < created log
  /-- The indices increase. -/
  increasing : (indices log).Pairwise (· < ·)

theorem numbers_initial : Numbers .initial [] where
  spares := by decide
  status := rfl
  singles := rfl
  count := rfl
  below := nofun
  increasing := .nil

/-- The steps that may be taken: those of the public interface, but neither a reset nor
a status that is answered in place of an index. -/
def Step.KeepsNumbering : Step → Prop
  | raw _ | reset | configure (.appendStatus (some _)) => False
  | _ => True

/-- What a call for one output comes to behind so many outputs: it fails and leaves the
records as they were, or it answers the number of those outputs and adds one. -/
inductive Numbered (before : Records) (number : Nat) : Answer → Records → Prop
  | failed : Numbered before number (.word outputFailed) before
  | taken {n : UInt32} (output : OutputRecord) (valid : n ≠ outputFailed)
      (isNext : n.toNat = number) :
      Numbered before number (.word n)
        { output.append before with outputCount := before.outputCount + 1 }

/-- What a batch comes to: it fails and leaves the records as they were, or it answers
how many items it has and counts them all. -/
inductive Counted (before : Records) (items : List BatchItem) : Answer → Records → Prop
  | failed : Counted before items (.word outputFailed) before
  | taken {n : UInt32} (valid : n ≠ outputFailed) (all : n.toNat = items.length) :
      Counted before items (.word n)
        { before with
          batches := before.batches ++ [batchText items]
          outputCount := before.outputCount + n }

theorem Numbered.unchanged {before after : Records} {number : Nat} {answer : Answer}
    (numbered : Numbered before number answer after) (failed : answer = .word outputFailed) :
    after = before := by
  cases numbered with
  | failed => rfl
  | taken _ valid _ => exact absurd (Answer.word.inj failed) valid

theorem Counted.unchanged {before after : Records} {items : List BatchItem} {answer : Answer}
    (counted : Counted before items answer after) (failed : answer = .word outputFailed) :
    after = before := by
  cases counted with
  | failed => rfl
  | taken valid _ => exact absurd (Answer.word.inj failed) valid

/-! ## One step -/

section Steps

variable {session : Session} {log : List Taken} {before after : Host}

theorem toNat_add_of_lt {a b : UInt32} (sum : a.toNat + b.toNat < UInt32.size) :
    (a + b).toNat = a.toNat + b.toNat := by
  rw [UInt32.toNat_add]
  exact Nat.mod_eq_of_lt sum

theorem Session.step_of_ok {step : Step} {answer : Answer} {locals : Locals} {left : World}
    (answers : step.run session.locals ⟨session.host, []⟩ = .ok (answer, locals) left) :
    (session.step step).1.answer = answer ∧ (session.step step).2.host = left.host := by
  rw [Session.step, answers]
  exact ⟨rfl, rfl⟩

theorem Session.host_step (session : Session) (step : Step) :
    (session.step step).2.host = (World.next ⟨session.host, []⟩ session.locals step).host := by
  rw [Session.step, World.next, World.after]
  cases step.run session.locals ⟨session.host, []⟩ <;> rfl

/-- An operation lets the host grow, and leaves alone what it has nothing to tell about. -/
theorem Session.growth_step {β : Type} {view : Records → β} {step : Step}
    (operation : step.IsOperation) (unseen : step.Unseen view)
    (spares : session.host.SparesNull) :
    Host.Growth view session.host.arena.length session.host (session.step step).2.host := by
  rw [Session.host_step]
  exact Step.grows_run_of_unseen session.locals operation unseen ⟨session.host, []⟩ spares
    (Nat.le_refl _)

/-- Whatever an operation comes to, the next one finds somewhere to allocate and a host
that answers indices. -/
theorem Numbers.operation (numbers : Numbers session.host log) {step : Step}
    (operation : step.IsOperation) :
    (session.step step).2.host.SparesNull ∧
      (session.step step).2.host.setup.appendStatus = none := by
  have growth := Session.growth_step operation step.unseen_hidden numbers.spares
  exact ⟨numbers.spares.mono growth.length_le,
    (congrArg Setup.appendStatus growth.setup).trans numbers.status⟩

/-- The number stays right when what a step created is recorded, counted and, if it is
one output, answered with the number before. -/
theorem Numbers.concat (numbers : Numbers before log) {entry : Taken}
    (spares : after.SparesNull) (status : after.setup.appendStatus = none)
    (singles : after.records.singles = before.records.singles + entry.index?.toList.length)
    (count : after.records.outputCount.toNat
      = before.records.outputCount.toNat + (entry.index?.toList.length + entry.batched))
    (isNext : ∀ n ∈ entry.index?, n.toNat = created log) : Numbers after (log ++ [entry]) := by
  have more : created (log ++ [entry])
      = created log + (entry.index?.toList.length + entry.batched) := by
    rw [created_append, created_singleton]
  constructor
  · exact spares
  · exact status
  · rw [singles, numbers.singles, indices_append, indices_singleton, List.length_append]
  · rw [count, numbers.count, more]
  · rw [indices_append, indices_singleton, more]
    intro n mem
    rcases List.mem_append.mp mem with earlier | last
    · exact Nat.lt_of_lt_of_le (numbers.below n earlier) (Nat.le_add_right _ _)
    · have next := isNext n (Option.mem_toList.mp last)
      have one : 0 < entry.index?.toList.length := List.length_pos_of_mem last
      omega
  · rw [indices_append, indices_singleton, List.pairwise_append]
    refine ⟨numbers.increasing, ?_, ?_⟩
    · cases entry.index? with
      | none => exact .nil
      | some n => exact List.pairwise_singleton _ _
    · intro earlier mem last isLast
      rw [UInt32.lt_iff_toNat_lt, isNext last (Option.mem_toList.mp isLast)]
      exact numbers.below earlier mem

/-- The records stay as they are, apart from what is no output. -/
theorem Numbers.idle (numbers : Numbers before log) {entry : Taken}
    (spares : after.SparesNull) (status : after.setup.appendStatus = none)
    (outputs : after.records.outputs = before.records.outputs) (index : entry.index? = none)
    (batched : entry.batched = 0) : Numbers after (log ++ [entry]) := by
  have singles : after.records.singles = before.records.singles :=
    congrArg (fun o => o.1.length + o.2.1.length + o.2.2.1.length) outputs
  have count : after.records.outputCount = before.records.outputCount :=
    congrArg (fun o => o.2.2.2.2) outputs
  refine numbers.concat spares status ?_ ?_ ?_
  · rw [singles, index]
    rfl
  · rw [count, index, batched]
    rfl
  · rw [index]
    nofun

/-- The call that a step makes which appends one output. -/
theorem Step.eq_outputCall {step : Step} (single : step.appendsOne = true) :
    ∃ call : OutputCall, step = call.step := by
  cases step with
  | report step =>
    cases step with
    | createOutput recipient amount tokenId => exact ⟨.plain recipient amount tokenId, rfl⟩
    | createLockedOutput recipient amount tokenId locking =>
      exact ⟨.locked recipient amount tokenId locking, rfl⟩
    | appendState stateId version execHash inputs parent =>
      exact ⟨.state stateId version execHash inputs parent, rfl⟩
    | appendResource content owner locking => exact ⟨.resource content owner locking, rfl⟩
    | _ => cases single
  | _ => cases single

theorem OutputCall.appendsOne_step (call : OutputCall) : call.step.appendsOne = true := by
  cases call <;> rfl

theorem OutputCall.batchSize_step (call : OutputCall) : call.step.batchSize = 0 := by
  cases call <;> rfl

theorem OutputCall.isOperation_step (call : OutputCall) : call.step.IsOperation := by
  cases call <;> trivial

theorem OutputCall.run_step {call : OutputCall} {world left : World} {n : UInt32} (locals : Locals)
    (answers : call.run world = .ok n left) :
    call.step.run locals world = .ok (.word n, locals) left := by
  cases call <;> exact bind_of_ok (map_of_ok _ answers)

/-- A failed call creates nothing. -/
theorem Numbers.of_failed (numbers : Numbers before log) (step : Step)
    (spares : after.SparesNull) (status : after.setup.appendStatus = none)
    (records : after.records = before.records) :
    Numbers after (log ++ [(step, .word outputFailed)]) := by
  refine numbers.idle spares status (congrArg Records.outputs records) ?_ ?_
  · simp [index?]
  · simp [batched]

/-- The number is right after a call for one output. -/
theorem Numbers.of_numbered (numbers : Numbers before log) (call : OutputCall)
    (room : created log < UInt32.size - 1) (spares : after.SparesNull)
    (status : after.setup.appendStatus = none) {answer : Answer} {records : Records}
    (numbered : Numbered before.records (created log) answer records)
    (same : after.records = records) : Numbers after (log ++ [(call.step, answer)]) := by
  cases numbered with
  | failed => exact numbers.of_failed call.step spares status same
  | @taken n output valid isNext =>
    have index : index? (call.step, .word n) = some n := by
      simp [index?, call.appendsOne_step, valid]
    have noBatch : batched (call.step, .word n) = 0 := by
      simp [batched, call.batchSize_step]
    have count := numbers.count
    refine numbers.concat spares status ?_ ?_ ?_
    · rw [same, index]
      exact output.singles_append before.records
    · rw [same, index, noBatch]
      refine toNat_add_of_lt ?_
      show before.records.outputCount.toNat + 1 < UInt32.size
      omega
    · rw [index]
      rintro m ⟨⟩
      exact isNext

/-- **What a call for one output does to the number.** -/
theorem Numbers.single (numbers : Numbers session.host log)
    (room : created log < UInt32.size - 1) (call : OutputCall) :
    Numbered session.host.records (created log) (session.step call.step).1.answer
      (session.step call.step).2.host.records := by
  rcases call.run_cases ⟨session.host, []⟩ with
    ⟨left, answers, only⟩ | ⟨output, middle, left, answers, only, told⟩
  · obtain ⟨answer, host⟩ := Session.step_of_ok (call.run_step session.locals answers)
    have same : left.host.records = session.host.records := only.records
    rw [answer, host, same]
    exact .failed
  · obtain ⟨answer, host⟩ := Session.step_of_ok (call.run_step session.locals answers)
    have number : session.host.outputNumber = session.host.records.outputCount := by
      rw [Host.outputNumber, numbers.status]
      rfl
    have valid : session.host.records.outputCount ≠ outputFailed := by
      intro last
      have count := numbers.count
      rw [last] at count
      exact absurd count (Nat.ne_of_gt room)
    have records : left.host.records = { output.append session.host.records with
        outputCount := session.host.records.outputCount + 1 } := by
      have same : middle.records = session.host.records := only.records
      rw [told, Host.told, Records.counted, same, numbers.status]
      cases output <;> rfl
    rw [answer, host, records, number]
    exact .taken output valid numbers.count

theorem createBatch_step {items : List BatchItem} {world left : World} {n : UInt32}
    (locals : Locals) (answers : createBatch items world = .ok n left) :
    Step.run locals (.report (.createBatch items)) world = .ok (.word n, locals) left :=
  bind_of_ok (map_of_ok Answer.word answers)

/-- **What a batch does to the number.** -/
theorem Numbers.batch (numbers : Numbers session.host log) (items : List BatchItem) :
    Counted session.host.records items (session.step (.report (.createBatch items))).1.answer
      (session.step (.report (.createBatch items))).2.host.records := by
  rcases createBatch_cases items ⟨session.host, []⟩ with
    ⟨left, answers, only⟩ | ⟨middle, left, short, answers, only, told⟩
  · obtain ⟨answer, host⟩ := Session.step_of_ok (createBatch_step session.locals answers)
    have same : left.host.records = session.host.records := only.records
    rw [answer, host, same]
    exact .failed
  · obtain ⟨answer, host⟩ := Session.step_of_ok (createBatch_step session.locals answers)
    have number : session.host.setup.appendStatus.getD (UInt32.ofNat items.length)
        = UInt32.ofNat items.length := by
      rw [numbers.status]
      rfl
    -- the text is longer than the batch, and the text was sent
    have fewer := length_lt_length_batchText items
    have all : (UInt32.ofNat items.length).toNat = items.length :=
      UInt32.toNat_ofNat_of_lt' (Nat.lt_trans fewer short)
    have valid : UInt32.ofNat items.length ≠ outputFailed := by
      intro last
      have count : outputFailed.toNat = items.length := last ▸ all
      have sentinel : outputFailed.toNat + 1 = UInt32.size := rfl
      omega
    have records : left.host.records = { session.host.records with
        batches := session.host.records.batches ++ [batchText items]
        outputCount := session.host.records.outputCount + UInt32.ofNat items.length } := by
      have same : middle.records = session.host.records := only.records
      rw [told, Host.told, Records.batched, same, numbers.status]
    rw [answer, host, records, number]
    exact .taken valid all

/-- The number is right after a batch. -/
theorem Numbers.of_counted (numbers : Numbers before log) {items : List BatchItem}
    {answer : Answer} (spares : after.SparesNull)
    (status : after.setup.appendStatus = none) {records : Records}
    (counted : Counted before.records items answer records) (same : after.records = records)
    (fewer : created (log ++ [(.report (.createBatch items), answer)]) < UInt32.size - 1) :
    Numbers after (log ++ [(.report (.createBatch items), answer)]) := by
  cases counted with
  | failed => exact numbers.of_failed _ spares status same
  | @taken n valid all =>
    have index : index? (.report (.createBatch items), .word n) = none := rfl
    have size : batched (.report (.createBatch items), .word n) = items.length := by
      simp [batched, Step.batchSize, valid]
    have count := numbers.count
    rw [created_append, created_singleton, index, size] at fewer
    refine numbers.concat spares status ?_ ?_ ?_
    · rw [same, index]
      rfl
    · rw [same, index, size, ← all, Option.toList_none, List.length_nil, Nat.zero_add]
      refine toNat_add_of_lt ?_
      simp only [Option.toList_none, List.length_nil] at fewer
      omega
    · rw [index]
      nofun

/-- Only the calls that append outputs tell the host about outputs. -/
theorem Step.unseen_outputs {step : Step} (single : step.appendsOne = false)
    (batch : ∀ items, step ≠ .report (.createBatch items)) : step.Unseen Records.outputs := by
  cases step with
  | report step =>
    cases step with
    | setReturnData _ | emitEvent _ | logDebug _ | provideEvidence _ _ => exact fun _ _ => rfl
    | createOutput | createLockedOutput | appendState | appendResource => cases single
    | createBatch items => exact absurd rfl (batch items)
    | declareState _ | controlledState _ => trivial
  | builder _ _ | vote _ _ => exact fun _ _ => rfl
  | transfer => exact ⟨fun _ _ => rfl, fun _ _ => rfl, fun _ _ => rfl, fun _ _ => rfl⟩
  | configure _ | reset | dump | memory _ | raw _ | query _ | loadInvocation => trivial

/-- Any other step leaves the number and the outputs alone. -/
theorem Numbers.other (numbers : Numbers session.host log) {step : Step}
    (keeps : step.KeepsNumbering) (single : step.appendsOne = false)
    (batch : ∀ items, step ≠ .report (.createBatch items)) :
    Numbers (session.step step).2.host (log ++ [(step, (session.step step).1.answer)]) := by
  have unseen := Step.unseen_outputs single batch
  have index : index? (step, (session.step step).1.answer) = none := by
    cases (session.step step).1.answer <;> simp [index?, single]
  have batchSize : step.batchSize = 0 := by
    cases step with
    | report step =>
      cases step with
      | createBatch items => exact absurd rfl (batch items)
      | _ => rfl
    | _ => rfl
  have nothing : Taken.batched (step, (session.step step).1.answer) = 0 := by
    cases (session.step step).1.answer <;> simp [batched, batchSize]
  have kept : (session.step step).2.host.SparesNull ∧
      (session.step step).2.host.setup.appendStatus = none ∧
      (session.step step).2.host.records.outputs = session.host.records.outputs := by
    by_cases operation : step.IsOperation
    · obtain ⟨spares, status⟩ := numbers.operation operation
      exact ⟨spares, status, (Session.growth_step operation unseen numbers.spares).shown⟩
    · rw [Session.host_step]
      cases step with
      | configure setting =>
        refine ⟨numbers.spares, ?_, rfl⟩
        cases setting with
        | appendStatus status =>
          cases status with
          | none => rfl
          | some status => exact keeps.elim
        | forget entry => exact (Setup.appendStatus_forget _ entry).trans numbers.status
        | _ => exact numbers.status
      | reset | raw _ => exact keeps.elim
      | dump | memory _ | query _ | report _ | builder _ _ | loadInvocation | transfer
      | vote _ _ => exact absurd trivial operation
  exact numbers.idle kept.1 kept.2.1 kept.2.2 index nothing

/-- **One step.** -/
theorem Numbers.step (numbers : Numbers session.host log) {step : Step}
    (keeps : step.KeepsNumbering)
    (fewer : created (log ++ [(step, (session.step step).1.answer)]) < UInt32.size - 1) :
    Numbers (session.step step).2.host (log ++ [(step, (session.step step).1.answer)]) := by
  have room : created log < UInt32.size - 1 := by
    rw [created_append] at fewer
    omega
  cases single : step.appendsOne with
  | true =>
    obtain ⟨call, rfl⟩ := Step.eq_outputCall single
    obtain ⟨spares, status⟩ := numbers.operation call.isOperation_step
    exact numbers.of_numbered call room spares status (numbers.single room call) rfl
  | false =>
    by_cases batch : ∀ items, step ≠ .report (.createBatch items)
    · exact numbers.other keeps single batch
    · simp only [not_forall, not_not] at batch
      obtain ⟨items, rfl⟩ := batch
      have operation : Step.IsOperation (.report (.createBatch items)) := trivial
      obtain ⟨spares, status⟩ := numbers.operation operation
      exact numbers.of_counted spares status (numbers.batch items) rfl fewer

end Steps

/-! ## A run -/

variable {session : Session} {steps : List (Except BoundaryError Step)}

/-- **A run**, from a fresh host on. -/
theorem numbers_run (fresh : session.host = .initial)
    (keeps : ∀ step, .ok step ∈ steps → step.KeepsNumbering)
    (fewer : created (session.taken steps) < UInt32.size - 1) :
    Numbers (session.run steps).2.host (session.taken steps) := by
  refine Session.run_keeps
    (motive := fun host log => created log < UInt32.size - 1 → Numbers host log)
    (fun _ => ?_) (fun session log step allowed numbers fewer => ?_) keeps fewer
  · rw [fresh]
    exact numbers_initial
  · have before : created log < UInt32.size - 1 := by
      rw [created_append] at fewer
      omega
    exact (numbers before).step allowed fewer

/-- The same at every point of a run. -/
theorem numbers_front (fresh : session.host = .initial)
    (keeps : ∀ step, .ok step ∈ steps → step.KeepsNumbering)
    (fewer : created (session.taken steps) < UInt32.size - 1)
    {front back : List (Except BoundaryError Step)} (whole : steps = front ++ back) :
    created (session.taken front) < UInt32.size - 1 ∧
      Numbers (session.run front).2.host (session.taken front) := by
  subst whole
  rw [Session.taken_append, created_append] at fewer
  have before : created (session.taken front) < UInt32.size - 1 := by omega
  exact ⟨before, numbers_run fresh (fun step mem => keeps step (List.mem_append_left _ mem)) before⟩

/-- A step that appends outputs, one or a batch. -/
def Step.appends : Step → Bool
  | report (.createBatch _) => true
  | step => step.appendsOne

theorem Step.eq_createBatch {step : Step} (appends : step.appends = true)
    (several : step.appendsOne = false) : ∃ items, step = .report (.createBatch items) := by
  cases step with
  | report step =>
    cases step with
    | createBatch items => exact ⟨items, rfl⟩
    | _ => cases appends.symm.trans several
  | _ => cases appends.symm.trans several

/-- The numbering of outputs over a run. -/
structure Session.NumbersOutputs (session : Session) (steps : List (Except BoundaryError Step)) :
    Prop where
  /-- At every point, the count is that of the recorded assets, states and resources,
  together with the items of the batches that succeeded. -/
  count : ∀ front back, steps = front ++ back →
    (session.run front).2.host.records.outputCount.toNat
      = (session.run front).2.host.records.assetOutputs.length
        + (session.run front).2.host.records.stateOutputs.length
        + (session.run front).2.host.records.resourceOutputs.length
        + inBatches (session.taken front)
  /-- Each call for one output fails, or adds one and answers how many were created
  before it. -/
  single : ∀ front (call : OutputCall) back, steps = front ++ .ok call.step :: back →
    Numbered (session.run front).2.host.records (created (session.taken front))
      ((session.run front).2.step call.step).1.answer
      ((session.run front).2.step call.step).2.host.records
  /-- Each batch fails, or adds all of its items and answers how many they are. -/
  batch : ∀ front items back, steps = front ++ .ok (.report (.createBatch items)) :: back →
    Counted (session.run front).2.host.records items
      ((session.run front).2.step (.report (.createBatch items))).1.answer
      ((session.run front).2.step (.report (.createBatch items))).2.host.records
  /-- The indices that were answered increase, so no two of them are the same. -/
  increasing : (indices (session.taken steps)).Pairwise (· < ·)
  /-- A call that answers that it failed left the records as they were. -/
  failed : ∀ front step back, steps = front ++ .ok step :: back → step.appends = true →
    ((session.run front).2.step step).1.answer = .word outputFailed →
    ((session.run front).2.step step).2.host.records = (session.run front).2.host.records

/-- **Outputs are numbered over whole runs**, whichever allocations are granted, as long
as the host answers indices and they do not run out. -/
theorem Session.outputs_numbered (fresh : session.host = .initial)
    (keeps : ∀ step, .ok step ∈ steps → step.KeepsNumbering)
    (fewer : created (session.taken steps) < UInt32.size - 1) : session.NumbersOutputs steps := by
  have here {front back : List (Except BoundaryError Step)} (whole : steps = front ++ back) :=
    numbers_front fresh keeps fewer whole
  have single (front : List (Except BoundaryError Step)) (call : OutputCall)
      (back : List (Except BoundaryError Step)) (whole : steps = front ++ .ok call.step :: back) :=
    (here whole).2.single (here whole).1 call
  have batch (front : List (Except BoundaryError Step)) (items : List BatchItem)
      (back : List (Except BoundaryError Step))
      (whole : steps = front ++ .ok (.report (.createBatch items)) :: back) :=
    (here whole).2.batch items
  refine ⟨?_, single, batch, (numbers_run fresh keeps fewer).increasing, ?_⟩
  · intro front back whole
    obtain ⟨-, numbers⟩ := here whole
    rw [numbers.count, created, ← numbers.singles]
    rfl
  · intro front step back whole appends failed
    cases one : step.appendsOne with
    | true =>
      obtain ⟨call, rfl⟩ := Step.eq_outputCall one
      exact (single front call back whole).unchanged failed
    | false =>
      obtain ⟨items, rfl⟩ := Step.eq_createBatch appends one
      exact (batch front items back whole).unchanged failed

/-- A host with room for fourteen regions numbers an output, a batch of two, a state, a
resource, an output with locking conditions, and an output whose token id found no room.
The last two calls fail. -/
theorem Session.outputs_numbered_scarce :
    let steps : List (Except BoundaryError Step) := [
      .ok (.configure (.allocBudget (some 14))),
      .ok (OutputCall.plain .zero 5 (some "t")).step,
      .ok (.report (.createBatch [⟨.zero, 1, none⟩, ⟨.zero, 2, none⟩])),
      .ok (OutputCall.state [7] 1 .zero (some [1]) (some .zero)).step,
      .ok (OutputCall.resource [8] .zero (some "l")).step,
      .ok (OutputCall.locked .zero 3 (some "t") (some "l")).step,
      .ok (OutputCall.plain .zero 6 (some "t")).step,
      .ok (OutputCall.state [9] 1 .zero none none).step,
      .ok (OutputCall.plain .zero 7 none).step]
    indices (Session.initial.taken steps) = [0, 3, 4, 5, 6] ∧
      Session.initial.NumbersOutputs steps := by
  intro steps
  have ran : indices (Session.initial.taken steps) = [0, 3, 4, 5, 6] ∧
      created (Session.initial.taken steps) < UInt32.size - 1 := by
    decide +kernel
  refine ⟨ran.1, Session.outputs_numbered rfl ?_ ran.2⟩
  intro step mem
  simp only [steps, List.mem_cons, List.not_mem_nil, or_false, Except.ok.injEq] at mem
  rcases mem with rfl | rfl | rfl | rfl | rfl | rfl | rfl | rfl | rfl <;> trivial

end HostBoundary
