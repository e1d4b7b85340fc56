import HostBoundary.Proofs.ReceiptError
import HostBoundary.Session.Basic

/-!
# The life of a builder

A builder is begun, it is asked for things, and it is finalized.  What it is
asked for before the first finalize is its draft; what it is asked for after it
is ignored, and so is every later finalize.  This module says so for whole
sessions, in which several builders share one host with each other and with
everything else that can be done to it.

A session keeps its builders in slots.  A slot that was never used holds a fresh
builder, and starting in a slot begins another one there, so the life of one
builder is what happens in its slot up to the next start.

## What is sent for a builder

`Session.sentBy` is what a single step sends for a builder, and
`Session.sentFrom` what the steps of a run send for it.  The latter cannot be
read off the drafts of the host at the end: a reset in between empties those,
and other steps (the contract, another builder, a draft that is built without
being finalized) send drafts as well.

## Main results

* `Builder.finalize_outcome` — what the first finalize comes to, on every host.
* `Session.builder_lifecycle` — what a run makes of a builder, and what the
  builder sends in it.
-/

namespace HostBoundary

open Guest

/-! ## The outcome of the first finalize -/

/-- The zeros behind a receipt that is shorter than its buffer are padding. -/
theorem Receipt.parse_append_zeros (raw : Bytes) (unused : Nat) :
    parse (raw ++ List.replicate unused 0) = parse raw :=
  parse_append_padding raw isPadding_of_mem_zeros

/-- A result is a success when its code is one, whatever it came from. -/
theorem TransactionResult.success_iff_code_verdict (setup : Setup) :
    (ofOutcome setup.verdict).success = true ↔ (ofOutcome setup.verdict).code = .success := by
  constructor
  · intro success
    obtain ⟨receipt, built⟩ := success_ofOutcome.mp success
    rw [built]
    rfl
  · intro code
    by_contra failed
    exact Setup.code_of_verdict failed code

/-- The result of a draft that the host was sent: the status of the host, where
it is not zero, and else whether the front of its receipt is usable. -/
theorem TransactionResult.ofOutcome_verdict (setup : Setup) :
    ofOutcome setup.verdict =
      if setup.buildStatus ≠ 0 then ⟨false, .ofHost setup.buildStatus⟩
      else if (Receipt.parse (setup.receipt.take 4096)).isOk then ⟨true, .success⟩
      else ⟨false, .executionFailed⟩ := by
  by_cases built : setup.buildStatus = 0
  · have shown : setup.receiptIn receiptCapacity = setup.receipt.take 4096 ++
        List.replicate (4096 - (setup.receipt.take 4096).length) 0 := by
      rw [Setup.receiptIn, if_pos built]
      rfl
    rw [if_neg (not_not_intro built), Setup.verdict, BoundaryError.ofStatus_eq_ok_iff.mpr built,
      shown, Receipt.parse_append_zeros]
    simp only
    cases parsed : Receipt.parse (setup.receipt.take 4096) with
    | ok receipt => rfl
    | error error =>
      rw [Receipt.parse_eq_error parsed]
      rfl
  · rw [if_pos built, Setup.verdict]
    cases status : BoundaryError.ofStatus setup.buildStatus with
    | ok _ => exact absurd (BoundaryError.ofStatus_eq_ok_iff.mp status) built
    | error error =>
      unfold BoundaryError.ofStatus at status
      split at status
      · cases status
      · cases status
        rfl

/-- **The outcome of the first finalize.**  Without room for the draft or for
the receipt it fails, and the host learns nothing of it.  With room for both the
host is sent exactly the draft, and the result is its status, or what the first
4096 bytes of its receipt say; the zeros behind a shorter receipt do not matter.
It is a success when its code is one, and only then. -/
theorem Builder.finalize_outcome (world : World) (builder : Builder)
    (unspent : builder.finalized = false)
    (short : (Utf8.encode builder.draft.text).length < UInt32.size) :
    ∃ result after,
      finalize builder world = .ok (result, { builder with finalized := true }) after ∧
      (¬ world.host.Provides [(Utf8.encode builder.draft.text).length, 4096] →
        result = ⟨false, .executionFailed⟩ ∧ world.host.OnlyAllocated after.host) ∧
      (world.host.Provides [(Utf8.encode builder.draft.text).length, 4096] →
        after.host.records = { world.host.records with
          drafts := world.host.records.drafts ++ [builder.draft.text] } ∧
        result =
          if world.host.setup.buildStatus ≠ 0 then
            ⟨false, .ofHost world.host.setup.buildStatus⟩
          else if (Receipt.parse (world.host.setup.receipt.take 4096)).isOk then
            ⟨true, .success⟩
          else ⟨false, .executionFailed⟩) ∧
      (∀ unused, Receipt.parse (world.host.setup.receipt.take 4096 ++ List.replicate unused 0)
        = Receipt.parse (world.host.setup.receipt.take 4096)) ∧
      (result.success = true ↔ result.code = .success) := by
  have zeros := Receipt.parse_append_zeros (world.host.setup.receipt.take 4096)
  by_cases provided : world.host.Provides [(Utf8.encode builder.draft.text).length, 4096]
  · obtain ⟨middle, after, only, built, told⟩ := build_of_provides short provided
    obtain ⟨trace, answers⟩ := finalize_of_build unspent built
    refine ⟨_, _, answers, fun missing => absurd provided missing, fun _ => ⟨?_, ?_⟩, zeros,
      TransactionResult.success_iff_code_verdict _⟩
    · rw [told, ← only.records]
      rfl
    · exact TransactionResult.ofOutcome_verdict _
  · obtain ⟨after, built, only⟩ := build_of_not_provides short provided
    obtain ⟨trace, answers⟩ := finalize_of_build unspent built
    exact ⟨_, _, answers, fun _ => ⟨rfl, only⟩, fun room => absurd room provided, zeros,
      iff_of_false Bool.false_ne_true nofun⟩

/-- A fresh host takes the empty draft, and its receipt is usable. -/
theorem Builder.finalize_outcome_fresh :
    Host.initial.Provides [(Utf8.encode Builder.fresh.draft.text).length, 4096] ∧
    ∃ after, finalize .fresh ⟨.initial, []⟩ = .ok (⟨true, .success⟩, ⟨.empty, true⟩) after ∧
      after.host.records.drafts =
        ["\x7b\"sign_mode\":\"defer_sign\",\"outputs\":[],\"intents\":[]\x7d"] := by
  have text : Builder.fresh.draft.text =
      "\x7b\"sign_mode\":\"defer_sign\",\"outputs\":[],\"intents\":[]\x7d" := by
    decide
  have size : (Utf8.encode Builder.fresh.draft.text).length = 52 := by
    rw [text]
    decide
  have provided : Host.initial.Provides
      [(Utf8.encode Builder.fresh.draft.text).length, 4096] := by
    rw [size]
    exact Host.provides_of_unlimited rfl (by decide) (by decide)
  have usable : (Receipt.parse (Setup.initial.receipt.take 4096)).isOk = true := by decide
  obtain ⟨result, after, answers, -, outcome, -⟩ :=
    finalize_outcome ⟨.initial, []⟩ .fresh rfl (by rw [size]; decide)
  obtain ⟨records, result_eq⟩ := outcome provided
  have success : result = ⟨true, .success⟩ := by
    rw [result_eq]
    simp only [Host.initial, usable]
    rfl
  refine ⟨provided, after, ?_, ?_⟩
  · rw [answers, success]
    rfl
  · rw [records, text]
    rfl

/-! ## The work on a builder -/

namespace BuilderStep

/-- Whether the step hands the draft over. -/
def isFinalize : BuilderStep → Bool
  | finalize => true
  | _ => false

theorem eq_finalize {step : BuilderStep} (handed : step.isFinalize = true) :
    step = finalize := by
  cases step <;> first | rfl | cases handed

/-- The output that is asked for. -/
def output? : BuilderStep → Option OutputDraft
  | addOutput output => some output
  | _ => none

/-- The intent that is asked for. -/
def intent? : BuilderStep → Option IntentDraft
  | addIntent intent => some intent
  | _ => none

/-- The sign mode that is set. -/
def signMode? : BuilderStep → Option SignMode
  | setSignMode mode => some mode
  | _ => none

/-- The builder that a step leaves, whatever the host answers. -/
def leaves (builder : Builder) : BuilderStep → Builder
  | start => .fresh
  | addOutput output => builder.addOutput output
  | addIntent intent => builder.addIntent intent
  | setSignMode mode => builder.setSignMode mode
  | finalize => { builder with finalized := true }
  | build => builder

end BuilderStep

/-- The draft that was asked for by some work: all outputs and all intents, in
order, and the last sign mode. -/
def Draft.asked (work : List BuilderStep) : Draft where
  signMode := (work.filterMap BuilderStep.signMode?).getLastD .deferSign
  outputs := work.filterMap BuilderStep.output?
  intents := work.filterMap BuilderStep.intent?

/-- The work before the first finalize. -/
def beforeFinalize (work : List BuilderStep) : List BuilderStep :=
  work.takeWhile fun step => !step.isFinalize

theorem beforeFinalize_append (front back : List BuilderStep) :
    beforeFinalize (front ++ .finalize :: back) = beforeFinalize front := by
  induction front with
  | nil => rfl
  | cons step front ih =>
    rw [List.cons_append, beforeFinalize, beforeFinalize, List.takeWhile_cons,
      List.takeWhile_cons, ← beforeFinalize, ← beforeFinalize, ih]

section Work

variable {builder : Builder} {step : BuilderStep} {work past : List BuilderStep}

/-- A second finalize is refused before it comes to the host. -/
theorem BuilderStep.run_finalize_of_finalized (spent : builder.finalized = true)
    (world : World) :
    finalize.run builder world = .ok (.outcome (.failed .invalidState), builder) world := by
  have refused : Guest.finalize builder world
      = .ok (.failed .invalidState, builder) world := by
    simp only [Guest.finalize, spent, if_true]
    rfl
  rw [run, bind_of_ok refused]
  rfl

/-- A builder that was finalized stays as it is, until it is begun anew. -/
theorem leaves_of_finalized (spent : builder.finalized = true) (goesOn : step ≠ .start) :
    step.leaves builder = builder := by
  cases step with
  | start => exact absurd rfl goesOn
  | addOutput _ => rw [BuilderStep.leaves, Builder.addOutput, Builder.edit_finalized spent]
  | addIntent _ => rw [BuilderStep.leaves, Builder.addIntent, Builder.edit_finalized spent]
  | setSignMode _ => rw [BuilderStep.leaves, Builder.setSignMode, Builder.edit_finalized spent]
  | finalize =>
    obtain ⟨draft, _⟩ := builder
    cases spent
    rfl
  | build => rfl

/-- **A step on a builder never ends in a fault**, and what it leaves of the
builder does not depend on the host. -/
theorem BuilderStep.run_leaves (step : BuilderStep) (builder : Builder) (world : World) :
    ∃ answer after, step.run builder world = .ok (answer, step.leaves builder) after := by
  cases step with
  | start | addOutput _ | addIntent _ | setSignMode _ => exact ⟨_, _, rfl⟩
  | finalize =>
    by_cases spent : builder.finalized = true
    · have kept : finalize.leaves builder = builder := leaves_of_finalized spent nofun
      rw [kept]
      exact ⟨_, _, run_finalize_of_finalized spent world⟩
    · obtain ⟨result, after, answers, -⟩ := finalize_cases world (Bool.eq_false_iff.mpr spent)
      rw [run, bind_of_ok answers]
      exact ⟨_, _, rfl⟩
  | build =>
    obtain ⟨outcome, after, answers, -⟩ := build_cases world builder.draft
    rw [run, bind_of_ok answers]
    exact ⟨_, _, rfl⟩

theorem foldl_leaves_of_finalized (spent : builder.finalized = true)
    (goesOn : BuilderStep.start ∉ work) :
    work.foldl BuilderStep.leaves builder = builder := by
  induction work with
  | nil => rfl
  | cons step work ih =>
    rw [List.mem_cons, not_or] at goesOn
    rw [List.foldl_cons, leaves_of_finalized spent (Ne.symm goesOn.1)]
    exact ih goesOn.2

/-- What is asked for next comes behind what was asked for. -/
theorem leaves_asked (goesOn : step ≠ .start) (open' : step.isFinalize = false) :
    step.leaves ⟨.asked past, false⟩ = ⟨.asked (past ++ [step]), false⟩ := by
  cases step with
  | start => exact absurd rfl goesOn
  | finalize => cases open'
  | addOutput _ | addIntent _ | setSignMode _ | build =>
    simp [BuilderStep.leaves, Builder.addOutput, Builder.addIntent, Builder.setSignMode,
      Builder.edit, Draft.asked, List.filterMap_append, BuilderStep.output?, BuilderStep.intent?,
      BuilderStep.signMode?]

/-- **What work makes of a builder**: all that was asked for before the first
finalize, and whether there was one. -/
theorem foldl_leaves_asked (goesOn : BuilderStep.start ∉ work) :
    work.foldl BuilderStep.leaves ⟨.asked past, false⟩
      = ⟨.asked (past ++ beforeFinalize work), work.any BuilderStep.isFinalize⟩ := by
  induction work generalizing past with
  | nil => simp [beforeFinalize]
  | cons step work ih =>
    rw [List.mem_cons, not_or] at goesOn
    rw [List.foldl_cons]
    cases handed : step.isFinalize with
    | true =>
      rw [BuilderStep.eq_finalize handed, BuilderStep.leaves, foldl_leaves_of_finalized rfl goesOn.2]
      simp [beforeFinalize, BuilderStep.isFinalize]
    | false =>
      -- what was asked for so far grows by one, which is what the induction is over
      rw [leaves_asked (Ne.symm goesOn.1) handed, ih goesOn.2]
      simp [beforeFinalize, handed]

end Work

/-! ## Builders in a session -/

/-- The work on one builder that a step of a session is, if it is any. -/
def workOn? (slot : UInt32) : Except BoundaryError Step → Option BuilderStep
  | .ok (.builder other work) => if other = slot then some work else none
  | _ => none

/-- The work on one builder among the steps of a session. -/
def workOn (slot : UInt32) (steps : List (Except BoundaryError Step)) : List BuilderStep :=
  steps.filterMap (workOn? slot)

/-- Whether a builder is finalized among the steps of a session. -/
def finalizes (slot : UInt32) (steps : List (Except BoundaryError Step)) : Bool :=
  (workOn slot steps).any BuilderStep.isFinalize

theorem workOn_append (slot : UInt32) (front back : List (Except BoundaryError Step)) :
    workOn slot (front ++ back) = workOn slot front ++ workOn slot back :=
  List.filterMap_append

theorem workOn?_eq_some {slot : UInt32} {step : Except BoundaryError Step} {work : BuilderStep} :
    workOn? slot step = some work ↔ step = .ok (.builder slot work) := by
  constructor
  · intro isWork
    unfold workOn? at isWork
    split at isWork
    · next other own =>
      split at isWork
      · next same =>
        cases isWork
        rw [same]
      · cases isWork
    · cases isWork
  · rintro rfl
    exact if_pos rfl

theorem workOn_finalize_cons (slot : UInt32) (steps : List (Except BoundaryError Step)) :
    workOn slot (.ok (.builder slot .finalize) :: steps) = .finalize :: workOn slot steps :=
  List.filterMap_cons_some (workOn?_eq_some.mpr rfl)

theorem finalizes_iff_mem {slot : UInt32} {steps : List (Except BoundaryError Step)} :
    finalizes slot steps = true ↔ .ok (.builder slot .finalize) ∈ steps := by
  rw [finalizes, List.any_eq_true]
  constructor
  · rintro ⟨work, isWork, handed⟩
    obtain ⟨step, mem, found⟩ := List.mem_filterMap.mp isWork
    rw [BuilderStep.eq_finalize handed, workOn?_eq_some] at found
    exact found ▸ mem
  · intro mem
    exact ⟨.finalize, List.mem_filterMap.mpr ⟨_, mem, workOn?_eq_some.mpr rfl⟩, rfl⟩

theorem Locals.builder_setBuilder_self (locals : Locals) (slot : UInt32) (builder : Builder) :
    (locals.setBuilder slot builder).builder slot = builder := by
  rw [Locals.builder, setBuilder, Table.find?_insert_self]
  rfl

theorem Locals.builder_setBuilder_of_ne (locals : Locals) {slot other : UInt32}
    (ne : other ≠ slot) (builder : Builder) :
    (locals.setBuilder slot builder).builder other = locals.builder other := by
  rw [Locals.builder, setBuilder, Table.find?_insert_of_ne _ ne]
  rfl

/-- A step that is no work on a builder leaves all builders as they are. -/
theorem Step.builders_of_run {step : Step} (elsewhere : ∀ slot work, step ≠ .builder slot work)
    {locals left : Locals} {world after : World} {answer : Answer}
    (answers : step.run locals world = .ok (answer, left) after) :
    left.builders = locals.builders := by
  cases step with
  | builder slot work => exact absurd rfl (elsewhere slot work)
  | configure _ | reset | dump =>
    cases answers
    rfl
  | memory _ | raw _ | query _ | report _ | loadInvocation =>
    obtain ⟨_, _, -, second⟩ := bind_eq_ok_iff.mp answers
    cases second
    rfl
  | transfer | vote _ _ =>
    obtain ⟨_, _, -, second⟩ := bind_eq_ok_iff.mp answers
    obtain ⟨_, _, -, third⟩ := bind_eq_ok_iff.mp second
    cases third
    rfl

namespace Session

variable {session : Session} {slot : UInt32} {steps front back : List (Except BoundaryError Step)}

/-- Work on a builder, as a step of a session. -/
theorem step_builder (session : Session) (slot : UInt32) (work : BuilderStep) :
    ∃ answer after,
      work.run (session.locals.builder slot) ⟨session.host, []⟩
        = .ok (answer, work.leaves (session.locals.builder slot)) after ∧
      session.step (.builder slot work) = (⟨answer, after.host.arena.length, after.trace⟩,
        ⟨after.host, session.locals.setBuilder slot
          (work.leaves (session.locals.builder slot))⟩) := by
  obtain ⟨answer, after, answers⟩ :=
    work.run_leaves (session.locals.builder slot) ⟨session.host, []⟩
  refine ⟨answer, after, answers, ?_⟩
  have ran : (Step.builder slot work).run session.locals ⟨session.host, []⟩
      = .ok (answer, session.locals.setBuilder slot
          (work.leaves (session.locals.builder slot))) after := by
    rw [Step.run, bind_of_ok answers]
    rfl
  rw [Session.step, ran, ← Host.size_memory]

/-- **What one step makes of a builder.**  Only work on that builder counts. -/
theorem builder_step (session : Session) (slot : UInt32) (step : Step) :
    (session.step step).2.locals.builder slot
      = (workOn? slot (.ok step)).elim (session.locals.builder slot)
          (BuilderStep.leaves (session.locals.builder slot)) := by
  by_cases elsewhere : ∀ other work, step ≠ .builder other work
  · have nothing : workOn? slot (.ok step) = none := by
      cases step with
      | builder other work => exact absurd rfl (elsewhere other work)
      | _ => rfl
    rw [nothing, Session.step]
    cases ran : step.run session.locals ⟨session.host, []⟩ with
    | error fault after => rfl
    | ok answered after =>
      obtain ⟨answer, left⟩ := answered
      have same := Step.builders_of_run elsewhere ran
      show (left.builders.find? slot).getD .fresh = _
      rw [same]
      rfl
  · simp only [not_forall, not_not] at elsewhere
    obtain ⟨other, work, rfl⟩ := elsewhere
    obtain ⟨answer, after, -, taken⟩ := session.step_builder other work
    rw [taken]
    by_cases same : other = slot
    · subst same
      rw [Locals.builder_setBuilder_self, workOn?, if_pos rfl]
      rfl
    · rw [Locals.builder_setBuilder_of_ne _ (Ne.symm same), workOn?, if_neg same]
      rfl

/-- **What a run makes of a builder.** -/
theorem builder_run (session : Session) (slot : UInt32)
    (steps : List (Except BoundaryError Step)) :
    (session.run steps).2.locals.builder slot
      = (workOn slot steps).foldl BuilderStep.leaves (session.locals.builder slot) := by
  induction steps generalizing session with
  | nil => rfl
  | cons first rest ih =>
    cases first with
    | error error => exact ih session
    | ok first =>
      rw [run_ok_cons, ih, builder_step, workOn, workOn, List.filterMap_cons]
      cases workOn? slot (.ok first) <;> rfl

/-- A run in two parts. -/
theorem run_append (session : Session) (front back : List (Except BoundaryError Step)) :
    (session.run (front ++ back)).2 = ((session.run front).2.run back).2 := by
  induction front generalizing session with
  | nil => rfl
  | cons first rest ih =>
    cases first with
    | error error => exact ih session
    | ok first => exact ih (session.step first).2

/-! ## What a builder sends -/

/-- What a step sends for a builder: what it adds to the drafts of the host, if
it is work on that builder.  Building a draft without finalizing does not count,
since the builder has no part in it. -/
def sentBy (slot : UInt32) (session : Session) (step : Step) : List String :=
  match workOn? slot (.ok step) with
  | none | some .build => []
  | some _ => (session.step step).2.host.records.drafts.drop session.host.records.drafts.length

/-- What the steps of a run send for a builder. -/
def sentFrom (slot : UInt32) : Session → List (Except BoundaryError Step) → List String
  | _, [] => []
  | session, .error _ :: rest => sentFrom slot session rest
  | session, .ok first :: rest =>
    session.sentBy slot first ++ sentFrom slot (session.step first).2 rest

theorem sentFrom_append (session : Session) (front back : List (Except BoundaryError Step)) :
    sentFrom slot session (front ++ back)
      = sentFrom slot session front ++ sentFrom slot (session.run front).2 back := by
  induction front generalizing session with
  | nil => rfl
  | cons first rest ih =>
    cases first with
    | error error => exact ih session
    | ok first =>
      rw [List.cons_append, sentFrom, sentFrom, ih, List.append_assoc]
      rfl

/-- Only a finalize that is the first sends anything. -/
theorem sentBy_eq_nil {step : Step} (quiet : ∀ work ∈ workOn? slot (.ok step),
      work.isFinalize = true → (session.locals.builder slot).finalized = true) :
    session.sentBy slot step = [] := by
  cases step with
  | builder other work =>
    by_cases same : other = slot
    · subst same
      have isWork : workOn? other (.ok (.builder other work)) = some work := if_pos rfl
      obtain ⟨answer, after, answers, taken⟩ := session.step_builder other work
      rw [sentBy, isWork, taken]
      cases work with
      | build => rfl
      | finalize =>
        have spent := quiet _ isWork rfl
        rw [BuilderStep.run_finalize_of_finalized spent] at answers
        obtain ⟨-, rfl⟩ := EStateM.Result.ok.inj answers
        exact List.drop_length
      | start | addOutput _ | addIntent _ | setSignMode _ =>
        cases answers
        exact List.drop_length
    · have notWork : workOn? slot (.ok (.builder other work)) = none := if_neg same
      rw [sentBy, notWork]
  | _ => rfl

/-- **A finalize that is the first sends the draft, or nothing.** -/
theorem sentBy_finalize (unspent : (session.locals.builder slot).finalized = false) :
    (session.sentBy slot (.builder slot .finalize) = [] ∨
      session.sentBy slot (.builder slot .finalize)
        = [(session.locals.builder slot).draft.text]) ∧
    (session.step (.builder slot .finalize)).2.host.records.drafts
      = session.host.records.drafts ++ session.sentBy slot (.builder slot .finalize) := by
  obtain ⟨result, left, finalized, told⟩ := finalize_cases ⟨session.host, []⟩ unspent
  obtain ⟨answer, after, answers, taken⟩ := session.step_builder slot .finalize
  have isWork : workOn? slot (.ok (.builder slot .finalize)) = some .finalize := if_pos rfl
  rw [BuilderStep.run, bind_of_ok finalized] at answers
  obtain ⟨-, rfl⟩ := EStateM.Result.ok.inj answers
  rw [sentBy, isWork, taken]
  rcases told with ⟨-, records⟩ | ⟨-, -, records⟩
  · simp [records]
  · simp [records]

/-- A run sends nothing for a builder that it does not finalize, and nothing for
one that was finalized before. -/
theorem sentFrom_eq_nil (quiet : finalizes slot steps = true →
      (session.locals.builder slot).finalized = true ∧ BuilderStep.start ∉ workOn slot steps) :
    sentFrom slot session steps = [] := by
  unfold finalizes at quiet
  induction steps generalizing session with
  | nil => rfl
  | cons first rest ih =>
    cases first with
    | error error => exact ih quiet
    | ok first =>
      cases isWork : workOn? slot (.ok first) with
      | none =>
        have work : workOn slot (.ok first :: rest) = workOn slot rest :=
          List.filterMap_cons_none isWork
        rw [work] at quiet
        have same := session.builder_step slot first
        rw [isWork] at same
        have nothing : session.sentBy slot first = [] :=
          sentBy_eq_nil fun _ mem => by rw [isWork] at mem; cases mem
        rw [sentFrom, nothing, List.nil_append]
        exact ih fun handed => same ▸ quiet handed
      | some own =>
        have work : workOn slot (.ok first :: rest) = own :: workOn slot rest :=
          List.filterMap_cons_some isWork
        rw [work] at quiet
        have left := session.builder_step slot first
        rw [isWork] at left
        have nothing : session.sentBy slot first = [] := by
          refine sentBy_eq_nil fun found mem handed => ?_
          rw [isWork] at mem
          cases mem
          exact (quiet (by rw [List.any_cons, handed, Bool.true_or])).1
        rw [sentFrom, nothing, List.nil_append]
        refine ih fun handed => ?_
        obtain ⟨spent, goesOn⟩ := quiet (by rw [List.any_cons, handed, Bool.or_true])
        rw [List.mem_cons, not_or] at goesOn
        refine ⟨?_, goesOn.2⟩
        rw [left]
        show (own.leaves _).finalized = true
        rw [leaves_of_finalized spent (Ne.symm goesOn.1), spent]

/-- Before the first finalize nothing was sent, and after it nothing is. -/
theorem sentFrom_of_first (isOpen : finalizes slot front = false)
    (goesOn : BuilderStep.start ∉ workOn slot (front ++ .ok (.builder slot .finalize) :: back)) :
    sentFrom slot session (front ++ .ok (.builder slot .finalize) :: back)
      = (session.run front).2.sentBy slot (.builder slot .finalize) := by
  have before : sentFrom slot session front = [] :=
    sentFrom_eq_nil fun handed => absurd handed (Bool.eq_false_iff.mp isOpen)
  have stays : BuilderStep.start ∉ workOn slot back := by
    rw [workOn_append, workOn_finalize_cons] at goesOn
    exact fun mem => goesOn (List.mem_append_right _ (List.mem_cons_of_mem _ mem))
  have spent : (((session.run front).2.step (.builder slot .finalize)).2.locals.builder
      slot).finalized = true := by
    rw [builder_step, workOn?_eq_some.mpr rfl]
    rfl
  rw [sentFrom_append, before, sentFrom, sentFrom_eq_nil fun _ => ⟨spent, stays⟩,
    List.nil_append, List.append_nil]

/-! ## The whole life -/

/-- What a builder that was begun anew holds after a run. -/
theorem builder_run_of_fresh (isFresh : session.locals.builder slot = .fresh)
    (goesOn : BuilderStep.start ∉ workOn slot steps) :
    (session.run steps).2.locals.builder slot
      = ⟨.asked (beforeFinalize (workOn slot steps)), finalizes slot steps⟩ := by
  have nothing : Builder.fresh = ⟨.asked [], false⟩ := rfl
  rw [builder_run, isFresh, nothing, foldl_leaves_asked goesOn, List.nil_append]
  rfl

theorem settled_of_finalized (spent : (session.locals.builder slot).finalized = true)
    (goesOn : BuilderStep.start ∉ workOn slot steps) :
    (session.run steps).2.locals.builder slot = session.locals.builder slot := by
  rw [builder_run, foldl_leaves_of_finalized spent goesOn]

/-- **A second finalize is an invalid state and changes nothing.** -/
theorem step_finalize_of_finalized (spent : (session.locals.builder slot).finalized = true) :
    (session.step (.builder slot .finalize)).1
      = ⟨.outcome (.failed .invalidState), session.host.arena.length, []⟩ ∧
    (session.step (.builder slot .finalize)).2.host = session.host ∧
    ∀ other, (session.step (.builder slot .finalize)).2.locals.builder other
      = session.locals.builder other := by
  obtain ⟨answer, after, answers, taken⟩ := session.step_builder slot .finalize
  have kept : BuilderStep.finalize.leaves (session.locals.builder slot)
      = session.locals.builder slot := leaves_of_finalized spent nofun
  rw [BuilderStep.run_finalize_of_finalized spent] at answers
  obtain ⟨answered, rfl⟩ := EStateM.Result.ok.inj answers
  obtain ⟨rfl, -⟩ := Prod.mk.inj answered
  rw [taken, kept]
  refine ⟨rfl, rfl, fun other => ?_⟩
  by_cases same : other = slot
  · rw [same, Locals.builder_setBuilder_self]
  · rw [Locals.builder_setBuilder_of_ne _ same]

/-- What a builder holds when it is finalized for the first time. -/
theorem builder_at_first (isFresh : session.locals.builder slot = .fresh)
    (goesOn : BuilderStep.start ∉ workOn slot (front ++ .ok (.builder slot .finalize) :: back))
    (isOpen : finalizes slot front = false) :
    (session.run front).2.locals.builder slot
      = ⟨.asked (beforeFinalize (workOn slot (front ++ .ok (.builder slot .finalize) :: back))),
          false⟩ := by
  rw [workOn_append, List.mem_append, not_or] at goesOn
  rw [builder_run_of_fresh isFresh goesOn.1, isOpen, workOn_append, workOn_finalize_cons,
    beforeFinalize_append]

/-- The life of a builder in a run. -/
structure Lifecycle (session : Session) (slot : UInt32)
    (steps : List (Except BoundaryError Step)) : Prop where
  /-- The builder holds what it was asked for before the first finalize, and
  knows whether there was one. -/
  builder : (session.run steps).2.locals.builder slot
    = ⟨.asked (beforeFinalize (workOn slot steps)), finalizes slot steps⟩
  /-- Once it was finalized it never changes, whatever is done next. -/
  settled : finalizes slot steps = true → ∀ later, BuilderStep.start ∉ workOn slot later →
    (session.run (steps ++ later)).2.locals.builder slot
      = (session.run steps).2.locals.builder slot
  /-- Once it was finalized, finalizing is an invalid state.  It changes nothing
  on the host, leaves all builders as they are, and has no line in the trace. -/
  spent : finalizes slot steps = true →
    ((session.run steps).2.step (.builder slot .finalize)).1
      = ⟨.outcome (.failed .invalidState), (session.run steps).2.host.arena.length, []⟩ ∧
    ((session.run steps).2.step (.builder slot .finalize)).2.host = (session.run steps).2.host ∧
    ∀ other, ((session.run steps).2.step (.builder slot .finalize)).2.locals.builder other
      = (session.run steps).2.locals.builder other
  /-- What is not finalized sends nothing. -/
  unsent : finalizes slot steps = false → sentFrom slot session steps = []
  /-- At most one draft is sent, and it is the one that the builder holds. -/
  once : sentFrom slot session steps = [] ∨
    sentFrom slot session steps = [(Draft.asked (beforeFinalize (workOn slot steps))).text]
  /-- It is the first finalize that sends it, and the host is told it then. -/
  byFirst : ∀ front back, steps = front ++ .ok (.builder slot .finalize) :: back →
    finalizes slot front = false →
    sentFrom slot session steps
      = (session.run front).2.sentBy slot (.builder slot .finalize) ∧
    ((session.run front).2.step (.builder slot .finalize)).2.host.records.drafts
      = (session.run front).2.host.records.drafts ++ sentFrom slot session steps

/-- **The life of a builder.**  A builder that was begun anew holds what it is
asked for before its first finalize, sends that at most once, and is settled
afterwards, whatever else is done in the session.  The steps are those of one
life: no other builder is started in its slot. -/
theorem builder_lifecycle (session : Session) (slot : UInt32)
    (isFresh : session.locals.builder slot = .fresh)
    (steps : List (Except BoundaryError Step)) (goesOn : BuilderStep.start ∉ workOn slot steps) :
    session.Lifecycle slot steps := by
  have builder := builder_run_of_fresh isFresh goesOn
  have spent (handed : finalizes slot steps = true) :
      ((session.run steps).2.locals.builder slot).finalized = true := by
    rw [builder]
    exact handed
  have unsent (isOpen : finalizes slot steps = false) : sentFrom slot session steps = [] :=
    sentFrom_eq_nil fun handed => absurd handed (Bool.eq_false_iff.mp isOpen)
  refine ⟨builder, fun handed later stays => ?_,
    fun handed => step_finalize_of_finalized (spent handed), unsent, ?_, ?_⟩
  · rw [run_append]
    exact settled_of_finalized (spent handed) stays
  · by_cases handed : finalizes slot steps = true
    · obtain ⟨front, back, rfl, notBefore⟩ :=
        List.eq_append_cons_of_mem (finalizes_iff_mem.mp handed)
      have isOpen : finalizes slot front = false :=
        Bool.eq_false_iff.mpr (mt finalizes_iff_mem.mp notBefore)
      have here := builder_at_first isFresh goesOn isOpen
      have sends := (sentBy_finalize (congrArg Builder.finalized here)).1
      rw [here] at sends
      rw [sentFrom_of_first isOpen goesOn]
      exact sends
    · exact .inl (unsent (Bool.eq_false_iff.mpr handed))
  · rintro front back rfl isOpen
    have here := builder_at_first isFresh goesOn isOpen
    rw [sentFrom_of_first isOpen goesOn]
    exact ⟨rfl, (sentBy_finalize (congrArg Builder.finalized here)).2⟩

/-- A run in which the first finalize of a builder finds no room.  The host is
then reset, the builder is asked for more, and another builder is finalized. -/
def refusedRun : List (Except BoundaryError Step) :=
  [.ok (.configure (.failAlloc true)), .ok (.builder 0 (.setSignMode .delegated)),
    .ok (.builder 0 .finalize), .ok .reset, .ok (.builder 0 (.setSignMode .paymaster)),
    .ok (.builder 1 .finalize)]

/-- A run in which the first finalize of a builder finds room.  Another builder is finalized
behind it, and the first one is asked for more and finalized again. -/
def sentRun : List (Except BoundaryError Step) :=
  [.ok (.builder 0 (.setSignMode .delegated)), .ok (.builder 1 (.setSignMode .threshold)),
    .ok (.builder 0 .finalize), .ok (.builder 1 .finalize),
    .ok (.builder 0 (.setSignMode .paymaster)), .ok (.builder 0 .finalize)]

/-- Where its first finalize was refused, the builder keeps what it was asked for first, and
does not get a second try.  Where it was not, that finalize records the draft, and nothing
that the builder is asked for later is sent. -/
theorem builder_lifecycle_refused :
    (initial.locals.builder 0 = .fresh ∧ BuilderStep.start ∉ workOn 0 refusedRun ∧
      (initial.run refusedRun).2.locals.builder 0 = ⟨⟨.delegated, [], []⟩, true⟩ ∧
      ((initial.run refusedRun).2.step (.builder 0 .finalize)).1.answer
        = .outcome (.failed .invalidState)) ∧
    let sent := "\x7b\"sign_mode\":\"delegated\",\"outputs\":[],\"intents\":[]\x7d"
    BuilderStep.start ∉ workOn 0 sentRun ∧
    ((initial.run (sentRun.take 2)).2.step (.builder 0 .finalize)).2.host.records.drafts = [sent] ∧
    sentFrom 0 initial sentRun = [sent] := by
  have goesOn : BuilderStep.start ∉ workOn 0 refusedRun := by
    simp [workOn, workOn?, refusedRun]
  have life := builder_lifecycle initial 0 rfl refusedRun goesOn
  have handed : finalizes 0 refusedRun = true := rfl
  refine ⟨⟨rfl, goesOn, life.builder, congrArg StepReply.answer (life.spent handed).1⟩, ?_⟩
  intro sent
  have goesOn : BuilderStep.start ∉ workOn 0 sentRun := by simp [workOn, workOn?, sentRun]
  have life := builder_lifecycle initial 0 rfl sentRun goesOn
  have something : sentFrom 0 initial sentRun ≠ [] := by decide +kernel
  have once : sentFrom 0 initial sentRun = [sent] := life.once.resolve_left something
  have recorded := (life.byFirst (sentRun.take 2) (sentRun.drop 3) rfl rfl).2
  rw [once] at recorded
  exact ⟨goesOn, recorded, once⟩

end Session

end HostBoundary
