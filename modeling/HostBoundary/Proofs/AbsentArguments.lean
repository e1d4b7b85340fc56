import Mathlib.Data.List.Forall2
import HostBoundary.Proofs.Builders

/-!
# Absent and empty arguments

Some arguments may be missing: token ids, locking conditions, public inputs.  A
missing one and an empty one mean the same, and they are written in three ways:
as the null pointer in a call, as the empty hexadecimal text in a draft, and as
`null` in a batch.  None of them may tell the two apart, and none of them may
allocate for one and not for the other, since an allocation that one of two runs
makes shows in every later pointer and in what is left of the budget.

## Two runs

The property is one of two runs.  The steps of the second run are those of the
first, where empty values stand in for some of the arguments that are missing
(`Step.Filled`).  Both runs begin in the same session, which may be any.  They go
through the same hosts and are replied to alike.

## What is alike

Hosts, traces, lengths of the arena and answers are the same in both runs.  The
exception are the answers that show a builder as it stands, since a builder
remembers what it was asked for.  Builders are alike when their drafts have the
same text (`Builder.Filled`), which is all that a host is ever told of one.

## Main results

* `QueryStep.run_filled`, `ReportStep.run_filled` — a call with a missing argument
  is the same computation as the call with an empty one.
* `Session.run_absent_empty` — two runs that differ in missing and empty arguments.
-/

namespace HostBoundary

/-- The second argument is the first one, or the empty value in the place of no
value. -/
inductive Fills {α : Type} (empty : α) : Option α → Option α → Prop
  | same (argument : Option α) : Fills empty argument argument
  | blank : Fills empty none (some empty)

/-! ## Drafts and batches -/

/-- An output with its missing token id filled. -/
inductive OutputDraft.Filled : OutputDraft → OutputDraft → Prop
  | same (output : OutputDraft) : Filled output output
  | asset (owner : Address) (amount : UInt64) {tokenId tokenId' : Option String}
      (token : Fills "" tokenId tokenId') :
      Filled (.asset owner amount tokenId) (.asset owner amount tokenId')

/-- An intent with its missing token id filled. -/
inductive IntentDraft.Filled : IntentDraft → IntentDraft → Prop
  | same (intent : IntentDraft) : Filled intent intent
  | transfer (sender recipient : Address) (amount : UInt64) {tokenId tokenId' : Option String}
      (token : Fills "" tokenId tokenId') :
      Filled (.transfer sender recipient amount tokenId)
        (.transfer sender recipient amount tokenId')

/-- A draft with missing token ids filled. -/
structure Draft.Filled (draft draft' : Draft) : Prop where
  signMode : draft.signMode = draft'.signMode
  outputs : List.Forall₂ OutputDraft.Filled draft.outputs draft'.outputs
  intents : List.Forall₂ IntentDraft.Filled draft.intents draft'.intents

/-- An item of a batch with its missing token id filled. -/
structure BatchItem.Filled (item item' : BatchItem) : Prop where
  recipient : item.recipient = item'.recipient
  amount : item.amount = item'.amount
  token : Fills "" item.tokenId item'.tokenId

theorem map_eq_of_forall₂ {α β : Type} {R : α → α → Prop} {f : α → β}
    (same : ∀ a a', R a a' → f a = f a') {as as' : List α} (related : List.Forall₂ R as as') :
    as.map f = as'.map f := by
  induction related with
  | nil => rfl
  | cons head _ ih => rw [List.map_cons, List.map_cons, same _ _ head, ih]

theorem tokenHex_filled {tokenId tokenId' : Option String} (token : Fills "" tokenId tokenId') :
    tokenHex tokenId = tokenHex tokenId' := by
  cases token with
  | same => rfl
  | blank => rfl

theorem OutputDraft.text_filled (output output' : OutputDraft)
    (filled : OutputDraft.Filled output output') : output.text = output'.text := by
  cases filled with
  | same => rfl
  | asset owner amount token =>
    simp only [OutputDraft.text, OutputDraft.fields, OutputDraft.typeName, tokenHex_filled token]

theorem IntentDraft.text_filled (intent intent' : IntentDraft)
    (filled : IntentDraft.Filled intent intent') : intent.text = intent'.text := by
  cases filled with
  | same => rfl
  | transfer sender recipient amount token =>
    simp only [IntentDraft.text, IntentDraft.params, IntentDraft.typeName, tokenHex_filled token]

/-- **The text of a draft does not tell missing token ids from empty ones.** -/
theorem Draft.text_filled {draft draft' : Draft} (filled : draft.Filled draft') :
    draft.text = draft'.text := by
  unfold Draft.text
  rw [filled.signMode, map_eq_of_forall₂ OutputDraft.text_filled filled.outputs,
    map_eq_of_forall₂ IntentDraft.text_filled filled.intents]

theorem BatchItem.tokenText_filled {tokenId tokenId' : Option String}
    (token : Fills "" tokenId tokenId') : tokenText tokenId = tokenText tokenId' := by
  cases token with
  | same => rfl
  | blank => rfl

theorem BatchItem.text_filled (item item' : BatchItem) (filled : item.Filled item') :
    item.text = item'.text := by
  unfold BatchItem.text
  rw [filled.recipient, filled.amount, tokenText_filled filled.token]

/-! ## Calls -/

/-- A question with its missing argument filled. -/
inductive QueryStep.Filled : QueryStep → QueryStep → Prop
  | same (step : QueryStep) : Filled step step
  | balance (address : Address) {tokenId tokenId' : Option String}
      (token : Fills "" tokenId tokenId') :
      Filled (.balance address tokenId) (.balance address tokenId')

/-- A report with any of its missing arguments filled.  The hash of a parent is not
among them, since no hash is empty. -/
inductive ReportStep.Filled : ReportStep → ReportStep → Prop
  | same (step : ReportStep) : Filled step step
  | createOutput (recipient : Address) (amount : UInt64) {tokenId tokenId' : Option String}
      (token : Fills "" tokenId tokenId') :
      Filled (.createOutput recipient amount tokenId) (.createOutput recipient amount tokenId')
  | createLockedOutput (recipient : Address) (amount : UInt64)
      {tokenId tokenId' locking locking' : Option String}
      (token : Fills "" tokenId tokenId') (conditions : Fills "" locking locking') :
      Filled (.createLockedOutput recipient amount tokenId locking)
        (.createLockedOutput recipient amount tokenId' locking')
  | appendState (stateId : Bytes) (version : UInt64) (execHash : Hash)
      {inputs inputs' : Option Bytes} (parentHash : Option Hash)
      (publicInputs : Fills [] inputs inputs') :
      Filled (.appendState stateId version execHash inputs parentHash)
        (.appendState stateId version execHash inputs' parentHash)
  | appendResource (resource : Bytes) (owner : Address) {locking locking' : Option String}
      (conditions : Fills "" locking locking') :
      Filled (.appendResource resource owner locking) (.appendResource resource owner locking')
  | createBatch {items items' : List BatchItem}
      (tokens : List.Forall₂ BatchItem.Filled items items') :
      Filled (.createBatch items) (.createBatch items')

namespace Guest

theorem optionalText_filled {text text' : Option String} (filled : Fills "" text text') :
    optionalText text = optionalText text' := by
  cases filled with
  | same => rfl
  | blank => rfl

theorem optionalBytes_filled {bytes bytes' : Option Bytes} (filled : Fills [] bytes bytes') :
    optionalBytes bytes = optionalBytes bytes' := by
  cases filled with
  | same => rfl
  | blank => rfl

theorem createBatch_filled {items items' : List BatchItem}
    (tokens : List.Forall₂ BatchItem.Filled items items') :
    createBatch items = createBatch items' := by
  have length : items.isEmpty = items'.isEmpty := by
    cases tokens with
    | nil => rfl
    | cons => rfl
  have text : batchText items = batchText items' := by
    rw [batchText, batchText, map_eq_of_forall₂ BatchItem.text_filled tokens]
  rw [createBatch, createBatch, length, text]

end Guest

/-- A question with a missing argument is the question with an empty one. -/
theorem QueryStep.run_filled {step step' : QueryStep} (filled : step.Filled step') :
    step.run = step'.run := by
  cases filled with
  | same => rfl
  | balance address token =>
    rw [QueryStep.run, QueryStep.run, Guest.balance, Guest.balance,
      Guest.optionalText_filled token]

/-- **A report with missing arguments is the report with empty ones**, on every host. -/
theorem ReportStep.run_filled {step step' : ReportStep} (filled : step.Filled step') :
    step.run = step'.run := by
  cases filled with
  | same => rfl
  | createOutput recipient amount token =>
    rw [ReportStep.run, ReportStep.run, Guest.createOutput, Guest.createOutput,
      Guest.optionalText_filled token]
  | createLockedOutput recipient amount token conditions =>
    rw [ReportStep.run, ReportStep.run, Guest.createLockedOutput, Guest.createLockedOutput,
      Guest.optionalText_filled token, Guest.optionalText_filled conditions]
  | appendState stateId version execHash parentHash publicInputs =>
    rw [ReportStep.run, ReportStep.run, Guest.appendState, Guest.appendState,
      Guest.optionalBytes_filled publicInputs]
  | appendResource resource owner conditions =>
    rw [ReportStep.run, ReportStep.run, Guest.appendResource, Guest.appendResource,
      Guest.optionalText_filled conditions]
  | createBatch tokens =>
    rw [ReportStep.run, ReportStep.run, Guest.createBatch_filled tokens]

/-! ## Builders -/

/-- A builder whose draft has missing token ids filled. -/
structure Builder.Filled (builder builder' : Builder) : Prop where
  draft : builder.draft.Filled builder'.draft
  finalized : builder.finalized = builder'.finalized

/-- Work on a builder, with a missing token id filled. -/
inductive BuilderStep.Filled : BuilderStep → BuilderStep → Prop
  | same (step : BuilderStep) : Filled step step
  | addOutput {output output' : OutputDraft} (filled : OutputDraft.Filled output output') :
      Filled (.addOutput output) (.addOutput output')
  | addIntent {intent intent' : IntentDraft} (filled : IntentDraft.Filled intent intent') :
      Filled (.addIntent intent) (.addIntent intent')

/-- Answers that differ at most in the draft of a builder that is shown. -/
inductive Answer.Filled : Answer → Answer → Prop
  | same (answer : Answer) : Filled answer answer
  | builder {builder builder' : Builder} (filled : builder.Filled builder') :
      Filled (.builder builder) (.builder builder')

/-- Results after the same state that differ in what is answered only. -/
inductive Alike {ε σ α : Type} (R : α → α → Prop) :
    EStateM.Result ε σ α → EStateM.Result ε σ α → Prop
  | ok {a a' : α} (answers : R a a') (after : σ) : Alike R (.ok a after) (.ok a' after)
  | error (e : ε) (after : σ) : Alike R (.error e after) (.error e after)

section Alike

variable {ε σ α β : Type} {R : α → α → Prop} {S : β → β → Prop}

theorem Alike.bind {act act' : EStateM ε σ α} {next next' : α → EStateM ε σ β} {state : σ}
    (first : Alike R (act state) (act' state))
    (second : ∀ a a', R a a' → ∀ state, Alike S (next a state) (next' a' state)) :
    Alike S ((act >>= next) state) ((act' >>= next') state) := by
  generalize answers : act state = result, answers' : act' state = result' at first
  cases first with
  | ok related after =>
    rw [bind_of_ok answers, bind_of_ok answers']
    exact second _ _ related after
  | error e after =>
    rw [bind_of_error answers, bind_of_error answers']
    exact .error e after

theorem Alike.same {act : EStateM ε σ α} {state : σ} : Alike Eq (act state) (act state) := by
  cases act state with
  | ok a after => exact .ok rfl after
  | error e after => exact .error e after

end Alike

/-- What work on a builder answers and leaves. -/
def BuilderStep.FilledResult (result result' : Answer × Builder) : Prop :=
  result.1.Filled result'.1 ∧ result.2.Filled result'.2

section Builders

variable {builder builder' : Builder}

theorem Draft.filled_refl (draft : Draft) : draft.Filled draft where
  signMode := rfl
  outputs := List.forall₂_same.mpr fun output _ => .same output
  intents := List.forall₂_same.mpr fun intent _ => .same intent

theorem Builder.filled_refl (builder : Builder) : builder.Filled builder :=
  ⟨builder.draft.filled_refl, rfl⟩

/-- Changes that keep drafts alike keep builders alike. -/
theorem Builder.edit_filled {change change' : Draft → Draft}
    (changes : ∀ draft draft' : Draft, draft.Filled draft' → (change draft).Filled (change' draft'))
    (filled : builder.Filled builder') :
    (builder.edit change).Filled (builder'.edit change') := by
  rw [Builder.edit, Builder.edit, filled.finalized]
  split
  · exact filled
  · exact ⟨changes _ _ filled.draft, rfl⟩

theorem Builder.addOutput_filled {output output' : OutputDraft}
    (asked : OutputDraft.Filled output output') (filled : builder.Filled builder') :
    (builder.addOutput output).Filled (builder'.addOutput output') := by
  refine edit_filled (fun draft draft' alike => ?_) filled
  exact ⟨alike.signMode, List.rel_append alike.outputs (.cons asked .nil), alike.intents⟩

theorem Builder.addIntent_filled {intent intent' : IntentDraft}
    (asked : IntentDraft.Filled intent intent') (filled : builder.Filled builder') :
    (builder.addIntent intent).Filled (builder'.addIntent intent') := by
  refine edit_filled (fun draft draft' alike => ?_) filled
  exact ⟨alike.signMode, alike.outputs, List.rel_append alike.intents (.cons asked .nil)⟩

theorem Builder.setSignMode_filled (signMode : SignMode) (filled : builder.Filled builder') :
    (builder.setSignMode signMode).Filled (builder'.setSignMode signMode) := by
  refine edit_filled (fun draft draft' alike => ?_) filled
  exact ⟨rfl, alike.outputs, alike.intents⟩

theorem Guest.build_filled (filled : builder.Filled builder') :
    Guest.build builder.draft = Guest.build builder'.draft := by
  rw [Guest.build, Guest.build, Draft.text_filled filled.draft]

theorem Guest.finalize_filled (filled : builder.Filled builder') (world : World) :
    Alike (fun r r' => r.1 = r'.1 ∧ r.2.Filled r'.2)
      (Guest.finalize builder world) (Guest.finalize builder' world) := by
  have spent : { builder with finalized := true }.Filled { builder' with finalized := true } :=
    ⟨filled.draft, rfl⟩
  unfold Guest.finalize
  rw [filled.finalized, Guest.build_filled filled]
  split
  · exact .ok ⟨rfl, filled⟩ world
  · refine Alike.bind .same ?_
    rintro receipt _ rfl world
    cases receipt with
    | ok receipt => exact .ok ⟨rfl, spent⟩ _
    | error error => exact .ok ⟨rfl, spent⟩ _

/-- A builder that is left is shown, so it has to be alike only once. -/
theorem BuilderStep.FilledResult.shown (alike : builder.Filled builder') (world : World) :
    Alike FilledResult ((pure (.builder builder, builder) : Guest (Answer × Builder)) world)
      ((pure (.builder builder', builder') : Guest (Answer × Builder)) world) :=
  .ok ⟨.builder alike, alike⟩ world

/-- **Work on alike builders leaves alike builders**, and does the same to the host. -/
theorem BuilderStep.run_filled {work work' : BuilderStep} (asked : work.Filled work')
    (filled : builder.Filled builder') (world : World) :
    Alike FilledResult (work.run builder world) (work'.run builder' world) := by
  cases asked with
  | addOutput asked => exact FilledResult.shown (Builder.addOutput_filled asked filled) world
  | addIntent asked => exact FilledResult.shown (Builder.addIntent_filled asked filled) world
  | same =>
    cases work with
    | start => exact FilledResult.shown (Builder.filled_refl .fresh) world
    | addOutput output => exact FilledResult.shown (Builder.addOutput_filled (.same output) filled) world
    | addIntent intent => exact FilledResult.shown (Builder.addIntent_filled (.same intent) filled) world
    | setSignMode mode => exact FilledResult.shown (Builder.setSignMode_filled mode filled) world
    | finalize =>
      refine Alike.bind (Guest.finalize_filled filled world) ?_
      rintro ⟨result, left⟩ ⟨result', left'⟩ ⟨rfl, alike⟩ world
      exact .ok ⟨.same _, alike⟩ world
    | build =>
      show Alike _ ((Guest.build builder.draft >>= _) world) _
      rw [Guest.build_filled filled]
      refine Alike.bind .same ?_
      rintro receipt _ rfl world
      exact .ok ⟨.same _, filled⟩ world

end Builders

/-! ## Steps -/

/-- A step with any of its missing arguments filled. -/
inductive Step.Filled : Step → Step → Prop
  | same (step : Step) : Filled step step
  | query {step step' : QueryStep} (filled : step.Filled step') :
      Filled (.query step) (.query step')
  | report {step step' : ReportStep} (filled : step.Filled step') :
      Filled (.report step) (.report step')
  | builder (slot : UInt32) {step step' : BuilderStep} (filled : step.Filled step') :
      Filled (.builder slot step) (.builder slot step')

/-- What is held beside the host, with missing token ids filled. -/
structure Locals.Filled (locals locals' : Locals) : Prop where
  builders : ∀ slot, (locals.builder slot).Filled (locals'.builder slot)
  invocation : locals.invocation = locals'.invocation

section Steps

variable {locals locals' : Locals}

theorem Locals.filled_refl (locals : Locals) : locals.Filled locals :=
  ⟨fun slot => (locals.builder slot).filled_refl, rfl⟩

theorem Locals.setBuilder_filled (filled : locals.Filled locals') (slot : UInt32)
    {left left' : Builder} (alike : left.Filled left') :
    (locals.setBuilder slot left).Filled (locals'.setBuilder slot left') := by
  refine ⟨fun other => ?_, filled.invocation⟩
  by_cases same : other = slot
  · subst same
    rw [builder_setBuilder_self, builder_setBuilder_self]
    exact alike
  · rw [builder_setBuilder_of_ne _ same, builder_setBuilder_of_ne _ same]
    exact filled.builders other

/-- What a step answers and leaves. -/
def Step.FilledResult (result result' : Answer × Locals) : Prop :=
  result.1.Filled result'.1 ∧ result.2.Filled result'.2

/-- A computation that does not look at what is held beside the host. -/
theorem Step.alike_of_answer (filled : locals.Filled locals') {act act' : Guest Answer}
    (same : act = act') (world : World) :
    Alike FilledResult ((act >>= fun answer => pure (answer, locals)) world)
      ((act' >>= fun answer => pure (answer, locals')) world) := by
  subst same
  refine Alike.bind .same ?_
  rintro answer _ rfl world
  exact .ok ⟨.same answer, filled⟩ world

/-- A call of the contract looks at the invocation only. -/
theorem Step.enter_filled (filled : locals.Filled locals') (entry : Invocation → Guest UInt32)
    (world : World) :
    Alike FilledResult (enter locals entry world) (enter locals' entry world) := by
  have shared : sharedInvocation locals = sharedInvocation locals' := by
    rw [sharedInvocation, sharedInvocation, filled.invocation]
  unfold enter
  rw [shared]
  refine Alike.bind .same ?_
  rintro invocation _ rfl world
  refine Alike.bind .same ?_
  rintro status _ rfl world
  exact .ok ⟨.same _, filled.builders, rfl⟩ world

/-- **A step with missing arguments does what the step with empty ones does.** -/
theorem Step.run_filled {step step' : Step} (asked : step.Filled step')
    (filled : locals.Filled locals') (world : World) :
    Alike FilledResult (step.run locals world) (step'.run locals' world) := by
  -- only work on a builder and calls of the contract look at what is held beside the host
  have work (slot : UInt32) {work work' : BuilderStep} (asked : work.Filled work') :
      Alike FilledResult ((Step.builder slot work).run locals world)
        ((Step.builder slot work').run locals' world) := by
    refine Alike.bind (BuilderStep.run_filled asked (filled.builders slot) world) ?_
    rintro ⟨answer, left⟩ ⟨answer', left'⟩ ⟨answers, alike⟩ world
    exact .ok ⟨answers, Locals.setBuilder_filled filled slot alike⟩ world
  cases asked with
  | query asked => exact alike_of_answer filled (QueryStep.run_filled asked) world
  | report asked => exact alike_of_answer filled (ReportStep.run_filled asked) world
  | builder slot asked => exact work slot asked
  | same =>
    cases step with
    | configure setting => exact .ok ⟨.same .nothing, filled⟩ _
    | reset => exact .ok ⟨.same .nothing, filled⟩ _
    | dump => exact .ok ⟨.same _, filled⟩ _
    | memory step => exact alike_of_answer filled (Eq.refl step.run) world
    | raw step => exact alike_of_answer filled (Eq.refl step.run) world
    | query step => exact alike_of_answer filled (Eq.refl step.run) world
    | report step => exact alike_of_answer filled (Eq.refl step.run) world
    | builder slot step => exact work slot (.same step)
    | loadInvocation =>
      refine Alike.bind .same ?_
      rintro invocation _ rfl world
      exact .ok ⟨.same _, filled.builders, rfl⟩ world
    | transfer => exact enter_filled filled Token.transfer world
    | vote proposal choice =>
      exact enter_filled filled (fun invocation => Token.vote invocation proposal choice) world

end Steps

/-! ## Runs -/

/-- What is asked for in a run, with any missing arguments filled. -/
inductive Step.AskedFilled : Except BoundaryError Step → Except BoundaryError Step → Prop
  | step {step step' : Step} (filled : step.Filled step') : AskedFilled (.ok step) (.ok step')
  | declined (error : BoundaryError) : AskedFilled (.error error) (.error error)

/-- Replies that differ at most in the draft of a builder that is shown. -/
structure StepReply.Filled (reply reply' : StepReply) : Prop where
  answer : reply.answer.Filled reply'.answer
  arenaLength : reply.arenaLength = reply'.arenaLength
  trace : reply.trace = reply'.trace

/-- Sessions on the same host, whose builders are alike. -/
structure Session.Filled (session session' : Session) : Prop where
  host : session.host = session'.host
  locals : session.locals.Filled session'.locals

namespace Session

variable {session session' : Session}

theorem step_filled {step step' : Step} (asked : step.Filled step')
    (filled : session.Filled session') :
    (session.step step).1.Filled (session'.step step').1 ∧
    (session.step step).2.Filled (session'.step step').2 := by
  have ran := Step.run_filled asked filled.locals ⟨session.host, []⟩
  unfold Session.step
  rw [← filled.host]
  generalize step.run session.locals ⟨session.host, []⟩ = result,
    step'.run session'.locals ⟨session.host, []⟩ = result' at ran
  cases ran with
  | ok answers after => exact ⟨⟨answers.1, rfl, rfl⟩, rfl, answers.2⟩
  | error fault after => exact ⟨⟨.same _, rfl, rfl⟩, rfl, filled.locals⟩

theorem filled_run {steps steps' : List (Except BoundaryError Step)}
    (asked : List.Forall₂ Step.AskedFilled steps steps') (filled : session.Filled session') :
    List.Forall₂ StepReply.Filled (session.run steps).1 (session'.run steps').1 ∧
    (session.run steps).2.Filled (session'.run steps').2 := by
  induction asked generalizing session session' with
  | nil => exact ⟨.nil, filled⟩
  | cons first _ ih =>
    cases first with
    | step first =>
      obtain ⟨reply, left⟩ := step_filled first filled
      obtain ⟨replies, after⟩ := ih left
      rw [run_ok_cons, run_ok_cons]
      exact ⟨.cons reply replies, after⟩
    | declined error =>
      obtain ⟨replies, after⟩ := ih filled
      have length : session.host.memory.size = session'.host.memory.size := by
        rw [filled.host]
      rw [run_error_cons, run_error_cons]
      exact ⟨.cons ⟨.same _, length, rfl⟩ replies, after⟩

/-- **Missing and empty arguments cannot be told apart.**  Take any session, any
steps, and fill in empty values for any of their missing arguments.  Both runs end
with the same host in every field, every step is replied to with the same answer,
the same length of the arena and the same lines of the trace, and every builder is
left with a draft of the same text.  Only the answers that show a builder may
differ, in how its draft names the native token. -/
theorem run_absent_empty (session : Session) {steps steps' : List (Except BoundaryError Step)}
    (asked : List.Forall₂ Step.AskedFilled steps steps') :
    (session.run steps).2.host = (session.run steps').2.host ∧
    List.Forall₂ StepReply.Filled (session.run steps).1 (session.run steps').1 ∧
    ∀ slot, ((session.run steps).2.locals.builder slot).finalized
        = ((session.run steps').2.locals.builder slot).finalized ∧
      ((session.run steps).2.locals.builder slot).draft.text
        = ((session.run steps').2.locals.builder slot).draft.text := by
  obtain ⟨replies, after⟩ := filled_run asked ⟨rfl, session.locals.filled_refl⟩
  refine ⟨after.host, replies, fun slot => ?_⟩
  have alike := after.locals.builders slot
  exact ⟨alike.finalized, Draft.text_filled alike.draft⟩

/-- A locked output with one of two arguments filled, a batch, and a draft that is
finalized, where the budget ends with the last allocation. -/
theorem run_absent_empty_native :
    let steps (blank : Option String) : List (Except BoundaryError Step) := [
      .ok (.configure (.allocBudget (some 5))),
      .ok (.report (.createLockedOutput .zero 5 blank none)),
      .ok (.report (.createBatch [⟨.zero, 1, blank⟩, ⟨.zero, 2, none⟩])),
      .ok (.query (.balance .zero blank)),
      .ok (.builder 0 (.addOutput (.asset .zero 5 blank))),
      .ok (.builder 0 (.addIntent (.transfer .zero .zero 5 blank))),
      .ok (.builder 0 .finalize)]
    List.Forall₂ Step.AskedFilled (steps none) (steps (some "")) ∧
      (initial.run (steps none)).2.host = (initial.run (steps (some ""))).2.host := by
  intro steps
  have batch : List.Forall₂ BatchItem.Filled
      [⟨.zero, 1, none⟩, ⟨.zero, 2, none⟩] [⟨.zero, 1, some ""⟩, ⟨.zero, 2, none⟩] :=
    .cons ⟨rfl, rfl, .blank⟩ <| .cons ⟨rfl, rfl, .same _⟩ .nil
  have asked : List.Forall₂ Step.AskedFilled (steps none) (steps (some "")) :=
    .cons (.step (.same _)) <|
      .cons (.step (.report (.createLockedOutput _ _ .blank (.same _)))) <|
      .cons (.step (.report (.createBatch batch))) <|
      .cons (.step (.query (.balance _ .blank))) <|
      .cons (.step (.builder _ (.addOutput (.asset _ _ .blank)))) <|
      .cons (.step (.builder _ (.addIntent (.transfer _ _ _ .blank)))) <|
      .cons (.step (.same _)) .nil
  exact ⟨asked, (run_absent_empty initial asked).1⟩

end Session

end HostBoundary
