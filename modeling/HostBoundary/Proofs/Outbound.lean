import HostBoundary.Proofs.Exchange
import HostBoundary.Proofs.Numbering

/-!
# What leaves the contract

A contract speaks outwards in three ways: it sets the data that its call returns,
it emits events, and it logs messages.  The host keeps three records of that, and
they stand in three different relations to what the calls answered.  An event is
recorded when its call succeeded.  A message is recorded when it found room, even
if the host then answers a failure.  Of the return data only the last one is kept.

## Calls in order

The calls of a run are listed as they are made (`Session.said`), each with the host
that it was made on and with its answer.  Most steps make none.  A transfer makes up
to two, depending on how it goes; so its computation is written once more as one that
keeps a list (`Recording`), and shown to be the same computation.

## One call, one step, one run

What a single call comes to is settled once (`Outbound.say_outcome`).  From it follows
what a recording leaves in the records (`Recording.Of`), from that what a step does,
and a run by induction.

## Main results

* `Outbound.say_outcome` — a call is written down just when its bytes found room.
* `Session.outbound_exact` — the three records after any run from a fresh host.
-/

namespace HostBoundary

open Guest

/-! ## Calls -/

/-- What a contract can say outwards. -/
inductive Outbound where
  | returnData (data : Bytes)
  | event (text : String)
  | message (text : String)

namespace Outbound

/-- The bytes that are sent. -/
def bytes : Outbound → Bytes
  | returnData data => data
  | event text => Utf8.encode text
  | message text => Utf8.encode text

/-- The host call that takes them. -/
def act : Outbound → (pointer length : UInt32) → HostCall UInt32
  | returnData _ => Host.setReturnData
  | event _ => Host.emitEvent
  | message _ => Host.logDebug

/-- The call that says it. -/
def say : Outbound → Guest (Except BoundaryError Unit)
  | returnData data => setReturnData data
  | event text => emitEvent text
  | message text => logDebug text

/-- The step that makes the call. -/
def step : Outbound → Step
  | returnData data => .report (.setReturnData data)
  | event text => .report (.emitEvent text)
  | message text => .report (.logDebug text)

/-- What the host writes down. -/
def write : Outbound → Records → Records
  | returnData data => fun r => { r with returnData := some data }
  | event text => fun r => { r with events := r.events ++ [text] }
  | message text => fun r => { r with logs := r.logs ++ [text] }

/-- What the host answers when it has written it down. -/
def status (setup : Setup) : Outbound → UInt32
  | returnData _ | event _ => 0
  | message _ => setup.logStatus

theorem say_eq (said : Outbound) : said.say = send said.bytes said.act := by
  cases said <;> rfl

/-- The host writes down what it reads. -/
theorem act_holds (said : Outbound) {buffer : Buffer} {host : Host}
    (holds : buffer.Holds host.arena said.bytes) :
    said.act buffer.pointer buffer.length host
      = .ok (said.status host.setup) (host.told said.write) := by
  cases said with
  | returnData data =>
    show Host.setReturnData _ _ _ = _
    rw [Host.setReturnData, bind_of_ok (Host.readArgument_holds holds)]
    rfl
  | event text =>
    show Host.emitEvent _ _ _ = _
    rw [Host.emitEvent, bind_of_ok (Host.readText_holds holds)]
    rfl
  | message text =>
    show Host.logDebug _ _ _ = _
    rw [Host.logDebug, bind_of_ok (Host.readText_holds holds)]
    rfl

end Outbound

/-- The records of what was said outwards. -/
def Records.outbound (records : Records) : Option Bytes × List String × List String :=
  (records.returnData, records.events, records.logs)

/-- A call that was made. -/
structure OutboundCall where
  /-- What was said. -/
  said : Outbound
  /-- The host that it was said to, as it was before. -/
  host : Host
  /-- What the call answered. -/
  answer : Except BoundaryError Unit

namespace OutboundCall

/-- The host had room for the bytes. -/
def Fits (call : OutboundCall) : Prop :=
  call.said.bytes.length < UInt32.size ∧ call.host.Provides [call.said.bytes.length]

instance (call : OutboundCall) : Decidable call.Fits := by
  unfold Fits
  infer_instance

/-- The event of a call that emitted one. -/
def event? (call : OutboundCall) : Option String :=
  match call.said, call.answer with
  | .event text, .ok () => some text
  | _, _ => none

/-- The message of a call that logs, if it found room. -/
def message? (call : OutboundCall) : Option String :=
  match call.said with
  | .message text => if call.Fits then some text else none
  | _ => none

/-- The data of a call that set it. -/
def returned? (call : OutboundCall) : Option Bytes :=
  match call.said, call.answer with
  | .returnData data, .ok () => some data
  | _, _ => none

/-- What a call comes to: it is written down and its status answered, or it did not fit. -/
inductive Outcome (call : OutboundCall) (after : Host) : Prop
  | written (fits : call.Fits)
      (answer : call.answer = BoundaryError.ofStatus (call.said.status call.host.setup))
      (records : after.records = call.said.write call.host.records)
  | refused (full : ¬ call.Fits) (error : BoundaryError) (answer : call.answer = .error error)
      (reason : call.said.bytes.length < UInt32.size → error = .outOfMemory)
      (records : after.records = call.host.records)

/-- The call was really made, on its host and with its answer. -/
def Made (call : OutboundCall) : Prop :=
  ∃ trace after, call.said.say ⟨call.host, trace⟩ = .ok call.answer after ∧
    call.Outcome after.host

/-- What a call answers, and what it leaves in the records. -/
structure Exact (call : OutboundCall) (after : Records) : Prop where
  /-- It succeeds just when it found room and the host has nothing against it. -/
  ok_iff : call.answer = .ok () ↔ call.Fits ∧ call.said.status call.host.setup = 0
  /-- What found room is written down. -/
  written : call.Fits → after = call.said.write call.host.records
  /-- What found none changes nothing. -/
  refused : ¬ call.Fits → after = call.host.records
  /-- It answers that there is no memory. -/
  outOfMemory : ¬ call.Fits → call.said.bytes.length < UInt32.size →
    call.answer = .error .outOfMemory
  /-- A message succeeds just when it was logged and the log status is zero. -/
  logged : ∀ text, call.said = .message text →
    (call.answer = .ok () ↔ after.logs = call.host.records.logs ++ [text] ∧
      call.host.setup.logStatus = 0)

theorem Outcome.exact {call : OutboundCall} {after : Host} (outcome : call.Outcome after) :
    call.Exact after.records := by
  cases outcome with
  | written fits answer records =>
    have ok : call.answer = .ok () ↔ call.said.status call.host.setup = 0 := by
      rw [answer]
      exact BoundaryError.ofStatus_eq_ok_iff
    refine ⟨ok.trans (and_iff_right fits).symm, fun _ => records, fun full => absurd fits full,
      fun full => absurd fits full, ?_⟩
    intro text isMessage
    rw [ok, records, isMessage]
    exact (and_iff_right rfl).symm
  | refused full error answer reason records =>
    have failed : ¬ call.answer = .ok () := by
      rw [answer]
      nofun
    refine ⟨iff_of_false failed fun both => full both.1, fun fits => absurd fits full,
      fun _ => records, ?_, ?_⟩
    · intro _ short
      rw [answer, reason short]
    · intro text isMessage
      refine iff_of_false failed ?_
      rintro ⟨logs, -⟩
      rw [records] at logs
      have lengths := congrArg List.length logs
      rw [List.length_append, List.length_singleton] at lengths
      omega

end OutboundCall

/-- **A call is written down just when its bytes found room**, whatever the status is
that it answers then. -/
theorem Outbound.say_outcome (said : Outbound) {world : World}
    (nonempty : world.host.SparesNull) :
    ∃ answer after, said.say world = .ok answer after ∧ after.host.SparesNull ∧
      OutboundCall.Outcome ⟨said, world.host, answer⟩ after.host := by
  rw [say_eq, send]
  -- the bytes are refused for their length before anything is allocated
  by_cases short : said.bytes.length < UInt32.size
  · by_cases room : world.host.Provides [said.bytes.length]
    · obtain ⟨-, grants, wrote, -⟩ := writeBytes_of_provides short room
      have acted := said.act_holds (nextRegion_holds_written nonempty grants short)
      rw [bind_of_ok wrote]
      refine ⟨_, _, bind_of_ok (call_of_ok acted), ?_, .written ⟨short, room⟩ rfl rfl⟩
      exact nonempty.granted _
    · obtain ⟨after, refused, only⟩ := writeBytes_of_not_provides short room
      rw [bind_of_ok refused]
      exact ⟨_, after, rfl, nonempty.mono only.arena.length_le,
        .refused (fun fits => room fits.2) _ rfl (fun _ => rfl) only.records⟩
  · rw [bind_of_ok (writeBytes_of_long short)]
    exact ⟨_, world, rfl, nonempty,
      .refused (fun fits => short fits.1) _ rfl (fun fits => absurd fits short) rfl⟩

/-! ## What is heard -/

/-- The records after the calls: the events of those that succeeded and the messages of
those that found room were added in order, and the last data was kept. -/
structure Heard (before : Records) (calls : List OutboundCall) (after : Records) : Prop where
  events : after.events = before.events ++ calls.filterMap OutboundCall.event?
  logs : after.logs = before.logs ++ calls.filterMap OutboundCall.message?
  returnData : after.returnData
    = (calls.filterMap OutboundCall.returned?).getLast?.or before.returnData

section Heard

variable {before middle after : Records} {calls more : List OutboundCall}

theorem Heard.nothing (same : after.outbound = before.outbound) : Heard before [] after := by
  obtain ⟨returnData, events, logs⟩ : after.returnData = before.returnData ∧
      after.events = before.events ∧ after.logs = before.logs := by
    simpa [Records.outbound] using same
  exact ⟨by simp [events], by simp [logs], by simp [returnData]⟩

theorem Heard.trans (first : Heard before calls middle) (second : Heard middle more after) :
    Heard before (calls ++ more) after := by
  constructor
  · rw [second.events, first.events, List.filterMap_append, List.append_assoc]
  · rw [second.logs, first.logs, List.filterMap_append, List.append_assoc]
  · rw [second.returnData, first.returnData, List.filterMap_append, List.getLast?_append,
      Option.or_assoc]

/-- One call, as it is heard. -/
theorem OutboundCall.Outcome.heard {call : OutboundCall} {host : Host}
    (outcome : call.Outcome host) : Heard call.host.records [call] host.records := by
  obtain ⟨said, before, answer⟩ := call
  cases outcome with
  | written fits answered records =>
    rw [records]
    cases said with
    | returnData data =>
      obtain rfl : answer = .ok () := answered
      exact ⟨(List.append_nil _).symm, (List.append_nil _).symm, rfl⟩
    | event text =>
      obtain rfl : answer = .ok () := answered
      exact ⟨rfl, (List.append_nil _).symm, rfl⟩
    | message text =>
      have logged : OutboundCall.message? ⟨.message text, before, answer⟩ = some text :=
        if_pos fits
      refine ⟨(List.append_nil _).symm, ?_, rfl⟩
      rw [List.filterMap_cons_some logged]
      rfl
  | refused full error answered reason records =>
    obtain rfl : answer = .error error := answered
    rw [records]
    cases said with
    | returnData data => exact ⟨(List.append_nil _).symm, (List.append_nil _).symm, rfl⟩
    | event text => exact ⟨(List.append_nil _).symm, (List.append_nil _).symm, rfl⟩
    | message text =>
      have unlogged : OutboundCall.message? ⟨.message text, before, .error error⟩ = none :=
        if_neg full
      refine ⟨(List.append_nil _).symm, ?_, rfl⟩
      rw [List.filterMap_cons_none unlogged]
      exact (List.append_nil _).symm

end Heard

/-! ## Recordings -/

/-- A computation that keeps the list of what it said. -/
abbrev Recording := StateT (List OutboundCall) Guest

/-- Says something, and lists the call. -/
def Outbound.recorded (said : Outbound) : Recording (Except BoundaryError Unit) := do
  let host := (← (get : Guest World)).host
  let answer ← said.say
  modify (· ++ [⟨said, host, answer⟩])
  return answer

theorem Outbound.recorded_run {said : Outbound} {world after : World}
    {answer : Except BoundaryError Unit} (answers : said.say world = .ok answer after)
    (before : List OutboundCall) :
    said.recorded before world = .ok (answer, before ++ [⟨said, world.host, answer⟩]) after := by
  have lifted : (liftM said.say : Recording _) before world = .ok (answer, before) after :=
    bind_of_ok answers
  show ((liftM said.say : Recording _) before >>= _) world = _
  rw [bind_of_ok lifted]
  rfl

namespace Token

/-- `announce`, recorded. -/
def recordedAnnounce (sender : Address) (request : TransferRequest) : Recording StatusCode := do
  let sender ← Guest.addressText sender
  let recipient ← Guest.addressText request.recipient
  match ← (Outbound.event (transferEvent sender recipient request.amount)).recorded with
  | .error _ => return .executionFailed
  | .ok () =>
    match ← (Outbound.returnData (Bytes.ofUInt64 request.amount)).recorded with
    | .error error => return error.code
    | .ok () => return .success

/-- `rejectTransfer`, recorded. -/
def recordedReject : Recording StatusCode := do
  match ← (Outbound.message "transfer rejected: balance too low").recorded with
  | .error error => Guest.emit (.debugRefused error)
  | .ok () => pure ()
  return .insufficientBalance

/-- `perform`, recorded. -/
def recordedPerform (sender : Address) (request : TransferRequest) : Recording StatusCode := do
  if (← Guest.balance sender request.tokenId) < request.amount then recordedReject
  else
    let (result, _) ← Guest.finalize (transferBuilder sender request)
    if result.success then recordedAnnounce sender request else return result.code

/-- `transfer`, recorded. -/
def recordedTransfer (invocation : Invocation) : Recording UInt32 := do
  match (← Guest.initParams? paramsCapacity).bind request? with
  | none => return StatusCode.toHost .invalidParams
  | some request => return (← recordedPerform invocation.caller request).toHost

end Token

namespace Recording

variable {α β : Type}

/-- The recording does what the computation does, wherever there is an arena, and lists
exactly what is heard of it. -/
def Of (plain : Guest α) (act : Recording α) : Prop :=
  ∀ (before : List OutboundCall) (world : World), world.host.SparesNull →
    ∃ a calls after, plain world = .ok a after ∧ act before world = .ok (a, before ++ calls) after ∧
      after.host.SparesNull ∧ Heard world.host.records calls after.host.records ∧
      ∀ call ∈ calls, call.Made

theorem Of.pure (a : α) : Of (pure a) (pure a) := by
  intro before world nonempty
  refine ⟨a, [], world, rfl, ?_, nonempty, .nothing rfl, List.forall_mem_nil _⟩
  rw [List.append_nil]
  rfl

theorem Of.bind {plain : Guest α} {act : Recording α} {next : α → Guest β}
    {actNext : α → Recording β} (first : Of plain act) (second : ∀ a, Of (next a) (actNext a)) :
    Of (plain >>= next) (act >>= actNext) := by
  intro before world nonempty
  obtain ⟨a, calls, middle, answers, records, nonempty₁, heard, made⟩ := first before world nonempty
  obtain ⟨b, more, after, answers', records', nonempty₂, heard', made'⟩ :=
    second a (before ++ calls) middle nonempty₁
  refine ⟨b, calls ++ more, after, (bind_of_ok answers).trans answers', ?_, nonempty₂,
    heard.trans heard', ?_⟩
  · rw [← List.append_assoc]
    exact (bind_of_ok records).trans records'
  · intro call mem
    rcases List.mem_append.mp mem with mem | mem
    · exact made call mem
    · exact made' call mem

/-- A computation that says nothing is recorded as it is. -/
theorem Of.silent {plain : Guest α} (safe : ∀ base, Safe Records.outbound base [] plain) :
    Of plain (liftM plain) := by
  intro before world nonempty
  obtain ⟨a, after, answers, growth⟩ := safe _ world nonempty (Nat.le_refl _) nofun
  refine ⟨a, [], after, answers, ?_, nonempty.mono growth.length_le,
    .nothing growth.shown, List.forall_mem_nil _⟩
  rw [List.append_nil]
  exact bind_of_ok answers

theorem Of.said (said : Outbound) : Of said.say said.recorded := by
  intro before world nonempty
  obtain ⟨answer, after, answers, nonempty', outcome⟩ := said.say_outcome nonempty
  refine ⟨answer, [⟨said, world.host, answer⟩], after, answers,
    Outbound.recorded_run answers before, nonempty', outcome.heard, ?_⟩
  intro call mem
  rw [List.mem_singleton] at mem
  subst mem
  exact ⟨world.trace, after, answers, outcome⟩

/-! ### The contract -/

theorem announce (sender : Address) (request : TransferRequest) :
    Of (Token.announce sender request) (Token.recordedAnnounce sender request) := by
  refine (Of.silent fun _ => safe_addressText _).bind fun senderText => ?_
  refine (Of.silent fun _ => safe_addressText _).bind fun recipientText => ?_
  refine (Of.said (.event _)).bind fun emitted => ?_
  cases emitted with
  | error error => exact .pure _
  | ok _ =>
    refine (Of.said (.returnData _)).bind fun returned => ?_
    cases returned with
    | error error => exact .pure _
    | ok _ => exact .pure _

theorem reject : Of Token.rejectTransfer Token.recordedReject := by
  refine (Of.said (.message _)).bind fun logged => ?_
  cases logged with
  | error error => exact (Of.silent fun _ => safe_emit _).bind fun _ => .pure _
  | ok _ => exact .pure _

theorem perform (sender : Address) (request : TransferRequest) :
    Of (Token.perform sender request) (Token.recordedPerform sender request) := by
  refine (Of.silent fun _ => safe_balance _ _).bind fun balance => ?_
  split
  · exact reject
  · refine (Of.silent fun _ => safe_finalize (fun _ _ => rfl) _).bind fun outcome => ?_
    dsimp only
    split
    · exact announce sender request
    · exact .pure _

/-- **A transfer says what its recording lists**, and nothing else. -/
theorem transfer (invocation : Invocation) :
    Of (Token.transfer invocation) (Token.recordedTransfer invocation) := by
  refine (Of.silent fun _ => safe_initParams? _).bind fun params => ?_
  cases params.bind Token.request? with
  | none => exact .pure _
  | some request => exact (perform _ request).bind fun _ => .pure _

end Recording

/-! ## Steps -/

/-- Says something, and replies with the outcome. -/
def Outbound.reply (locals : Locals) (said : Outbound) : Recording (Answer × Locals) := do
  return (.ofExcept (fun _ => .nothing) (← said.recorded), locals)

namespace Step

/-- The recording of a step that says something. -/
def recorded? (locals : Locals) : Step → Option (Recording (Answer × Locals))
  | report (.setReturnData data) => some (Outbound.reply locals (.returnData data))
  | report (.emitEvent text) => some (Outbound.reply locals (.event text))
  | report (.logDebug text) => some (Outbound.reply locals (.message text))
  | transfer => some do
    let invocation ← sharedInvocation locals
    let status ← Token.recordedTransfer invocation
    return (.word status, { locals with invocation := some invocation })
  | _ => none

/-- The steps that say something: the three calls, and a transfer. -/
def Speaks : Step → Prop
  | report (.setReturnData _) | report (.emitEvent _) | report (.logDebug _) | transfer => True
  | _ => False

/-- The steps that neither replace the host nor call it past the contract side. -/
def KeepsHost : Step → Prop
  | raw _ | reset => False
  | _ => True

variable {locals : Locals} {step : Step}

theorem run_said (locals : Locals) (said : Outbound) :
    said.step.run locals
      = said.say >>= fun answer => pure (.ofExcept (fun _ => .nothing) answer, locals) := by
  cases said with
  | returnData data => exact bind_map_left _ _ _
  | event text => exact bind_map_left _ _ _
  | message text => exact bind_map_left _ _ _

theorem recorded_said (locals : Locals) (said : Outbound) :
    said.step.recorded? locals = some (said.reply locals) := by
  cases said <;> rfl

theorem said_of (locals : Locals) (said : Outbound) :
    Recording.Of (said.step.run locals) (said.reply locals) := by
  rw [run_said]
  exact (Recording.Of.said said).bind fun _ => .pure _

/-- **The recording of a step does what the step does.** -/
theorem recorded_of {act : Recording (Answer × Locals)}
    (recorded : step.recorded? locals = some act) : Recording.Of (step.run locals) act := by
  cases step with
  | report step =>
    cases step with
    | setReturnData data =>
      cases recorded
      exact said_of locals (.returnData data)
    | emitEvent text =>
      cases recorded
      exact said_of locals (.event text)
    | logDebug text =>
      cases recorded
      exact said_of locals (.message text)
    | _ => cases recorded
  | transfer =>
    cases recorded
    -- the invocation is loaded by questions only
    have shared : ∀ base, Safe Records.outbound base [] (sharedInvocation locals) := by
      intro base
      unfold sharedInvocation
      split
      · exact safe_pure _
      · exact safe_loadInvocation
    exact (Recording.Of.silent shared).bind fun invocation =>
      (Recording.transfer invocation).bind fun _ => .pure _
  | _ => cases recorded

theorem recorded_eq_none_iff : step.recorded? locals = none ↔ ¬ step.Speaks := by
  cases step with
  | report step => cases step <;> simp [recorded?, Speaks]
  | _ => simp [recorded?, Speaks]

/-- Of the operations, only those that speak have something to tell the three records. -/
theorem unseen_outbound (silent : ¬ step.Speaks) : step.Unseen Records.outbound := by
  cases step with
  | report step =>
    cases step with
    | setReturnData _ | emitEvent _ | logDebug _ => exact absurd trivial silent
    | provideEvidence _ _ => exact fun _ _ => rfl
    | createOutput | createLockedOutput | appendState | appendResource | createBatch =>
      exact fun _ _ _ _ _ _ => rfl
    | declareState _ | controlledState _ => trivial
  | builder _ _ | vote _ _ => exact fun _ _ => rfl
  | transfer => exact absurd trivial silent
  | configure _ | reset | dump | memory _ | raw _ | query _ | loadInvocation => trivial

end Step

/-! ## Runs -/

namespace Session

variable {session : Session}

/-- The calls that a step makes. -/
def calls (session : Session) (step : Step) : List OutboundCall :=
  match step.recorded? session.locals with
  | none => []
  | some act =>
    match act [] ⟨session.host, []⟩ with
    | .ok (_, calls) _ => calls
    | .error _ _ => []

/-- The calls of a run, in order. -/
def said : Session → List (Except BoundaryError Step) → List OutboundCall
  | _, [] => []
  | session, .ok step :: rest => session.calls step ++ (session.step step).2.said rest
  | session, .error _ :: rest => session.said rest

/-- A step that says nothing leaves the three records as they are. -/
theorem step_silent (nonempty : session.host.SparesNull) {step : Step}
    (keeps : step.KeepsHost) (silent : ¬ step.Speaks) :
    (session.step step).2.host.SparesNull ∧
    (session.step step).2.host.records.outbound = session.host.records.outbound := by
  by_cases operation : step.IsOperation
  · -- what operations do not tell the host does not change by them
    have growth := growth_step operation (Step.unseen_outbound silent) nonempty
    exact ⟨nonempty.mono growth.length_le, growth.shown⟩
  · cases step with
    | configure setting => exact ⟨nonempty, rfl⟩
    | reset | raw _ => exact keeps.elim
    | dump | memory _ | query _ | report _ | builder _ _ | loadInvocation | transfer
    | vote _ _ => exact absurd trivial operation

/-- **One step.** -/
theorem step_heard (nonempty : session.host.SparesNull) {step : Step}
    (keeps : step.KeepsHost) :
    (session.step step).2.host.SparesNull ∧
    Heard session.host.records (session.calls step) (session.step step).2.host.records ∧
    ∀ call ∈ session.calls step, call.Made := by
  cases recorded : step.recorded? session.locals with
  | none =>
    have none : session.calls step = [] := by
      unfold calls
      rw [recorded]
    obtain ⟨nonempty', same⟩ := step_silent nonempty keeps (Step.recorded_eq_none_iff.mp recorded)
    rw [none]
    exact ⟨nonempty', .nothing same, List.forall_mem_nil _⟩
  | some act =>
    obtain ⟨⟨answer, locals⟩, calls, after, answers, records, nonempty', heard, made⟩ :=
      Step.recorded_of recorded [] ⟨session.host, []⟩ nonempty
    have listed : session.calls step = calls := by
      unfold Session.calls
      rw [recorded]
      simp only [records, List.nil_append]
    rw [listed, (step_of_ok answers).2]
    exact ⟨nonempty', heard, made⟩

/-- **A run**, from any host with an arena. -/
theorem run_heard (nonempty : session.host.SparesNull)
    {steps : List (Except BoundaryError Step)}
    (keeps : ∀ step, .ok step ∈ steps → step.KeepsHost) :
    (session.run steps).2.host.SparesNull ∧
    Heard session.host.records (session.said steps) (session.run steps).2.host.records ∧
    ∀ call ∈ session.said steps, call.Made := by
  induction steps generalizing session with
  | nil => exact ⟨nonempty, .nothing rfl, List.forall_mem_nil _⟩
  | cons first rest ih =>
    have later : ∀ step, .ok step ∈ rest → step.KeepsHost :=
      fun step mem => keeps step (List.mem_cons_of_mem _ mem)
    cases first with
    | error error => exact ih nonempty later
    | ok step =>
      obtain ⟨nonempty₁, heard₁, made₁⟩ := step_heard nonempty (keeps step List.mem_cons_self)
      obtain ⟨nonempty₂, heard₂, made₂⟩ := ih nonempty₁ later
      refine ⟨nonempty₂, heard₁.trans heard₂, ?_⟩
      intro call mem
      rcases List.mem_append.mp mem with mem | mem
      · exact made₁ call mem
      · exact made₂ call mem

/-- What a run leaves in the three records. -/
structure OutboundExact (session : Session) (steps : List (Except BoundaryError Step)) : Prop where
  /-- The events are those of the calls that succeeded, in order. -/
  events : (session.run steps).2.host.records.events
    = (session.said steps).filterMap OutboundCall.event?
  /-- The logs are the messages of the calls that found room, in order. -/
  logs : (session.run steps).2.host.records.logs
    = (session.said steps).filterMap OutboundCall.message?
  /-- The return data is the last one of a call that succeeded. -/
  returnData : (session.run steps).2.host.records.returnData
    = ((session.said steps).filterMap OutboundCall.returned?).getLast?
  /-- A step that is one of the three calls makes just that one, on the host that it
  finds, and replies with its answer. -/
  once : ∀ front (said : Outbound) back, steps = front ++ .ok said.step :: back → ∃ answer,
    (session.run front).2.calls said.step = [⟨said, (session.run front).2.host, answer⟩] ∧
    ((session.run front).2.step said.step).1.answer = .ofExcept (fun _ => .nothing) answer ∧
    OutboundCall.Exact ⟨said, (session.run front).2.host, answer⟩
      ((session.run front).2.step said.step).2.host.records
  /-- All calls that are listed were made, those of a transfer as well. -/
  made : ∀ call ∈ session.said steps, ∃ trace after,
    call.said.say ⟨call.host, trace⟩ = .ok call.answer after ∧ call.Exact after.host.records
  /-- All other steps leave the three records as they are. -/
  silent : ∀ front step back, steps = front ++ .ok step :: back → ¬ step.Speaks →
    (session.run front).2.calls step = [] ∧
    ((session.run front).2.step step).2.host.records.outbound
      = (session.run front).2.host.records.outbound

/-- One of the three calls, as a step. -/
theorem step_said (nonempty : session.host.SparesNull) (said : Outbound) :
    ∃ answer, session.calls said.step = [⟨said, session.host, answer⟩] ∧
      (session.step said.step).1.answer = .ofExcept (fun _ => .nothing) answer ∧
      OutboundCall.Exact ⟨said, session.host, answer⟩ (session.step said.step).2.host.records := by
  obtain ⟨answer, after, answers, -, outcome⟩ :=
    @Outbound.say_outcome said ⟨session.host, []⟩ nonempty
  have ran : said.step.run session.locals ⟨session.host, []⟩
      = .ok (.ofExcept (fun _ => .nothing) answer, session.locals) after := by
    rw [Step.run_said, bind_of_ok answers]
    rfl
  obtain ⟨replied, left⟩ := step_of_ok ran
  refine ⟨answer, ?_, replied, left ▸ outcome.exact⟩
  have replies : said.reply session.locals [] ⟨session.host, []⟩
      = .ok ((.ofExcept (fun _ => .nothing) answer, session.locals),
          [⟨said, session.host, answer⟩]) after :=
    bind_of_ok (Outbound.recorded_run answers [])
  unfold calls
  rw [Step.recorded_said]
  simp only [replies]

/-- **What a contract says is recorded exactly**, over any run from a fresh host, with
any settings: each event of a call that succeeded, each message that found room, and the
last return data; and nothing else gets into these records. -/
theorem outbound_exact (fresh : session.host = .initial)
    {steps : List (Except BoundaryError Step)}
    (keeps : ∀ step, .ok step ∈ steps → step.KeepsHost) : session.OutboundExact steps := by
  have nonempty : session.host.SparesNull := by
    rw [fresh]
    decide
  obtain ⟨-, heard, made⟩ := run_heard nonempty keeps
  rw [fresh] at heard
  have reached (front : List (Except BoundaryError Step)) {back : List (Except BoundaryError Step)}
      (whole : steps = front ++ back) : (session.run front).2.host.SparesNull :=
    (run_heard nonempty fun step mem =>
      keeps step (whole ▸ List.mem_append_left back mem)).1
  refine ⟨heard.events, heard.logs, ?_, ?_, ?_, ?_⟩
  · rw [heard.returnData]
    exact Option.or_none
  · intro front said back whole
    exact step_said (reached front whole) said
  · intro call mem
    obtain ⟨trace, after, answers, outcome⟩ := made call mem
    exact ⟨trace, after, answers, outcome.exact⟩
  · intro front step back whole silent
    have none : (session.run front).2.calls step = [] := by
      unfold calls
      rw [Step.recorded_eq_none_iff.mpr silent]
    have keepsStep : step.KeepsHost := keeps step (by simp [whole])
    exact ⟨none, (step_silent (reached front whole) keepsStep silent).2⟩

/-- A host with room for four regions and a log status other than zero: the message is
logged though its call fails, the empty data is the last one, and the rest is lost. -/
theorem outbound_exact_scarce :
    let steps : List (Except BoundaryError Step) := [
      .ok (.configure (.allocBudget (some 4))), .ok (.configure (.logStatus 5)),
      .ok (Outbound.event "").step, .ok (Outbound.message "kept").step,
      .ok (Outbound.returnData [1]).step, .ok (Outbound.returnData []).step,
      .ok (Outbound.event "lost").step, .ok (Outbound.message "lost").step]
    initial.OutboundExact steps ∧
      (initial.run steps).2.host.records.outbound = (some [], [""], ["kept"]) := by
  intro steps
  refine ⟨outbound_exact rfl ?_, by decide +kernel⟩
  intro step mem
  simp only [steps, List.mem_cons, List.not_mem_nil, or_false, Except.ok.injEq] at mem
  rcases mem with rfl | rfl | rfl | rfl | rfl | rfl | rfl | rfl <;> trivial

end Session

end HostBoundary
