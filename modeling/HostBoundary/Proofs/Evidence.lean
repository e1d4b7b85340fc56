import HostBoundary.Proofs.Lookups
import HostBoundary.Proofs.Numbering
import HostBoundary.Proofs.Outbound

/-!
# Claims and their evidence

A contract declares a claim, is handed the id of it, and attaches evidence under that id.
Nothing ties the second call to the first: the host keeps no list of the ids that it handed
out, and takes evidence under every id that it is configured with for some claim at that
moment, whether or not the claim was ever declared.

What a declaration hands out is narrower.  The id has to find room in a buffer of 64 bytes,
and an empty one is never seen.  So there are ids under which evidence is taken although no
declaration can hand them out.

## One call, one step, one run

What the call with evidence comes to is settled once, for every outcome of its two
allocations (`Guest.provideEvidence_outcome`).  A step keeps up what the host knows of the
run so far (`Attested.step`): the ids that were configured, and the evidence of the calls
that were answered that it was taken.  From it follows the same of a run, by induction on
the steps (`attested_run`).

## Main results

* `Session.evidence_exact` — when evidence is taken, what is recorded of it, and when the
  id of a claim is handed out, over every run from a fresh host.
-/

namespace HostBoundary

open Guest

/-- The records after evidence was taken. -/
def Records.attested (id evidence : String) (records : Records) : Records :=
  { records with evidence := records.evidence ++ [(id, evidence)] }

/-! ## The call with evidence -/

/-- There is room for the id and for the evidence. -/
structure Host.FitsEvidence (host : Host) (id evidence : String) : Prop where
  id_short : (Utf8.encode id).length < UInt32.size
  evidence_short : (Utf8.encode evidence).length < UInt32.size
  room : host.Provides [(Utf8.encode id).length, (Utf8.encode evidence).length]

/-- What the call comes to: the evidence is taken and recorded, or the host is told
nothing. -/
inductive EvidenceOutcome (before : Host) (id evidence : String) : Bool → Host → Prop
  | taken {after : Host} (known : id ∈ before.setup.claimIds.values)
      (fits : before.FitsEvidence id evidence)
      (records : after.records = before.records.attested id evidence) :
      EvidenceOutcome before id evidence true after
  | refused {after : Host}
      (unfit : ¬ (id ∈ before.setup.claimIds.values ∧ before.FitsEvidence id evidence))
      (records : after.records = before.records) :
      EvidenceOutcome before id evidence false after

namespace EvidenceOutcome

variable {before after : Host} {id evidence : String} {answer : Bool}

theorem answer_iff (outcome : EvidenceOutcome before id evidence answer after) :
    answer = true ↔
      id ∈ before.setup.claimIds.values ∧ before.FitsEvidence id evidence := by
  cases outcome with
  | taken known fits _ => exact iff_of_true rfl ⟨known, fits⟩
  | refused unfit _ => exact iff_of_false Bool.false_ne_true unfit

theorem records_eq (outcome : EvidenceOutcome before id evidence answer after) :
    after.records = if answer then before.records.attested id evidence else before.records := by
  cases outcome with
  | taken _ _ records => exact records
  | refused _ records => exact records

end EvidenceOutcome

/-- The host looks the id up among those that it is configured with. -/
theorem Host.provideEvidence_of_holds {host : Host} {id evidence : String}
    {idBuffer evidenceBuffer : Buffer}
    (idHolds : idBuffer.Holds host.arena (Utf8.encode id))
    (evidenceHolds : evidenceBuffer.Holds host.arena (Utf8.encode evidence)) :
    provideEvidence idBuffer.pointer idBuffer.length evidenceBuffer.pointer
        evidenceBuffer.length host
      = if id ∈ host.setup.claimIds.values then .ok 1 (host.told (Records.attested id evidence))
        else .ok 0 host := by
  rw [provideEvidence, bind_of_ok (readText_holds idHolds),
    bind_of_ok (configured_run Setup.claimIds)]
  by_cases known : id ∈ host.setup.claimIds.values
  · rw [if_pos known, if_pos (List.contains_iff_mem.mpr known),
      bind_of_ok (readText_holds evidenceHolds)]
    rfl
  · rw [if_neg known, if_neg (mt List.contains_iff_mem.mp known)]
    rfl

/-- **Evidence is taken just when its id stands configured and both texts find room**,
whichever allocations are granted. -/
theorem Guest.provideEvidence_outcome (id evidence : String) (world : World) :
    ∃ answer after, provideEvidence id evidence world = .ok answer after ∧
      EvidenceOutcome world.host id evidence answer after.host := by
  rw [provideEvidence, writeText, writeText]
  refine bind_writeBytes_cases (fun missing error after only => ⟨false, _, rfl, ?_⟩)
    fun idShort somewhere grants idBuffer idHolds => ?_
  · refine .refused (fun both => missing ⟨both.2.id_short, ?_⟩) only.records
    have all : world.host.Provides ([(Utf8.encode id).length] ++ [(Utf8.encode evidence).length]) :=
      both.2.room
    exact Host.provides_of_append all
  have behind : world.host.Provides [(Utf8.encode id).length, (Utf8.encode evidence).length] ↔
      (world.granted (Utf8.encode id)).host.Provides [(Utf8.encode evidence).length] :=
    (Host.provides_cons_iff idShort).trans
      ⟨fun all => all.2.2, fun provided => ⟨somewhere, grants, provided⟩⟩
  rw [orAbandon_ok]
  refine bind_writeBytes_cases (fun missing error after only => ⟨false, _, rfl, ?_⟩)
    fun evidenceShort somewhere' grants' evidenceBuffer evidenceHolds => ?_
  · refine .refused (fun both => missing ⟨both.2.evidence_short, behind.mp both.2.room⟩) ?_
    exact only.records
  have room : (world.granted (Utf8.encode id)).host.Provides [(Utf8.encode evidence).length] :=
    (Host.provides_cons_iff evidenceShort).mpr ⟨somewhere', grants', trivial⟩
  have fits : world.host.FitsEvidence id evidence :=
    ⟨idShort, evidenceShort, behind.mpr room⟩
  have asked := Host.provideEvidence_of_holds (idHolds.mono (List.prefix_append _ _)) evidenceHolds
  rw [World.setup_granted, World.setup_granted] at asked
  by_cases known : id ∈ world.host.setup.claimIds.values
  · rw [if_pos known] at asked
    exact ⟨true, _, bind_of_ok (call_of_ok asked), .taken known fits rfl⟩
  · rw [if_neg known] at asked
    exact ⟨false, _, bind_of_ok (call_of_ok asked), .refused (fun both => known both.1) rfl⟩

/-! ## The declaration -/

/-- There is room for the claim and for the id that is handed out. -/
structure Host.FitsDeclaration (host : Host) (claim : String) : Prop where
  short : (Utf8.encode claim).length < UInt32.size
  room : host.Provides [(Utf8.encode claim).length, 64]

namespace Guest

variable {world : World} {claim : String}

/-- Without room for its buffer a reply is not seen. -/
theorem replyText?_of_not_provides {capacity : UInt32} {ask : UInt32 → UInt32 → HostCall UInt32}
    (missing : ¬ world.host.Provides [capacity.toNat]) :
    ∃ after, replyText? capacity ask world = .ok none after := by
  obtain ⟨after, refused, -⟩ := reserve_of_not_provides missing
  have nothing : reply? capacity ask world = .ok none after := by
    rw [reply?, bind_of_ok refused]
    rfl
  rw [replyText?, bind_of_ok nothing]
  exact ⟨after, rfl⟩

/-- Without room a declaration hands out nothing. -/
theorem declareState?_of_unfit (unfit : ¬ world.host.FitsDeclaration claim) :
    ∃ answer after, declareState? claim world = .ok answer after ∧ answer = none := by
  rw [declareState?, writeText]
  refine bind_writeBytes_cases (fun _ error after _ => ⟨none, _, rfl, rfl⟩)
    fun short somewhere grants buffer _ => ?_
  have missing : ¬ (world.granted (Utf8.encode claim)).host.Provides [claimIdCapacity.toNat] :=
    fun room => unfit ⟨short, (Host.provides_cons_iff short).mpr ⟨somewhere, grants, room⟩⟩
  obtain ⟨after, answers⟩ := replyText?_of_not_provides missing
  exact ⟨none, after, answers, rfl⟩

/-- **A declaration hands out the id that stands configured for the claim**, just when the
id is neither empty nor longer than its buffer and there is room. -/
theorem declareState?_outcome (claim : String) (world : World) :
    ∃ answer after, declareState? claim world = .ok answer after ∧
      ∀ id, answer = some id ↔ world.host.setup.claimIds.find? claim = some id ∧
        (0 < (Utf8.encode id).length ∧ (Utf8.encode id).length ≤ 64) ∧
        world.host.FitsDeclaration claim := by
  by_cases fits : world.host.FitsDeclaration claim
  · obtain ⟨after, answers, -⟩ := reads_declareState? fits.short fits.room
    refine ⟨_, after, answers, fun id => seenText?_getD_eq_some_iff.trans ?_⟩
    exact and_congr_right fun _ => (and_iff_left fits).symm
  · obtain ⟨_, after, answers, rfl⟩ := declareState?_of_unfit fits
    exact ⟨none, after, answers, fun id => iff_of_false nofun fun all => fits all.2.2⟩

end Guest

/-! ## What a run says about claims -/

namespace Taken

variable {claim : String} {log more : List Taken}

/-- The evidence of a call that was answered that it was taken. -/
def evidence? : Taken → Option (String × String)
  | (.report (.provideEvidence id evidence), .truth true) => some (id, evidence)
  | _ => none

/-- What a step leaves configured for the claim, an id or none, if it changes that. -/
def assigned? (claim : String) : Taken → Option (Option String)
  | (.configure (.claimId other id), _) => if other = claim then some (some id) else none
  | (.configure (.forget (.claimId other)), _) => if other = claim then some none else none
  | _ => none

/-- The id that a declaration handed out. -/
def handedOut? : Taken → Option String
  | (.report (.declareState _), .text id) => some id
  | _ => none

/-- The id that stands configured for the claim, as the last change left it. -/
def idOf? (claim : String) (log : List Taken) : Option String :=
  (log.filterMap (assigned? claim)).getLast?.getD none

/-- The last change decides, wherever the log is divided. -/
theorem idOf?_append : idOf? claim (log ++ more)
    = (more.filterMap (assigned? claim)).getLast?.getD (idOf? claim log) := by
  rw [idOf?, List.filterMap_append, List.getLast?_append]
  cases (more.filterMap (assigned? claim)).getLast? <;> rfl

theorem idOf?_concat (entry : Taken) :
    idOf? claim (log ++ [entry]) = (assigned? claim entry).getD (idOf? claim log) := by
  rw [idOf?_append, List.filterMap_cons]
  cases assigned? claim entry <;> rfl

end Taken

open Taken

/-- What a host knows of the run that led to it. -/
structure Attested (host : Host) (log : List Taken) : Prop where
  /-- There is somewhere to allocate. -/
  spares : host.SparesNull
  /-- Each claim has one id. -/
  distinct : host.setup.claimIds.Distinct
  /-- The ids are those that were configured last and not forgotten since. -/
  ids : ∀ claim, host.setup.claimIds.find? claim = idOf? claim log
  /-- The evidence is that of the calls that were answered that it was taken. -/
  evidence : host.records.evidence = log.filterMap evidence?

theorem attested_initial : Attested .initial [] where
  spares := by decide
  distinct := Table.distinct_empty
  ids _ := rfl
  evidence := rfl

section Steps

variable {session : Session} {log : List Taken} {before after : Host}

/-- An id is known just when it stands configured for some claim. -/
theorem Attested.known_iff (attested : Attested before log) {id : String} :
    id ∈ before.setup.claimIds.values ↔ ∃ claim, idOf? claim log = some id := by
  simp only [attested.distinct.mem_values_iff, attested.ids]

/-- What a host knows after one more step. -/
theorem Attested.concat (attested : Attested before log) {entry : Taken}
    (spares : after.SparesNull) (distinct : after.setup.claimIds.Distinct)
    (ids : ∀ claim, after.setup.claimIds.find? claim
      = (assigned? claim entry).getD (before.setup.claimIds.find? claim))
    (evidence : after.records.evidence = before.records.evidence ++ (evidence? entry).toList) :
    Attested after (log ++ [entry]) where
  spares := spares
  distinct := distinct
  ids claim := by rw [ids, attested.ids, idOf?_concat]
  evidence := by
    rw [evidence, attested.evidence, List.filterMap_append, List.filterMap_cons]
    cases evidence? entry <;> rfl

/-- The call with evidence, as a step. -/
theorem Session.step_provideEvidence (session : Session) (id evidence : String) :
    ∃ answer, (session.step (.report (.provideEvidence id evidence))).1.answer = .truth answer ∧
      EvidenceOutcome session.host id evidence answer
        (session.step (.report (.provideEvidence id evidence))).2.host := by
  obtain ⟨answer, after, answers, outcome⟩ :=
    Guest.provideEvidence_outcome id evidence ⟨session.host, []⟩
  have ran : Step.run session.locals (.report (.provideEvidence id evidence)) ⟨session.host, []⟩
      = .ok (.truth answer, session.locals) after := bind_of_ok (map_of_ok Answer.truth answers)
  obtain ⟨replied, left⟩ := Session.step_of_ok ran
  exact ⟨answer, replied, left ▸ outcome⟩

/-- The declaration, as a step. -/
theorem Session.step_declareState (session : Session) (claim : String) :
    ∃ answer, (session.step (.report (.declareState claim))).1.answer = .ofOption .text answer ∧
      ∀ id, answer = some id ↔ session.host.setup.claimIds.find? claim = some id ∧
        (0 < (Utf8.encode id).length ∧ (Utf8.encode id).length ≤ 64) ∧
        session.host.FitsDeclaration claim := by
  obtain ⟨answer, after, answers, handsOut⟩ :=
    Guest.declareState?_outcome claim ⟨session.host, []⟩
  have ran : Step.run session.locals (.report (.declareState claim)) ⟨session.host, []⟩
      = .ok (.ofOption .text answer, session.locals) after :=
    bind_of_ok (map_of_ok (Answer.ofOption .text) answers)
  exact ⟨answer, (Session.step_of_ok ran).1, handsOut⟩

/-- The answer to a call with evidence, behind the steps of the log. -/
structure Session.AnswersEvidence (session : Session) (log : List Taken) (id evidence : String)
    (answer : Bool) : Prop where
  replied : (session.step (.report (.provideEvidence id evidence))).1.answer = .truth answer
  /-- Evidence is taken just when its id stands configured for some claim and both texts
  find room. -/
  taken_iff : answer = true ↔
    (∃ claim, idOf? claim log = some id) ∧ session.host.FitsEvidence id evidence
  /-- Then the pair is recorded; otherwise the records stay as they were. -/
  records : (session.step (.report (.provideEvidence id evidence))).2.host.records
    = if answer then session.host.records.attested id evidence else session.host.records

/-- When a declaration hands out the id, behind the steps of the log: it stands configured
for the claim, it is neither empty nor longer than its buffer, and there is room. -/
structure Session.HandsOut (session : Session) (log : List Taken) (claim id : String) :
    Prop where
  stands : idOf? claim log = some id
  present : 0 < (Utf8.encode id).length
  fits : (Utf8.encode id).length ≤ 64
  room : session.host.FitsDeclaration claim

theorem Attested.answersEvidence (attested : Attested session.host log) (id evidence : String) :
    ∃ answer, session.AnswersEvidence log id evidence answer := by
  obtain ⟨answer, replied, outcome⟩ := session.step_provideEvidence id evidence
  refine ⟨answer, replied, ?_, outcome.records_eq⟩
  rw [outcome.answer_iff, attested.known_iff]

theorem Attested.handsOut_iff (attested : Attested session.host log) {claim id : String} :
    (session.step (.report (.declareState claim))).1.answer = .text id ↔
      session.HandsOut log claim id := by
  obtain ⟨answer, replied, handsOut⟩ := session.step_declareState claim
  have same : Answer.ofOption .text answer = .text id ↔ answer = some id := by
    cases answer with
    | none => exact iff_of_false nofun nofun
    | some known => exact ⟨fun same => congrArg some (Answer.text.inj same), congrArg _⟩
  rw [replied, same, handsOut, attested.ids]
  exact ⟨fun ⟨stands, ⟨present, fits⟩, room⟩ => ⟨stands, present, fits, room⟩,
    fun out => ⟨out.stands, ⟨out.present, out.fits⟩, out.room⟩⟩

/-- Operations configure nothing. -/
theorem Step.assigned?_eq_none {step : Step} (operation : step.IsOperation) (claim : String)
    (answer : Answer) : assigned? claim (step, answer) = none := by
  cases step with
  | configure _ => exact operation.elim
  | _ => rfl

/-- Only the call with evidence tells the host about evidence. -/
theorem Step.unseen_evidence {step : Step}
    (other : ∀ id evidence, step ≠ .report (.provideEvidence id evidence)) :
    step.Unseen Records.evidence ∧ ∀ answer, evidence? (step, answer) = none := by
  cases step with
  | report step =>
    cases step with
    | provideEvidence id evidence => exact absurd rfl (other id evidence)
    | setReturnData _ | emitEvent _ | logDebug _ => exact ⟨fun _ _ => rfl, fun _ => rfl⟩
    | createOutput | createLockedOutput | appendState | appendResource | createBatch =>
      exact ⟨fun _ _ _ _ _ _ => rfl, fun _ => rfl⟩
    | declareState _ | controlledState _ => exact ⟨trivial, fun _ => rfl⟩
  | builder _ _ | vote _ _ => exact ⟨fun _ _ => rfl, fun _ => rfl⟩
  | transfer =>
    exact ⟨⟨fun _ _ => rfl, fun _ _ => rfl, fun _ _ => rfl, fun _ _ => rfl⟩, fun _ => rfl⟩
  | configure _ | reset | dump | memory _ | raw _ | query _ | loadInvocation =>
    exact ⟨trivial, fun _ => rfl⟩

/-- Settings record nothing.  One of them configures the id of a claim, and one forgets
it. -/
theorem Attested.configure (attested : Attested before log) (setting : Setting) (answer : Answer) :
    Attested (before.configure setting) (log ++ [(.configure setting, answer)]) := by
  have told := (List.append_nil before.records.evidence).symm
  cases setting with
  | claimId other id =>
    refine attested.concat attested.spares (attested.distinct.insert other id)
      (fun claim => ?_) told
    show (before.setup.claimIds.insert other id).find? claim
      = (if _ then _ else _ : Option _).getD _
    rw [Table.find?_insert]
    split <;> rfl
  | forget entry =>
    cases entry with
    | claimId other =>
      refine attested.concat attested.spares (attested.distinct.erase other)
        (fun claim => ?_) told
      show (before.setup.claimIds.erase other).find? claim
        = (if _ then _ else _ : Option _).getD _
      rw [Table.find?_erase]
      split <;> rfl
    | _ => exact attested.concat attested.spares attested.distinct (fun _ => rfl) told
  | _ => exact attested.concat attested.spares attested.distinct (fun _ => rfl) told

/-- **One step.** -/
theorem Attested.step (attested : Attested session.host log) {step : Step}
    (keeps : step.KeepsHost) :
    Attested (session.step step).2.host (log ++ [(step, (session.step step).1.answer)]) := by
  by_cases operation : step.IsOperation
  · -- operations leave the ids as they are
    have growth := Session.growth_step operation step.unseen_hidden attested.spares
    have spares := attested.spares.mono growth.length_le
    have distinct : (session.step step).2.host.setup.claimIds.Distinct :=
      growth.setup.symm ▸ attested.distinct
    have ids (claim : String) : (session.step step).2.host.setup.claimIds.find? claim
        = (assigned? claim (step, (session.step step).1.answer)).getD
          (session.host.setup.claimIds.find? claim) := by
      rw [Step.assigned?_eq_none operation, growth.setup]
      rfl
    refine attested.concat spares distinct ids ?_
    by_cases other : ∀ id evidence, step ≠ .report (.provideEvidence id evidence)
    · obtain ⟨unseen, nothing⟩ := Step.unseen_evidence other
      rw [nothing, Option.toList_none, List.append_nil]
      exact (Session.growth_step operation unseen attested.spares).shown
    · simp only [not_forall, not_not] at other
      obtain ⟨id, evidence, rfl⟩ := other
      obtain ⟨answer, replied, outcome⟩ := session.step_provideEvidence id evidence
      rw [replied, outcome.records_eq]
      cases answer with
      | true => rfl
      | false => exact (List.append_nil _).symm
  · cases step with
    | configure setting => exact attested.configure setting _
    | reset | raw _ => exact keeps.elim
    | dump | memory _ | query _ | report _ | builder _ _ | loadInvocation | transfer
    | vote _ _ => exact absurd trivial operation

end Steps

/-! ## A run -/

namespace Session

variable {session : Session} {steps : List (Except BoundaryError Step)}

/-- **A run**, from a fresh host on. -/
theorem attested_run (fresh : session.host = .initial)
    (keeps : ∀ step, .ok step ∈ steps → step.KeepsHost) :
    Attested (session.run steps).2.host (session.taken steps) :=
  run_keeps (fresh ▸ attested_initial) (fun _ _ _ allowed attested => attested.step allowed) keeps

/-- A step that was taken is one of the steps. -/
theorem mem_of_taken {entry : Taken} (mem : entry ∈ session.taken steps) :
    .ok entry.1 ∈ steps := by
  induction steps generalizing session with
  | nil => cases mem
  | cons first rest ih =>
    cases first with
    | error error => exact List.mem_cons_of_mem _ (ih mem)
    | ok step =>
      rcases List.mem_cons.mp mem with rfl | later
      · exact List.mem_cons_self
      · exact List.mem_cons_of_mem _ (ih later)

/-- An id stays as long as the claim is neither configured anew nor forgotten. -/
theorem idOf?_append_of_unassigned {claim : String} {log : List Taken}
    (unassigned : ∀ id, .ok (.configure (.claimId claim id)) ∉ steps)
    (remembered : .ok (.configure (.forget (.claimId claim))) ∉ steps) :
    idOf? claim (log ++ session.taken steps) = idOf? claim log := by
  have nothing : (session.taken steps).filterMap (assigned? claim) = [] := by
    rw [List.filterMap_eq_nil_iff]
    intro entry mem
    obtain ⟨step, answer⟩ := entry
    have isStep : .ok step ∈ steps := mem_of_taken mem
    cases step with
    | configure setting =>
      cases setting with
      | claimId other id =>
        refine if_neg ?_
        rintro rfl
        exact unassigned id isStep
      | forget entry =>
        cases entry with
        | claimId other =>
          refine if_neg ?_
          rintro rfl
          exact remembered isStep
        | _ => rfl
      | _ => rfl
    | _ => rfl
  rw [idOf?_append, nothing]
  rfl

/-- The evidence and the claims of a run. -/
structure EvidenceExact (session : Session) (steps : List (Except BoundaryError Step)) : Prop where
  /-- At every point, the recorded evidence is that of the calls that were answered that it
  was taken, in order. -/
  recorded : ∀ front back, steps = front ++ back →
    (session.run front).2.host.records.evidence = (session.taken front).filterMap evidence?
  /-- Each call with evidence is answered as its id and the room decide. -/
  provided : ∀ front id evidence back,
    steps = front ++ .ok (.report (.provideEvidence id evidence)) :: back →
    ∃ answer, (session.run front).2.AnswersEvidence (session.taken front) id evidence answer
  /-- Each declaration hands out the id that stands configured for the claim, or nothing. -/
  declared : ∀ front claim back, steps = front ++ .ok (.report (.declareState claim)) :: back →
    ∀ id, ((session.run front).2.step (.report (.declareState claim))).1.answer = .text id ↔
      (session.run front).2.HandsOut (session.taken front) claim id
  /-- Evidence under an id that was handed out is taken where it finds room, as long as the
  claim is neither configured anew nor forgotten. -/
  honoured : ∀ front claim id middle evidence back,
    steps = (front ++ .ok (.report (.declareState claim)) :: middle)
      ++ .ok (.report (.provideEvidence id evidence)) :: back →
    ((session.run front).2.step (.report (.declareState claim))).1.answer = .text id →
    (∀ other, .ok (.configure (.claimId claim other)) ∉ middle) →
    .ok (.configure (.forget (.claimId claim))) ∉ middle →
    let here := (session.run (front ++ .ok (.report (.declareState claim)) :: middle)).2
    here.host.FitsEvidence id evidence →
      (here.step (.report (.provideEvidence id evidence))).1.answer = .truth true

/-- **Evidence is recorded exactly**, over any run from a fresh host, with any settings and
whichever allocations are granted: each pair of a call that was answered that it was taken,
and nothing else.  It is taken under the ids that stand configured, declared or not. -/
theorem evidence_exact (fresh : session.host = .initial)
    (keeps : ∀ step, .ok step ∈ steps → step.KeepsHost) : session.EvidenceExact steps := by
  have here {front back : List (Except BoundaryError Step)} (whole : steps = front ++ back) :
      Attested (session.run front).2.host (session.taken front) :=
    attested_run fresh fun step mem => keeps step (whole ▸ List.mem_append_left back mem)
  refine ⟨fun front back whole => (here whole).evidence,
    fun front id evidence back whole => (here whole).answersEvidence id evidence,
    fun front claim back whole id => (here whole).handsOut_iff, ?_⟩
  intro front claim id middle evidence back whole handedOut unassigned remembered now fits
  obtain ⟨answer, answers⟩ := (here whole).answersEvidence id evidence
  rw [List.append_assoc] at whole
  have out := (here whole).handsOut_iff.mp handedOut
  have still : idOf? claim (session.taken (front ++ .ok (.report (.declareState claim)) :: middle))
      = some id := by
    rw [taken_append]
    refine (idOf?_append_of_unassigned (fun other mem => ?_) fun mem => ?_).trans out.stands
    · rcases List.mem_cons.mp mem with same | later
      · cases same
      · exact unassigned other later
    · rcases List.mem_cons.mp mem with same | later
      · cases same
      · exact remembered later
  rw [answers.replied, answers.taken_iff.mpr ⟨⟨claim, still⟩, fits⟩]

/-- Evidence is taken under an id that no declaration handed out, until the claim is
forgotten. -/
theorem evidence_exact_undeclared :
    let steps : List (Except BoundaryError Step) := [
      .ok (.configure (.claimId "c" "claim-1")),
      .ok (.report (.provideEvidence "claim-1" "\x7b\x7d")),
      .ok (.configure (.forget (.claimId "c"))),
      .ok (.report (.provideEvidence "claim-1" "late"))]
    initial.EvidenceExact steps ∧
      (initial.taken steps).filterMap handedOut? = [] ∧
      (initial.run steps).2.host.records.evidence = [("claim-1", "\x7b\x7d")] := by
  intro steps
  have taken : (initial.taken steps).filterMap evidence? = [("claim-1", "\x7b\x7d")] := by
    decide +kernel
  have whole : initial.EvidenceExact steps := by
    refine evidence_exact rfl fun step mem => ?_
    simp only [steps, List.mem_cons, List.not_mem_nil, or_false, Except.ok.injEq] at mem
    rcases mem with rfl | rfl | rfl | rfl <;> trivial
  refine ⟨whole, by decide +kernel, ?_⟩
  rw [whole.recorded steps [] (List.append_nil _).symm, taken]

end Session

end HostBoundary
