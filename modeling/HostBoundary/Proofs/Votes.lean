import HostBoundary.Proofs.Base64Texts
import HostBoundary.Proofs.DraftText
import HostBoundary.Proofs.Provisions
import HostBoundary.Proofs.Runs
import HostBoundary.Proofs.Transfer

/-!
# What a vote does

A vote reads the version of its state and sends the next one.  The version is
answered as a number, and a number cannot say that the question was never asked:
a state id that finds no room reads as version zero, just as a state that nobody
wrote.  On the face of it such a vote would be sent as the first version of a
state that has others.

It never is, for one of two reasons.

* A refusal is final (`Host.not_grants_refused`), so where the state id found no
  room the draft finds none either.  A host that still grants after the question
  has answered it (`Guest.stateVersion_of_grants`).
* A state id that is too long to be written is part of a draft that is longer
  still (`Draft.length_stateId_le`).

Both need that the arena is not empty, as it is wherever a run leads
(`Reachable.reserved`): in an empty arena the region of the state id begins at the null
pointer, which reads as a refusal although none was made.

## Main results

* `Token.voteStateId_eq_iff` — no two voters share a state, and no two proposals
  of one voter do.
* `Token.vote_sends_next_version` — what is sent, what is left alone, and what
  the answer means.
* `Token.vote_of_reachable` — the same wherever a run leads.
* `Token.performs_vote` — a vote that finds room is sent.
-/

namespace HostBoundary

open Guest

variable {world after : World}

/-! ## The version that is read -/

/-- The version of the state whose id a region holds. -/
theorem Host.stateVersion_holds {host : Host} {id : Buffer} {key : Bytes}
    (holds : id.Holds host.arena key) :
    stateVersion id.pointer id.length host
      = .ok ((host.setup.stateVersions.find? key).getD 0) host := by
  rw [stateVersion, bind_of_ok (readArgument_holds holds)]
  rfl

/-- **A version is the one that the host has**, if the host still grants after
the question.  A state id that finds no room reads as version zero; but after
that no allocation is ever granted. -/
theorem Guest.stateVersion_of_grants (nonempty : world.host.SparesNull) {stateId : String}
    (short : (Utf8.encode stateId).length < UInt32.size) {version : UInt64}
    (answers : stateVersion stateId world = .ok version after) (grants : after.host.Grants) :
    version = (world.host.setup.stateVersions.find? (Utf8.encode stateId)).getD 0 := by
  by_cases granted : world.host.Grants
  · have holds := nextRegion_holds_written nonempty granted short
    have written := writeBytes_of_grants granted nonempty short
    rw [stateVersion, writeText, bind_of_ok written] at answers
    simp only [orAbandon_ok] at answers
    rw [call_of_ok (Host.stateVersion_holds holds)] at answers
    cases answers
    rfl
  · rw [stateVersion, writeText, bind_of_ok (writeBytes_of_not_grants granted short)] at answers
    cases answers
    exact absurd grants (Host.not_grants_refused granted _)

/-- With room for the state id, a version is the one that the host has. -/
theorem performs_stateVersion {stateId : String}
    (short : (Utf8.encode stateId).length < UInt32.size) :
    Performs world (stateVersion stateId) [(Utf8.encode stateId).length] id
      ((world.host.setup.stateVersions.find? (Utf8.encode stateId)).getD 0) := by
  rw [stateVersion, writeText]
  refine Performs.bind_writeBytes short fun id holds rest provided => ?_
  have asked := call_of_ok (Host.stateVersion_holds holds)
  exact ⟨_, asked, provided, rfl, rfl⟩

/-! ## Drafts that are too long -/

/-- A draft that is too long to be written never reaches the host. -/
theorem Guest.finalize_of_long (world : World) {builder : Builder}
    (unspent : builder.finalized = false)
    (long : ¬ (Utf8.encode builder.draft.text).length < UInt32.size) :
    ∃ after, finalize builder world
        = .ok (.failed .executionFailed, { builder with finalized := true }) after ∧
      after.host = world.host := by
  have built : build builder.draft world = .ok (.error (.host .executionFailed)) world := by
    rw [build, writeText, bind_of_ok (writeBytes_of_long long)]
    rfl
  obtain ⟨trace, answers⟩ := finalize_of_build unspent built
  exact ⟨_, answers, rfl⟩

/-- Base64 is never shorter than what it stands for. -/
theorem Base64.length_le_encode (bytes : Bytes) :
    bytes.length ≤ (Utf8.encode (encode bytes)).length := by
  rw [utf8_encode, length_symbols]
  omega

/-- The text of a draft with one state output holds the id of the state. -/
theorem Draft.length_stateId_le (stateId : Bytes) (version : UInt64) (execHash : Hash) :
    stateId.length ≤
      (Utf8.encode (text ⟨.deferSign, [.state stateId version execHash], []⟩)).length := by
  have spelled := Base64.length_le_encode stateId
  simp only [text, OutputDraft.text, OutputDraft.fields, List.map_cons, List.map_nil,
    String.intercalate_singleton, String.join_cons, Utf8.encode_append, List.length_append]
  omega

/-! ## The state of a vote -/

namespace Token

variable {voter voter' : Address} {proposal proposal' : String}

/-- **Every voter and every proposal has a state of its own.**  The digits of the
voter are as many as those of any other, so the proposal begins at the same place,
whatever it holds. -/
theorem voteStateId_eq_iff :
    voteStateId voter proposal = voteStateId voter' proposal' ↔
      voter = voter' ∧ proposal = proposal' := by
  constructor
  · intro same
    have bytes := congrArg Utf8.encode same
    simp only [voteStateId, Utf8.encode_append, List.append_assoc] at bytes
    have behind := List.append_cancel_left bytes
    have aligned : (Utf8.encode voter.toHex).length = (Utf8.encode voter'.toHex).length := by
      rw [FixedBytes.length_toHex, FixedBytes.length_toHex]
    obtain ⟨digits, rest⟩ := List.append_inj behind aligned
    exact ⟨toHex_injective (Utf8.encode_injective digits),
      Utf8.encode_injective (List.append_cancel_left rest)⟩
  · rintro ⟨rfl, rfl⟩
    rfl

/-! ## The vote -/

/-- The version that the host has for a state, zero if there is none. -/
def storedVersion (setup : Setup) (stateId : String) : UInt64 :=
  (setup.stateVersions.find? (Utf8.encode stateId)).getD 0

/-- The choice of a voter was sent: one draft, which asks for the next version of
the state of the vote and for nothing else; and nothing but that draft. -/
structure Cast (voter : Address) (proposal choice : String) (before : Host)
    (after : Records) : Prop where
  /-- The state belongs to the voter and the proposal. -/
  spelled : ∃ digits, Hex.Spells voter.toBytes digits ∧ digits.length = 40 ∧
    voteStateId voter proposal = "vote:" ++ digits ++ ":" ++ proposal
  /-- The next version of it is all that was sent. -/
  sent : ∃ version : UInt64,
    version.toNat = (storedVersion before.setup (voteStateId voter proposal)).toNat + 1 ∧
    after = { before.records with drafts := before.records.drafts ++
      [Draft.text ⟨.deferSign, [.state (Utf8.encode (voteStateId voter proposal)) version
        (ContentTag.tag (Utf8.encode (voteStateId voter proposal ++ "=" ++ choice)))], []⟩] }

theorem voteStateId_spelled (voter : Address) (proposal : String) :
    ∃ digits, Hex.Spells voter.toBytes digits ∧ digits.length = 40 ∧
      voteStateId voter proposal = "vote:" ++ digits ++ ":" ++ proposal := by
  refine ⟨voter.toHex, Hex.spells_encode _, ?_, rfl⟩
  rw [FixedBytes.toHex, Hex.encode, Ascii.text, String.length_ofList, List.length_map,
    Hex.length_digits, voter.length_toBytes]

/-- The draft of a vote, behind a version that was read. -/
def voteBuilder (voter : Address) (proposal choice : String) (stored : UInt64) : Builder :=
  Builder.fresh.addOutput <| .state (Utf8.encode (voteStateId voter proposal)) (stored + 1)
    (voteTag (voteStateId voter proposal) choice)

theorem vote_of_finalize {invocation : Invocation} {choice : String} {stored : UInt64}
    {middle : World} {result : TransactionResult} {spent : Builder}
    (asked : stateVersion (voteStateId invocation.caller proposal) world = .ok stored middle)
    (finalized : finalize (voteBuilder invocation.caller proposal choice stored) middle
      = .ok (result, spent) after) :
    vote invocation proposal choice world = .ok result.code.toHost after := by
  rw [vote, bind_of_ok asked]
  exact bind_of_ok finalized

/-- What becomes of a vote, where no region begins at the null pointer. -/
theorem vote_cases (invocation : Invocation) (proposal choice : String)
    (spares : world.host.SparesNull) (below : (storedVersion world.host.setup
      (voteStateId invocation.caller proposal)).toNat + 1 < UInt64.size) :
    ∃ status after, vote invocation proposal choice world = .ok status after ∧
      ((after.host.records = world.host.records ∧ status ≠ 0) ∨
        Cast invocation.caller proposal choice world.host after.host.records) := by
  have safe : Safe id world.host.arena.length []
      (stateVersion (voteStateId invocation.caller proposal)) := safe_stateVersion _
  obtain ⟨stored, middle, asked, -⟩ := safe world spares (Nat.le_refl _) nofun
  obtain ⟨-, setup, records⟩ := safe.question spares asked
  have unspent : (voteBuilder invocation.caller proposal choice stored).finalized = false := rfl
  rw [← records]
  by_cases short : (Utf8.encode
      (voteBuilder invocation.caller proposal choice stored).draft.text).length < UInt32.size
  · obtain ⟨result, after, finalized, told⟩ := finalize_cases middle unspent
    refine ⟨_, after, vote_of_finalize asked finalized, ?_⟩
    rcases told with ⟨rfl, unchanged⟩ | ⟨grants, rfl, sent⟩
    · exact .inl ⟨unchanged, by decide⟩
    · -- the draft found room, so the question had found room before it
      have named := Nat.lt_of_le_of_lt (Draft.length_stateId_le _ _ _) short
      have read := stateVersion_of_grants spares named asked grants
      refine .inr ⟨voteStateId_spelled _ _, stored + 1, ?_, sent.trans ?_⟩
      · rw [storedVersion, ← read] at below ⊢
        rw [UInt64.toNat_add]
        exact Nat.mod_eq_of_lt below
      · rw [records]
        rfl
  · obtain ⟨after, finalized, unchanged⟩ := finalize_of_long middle unspent short
    refine ⟨_, after, vote_of_finalize asked finalized, .inl ⟨?_, by decide⟩⟩
    rw [unchanged]

/-- The draft of a vote on a host with this setup. -/
def voteDraft (setup : Setup) (voter : Address) (proposal choice : String) : Draft :=
  (voteBuilder voter proposal choice (storedVersion setup (voteStateId voter proposal))).draft

/-- **A vote that finds room is sent**, with the version behind the one that the host has,
on a host that builds it. -/
theorem performs_vote (invocation : Invocation) {choice : String}
    (short : (Utf8.encode
      (voteDraft world.host.setup invocation.caller proposal choice).text).length < UInt32.size)
    (builds : world.host.setup.Builds) :
    Performs world (vote invocation proposal choice)
      [(Utf8.encode (voteStateId invocation.caller proposal)).length,
        (Utf8.encode (voteDraft world.host.setup invocation.caller proposal choice).text).length,
        4096]
      (fun r => { r with drafts := r.drafts ++
        [(voteDraft world.host.setup invocation.caller proposal choice).text] }) 0 := by
  intro rest provided
  have named := Nat.lt_of_le_of_lt (Draft.length_stateId_le _ _ _) short
  obtain ⟨middle, asked, provided, setup, records⟩ := performs_stateVersion named _ provided
  rw [← setup] at builds
  obtain ⟨after, finalized, provided, setup', records'⟩ :=
    performs_finalize _ rfl short builds rest provided
  refine ⟨after, vote_of_finalize asked finalized, provided, setup'.trans setup, ?_⟩
  rw [records', records]
  rfl

/-- **A vote sends the next version of its state, or nothing.**  On every host whose arena is
not empty, it answers; and either what the host was told is as it was and the answer is a
failure, or exactly one draft was added, with the version behind the one that the
host has.  No two voters share the state, and no two proposals do.

Every host that a run leads to has the bytes in front of its arena (`Reachable.reserved`),
and there nothing has to be asked of the arena (`vote_of_reachable`). -/
theorem vote_sends_next_version (invocation : Invocation) (proposal choice : String)
    (world : World) (spares : world.host.SparesNull)
    (below : (storedVersion world.host.setup
      (voteStateId invocation.caller proposal)).toNat + 1 < UInt64.size) :
    (∃ status after, vote invocation proposal choice world = .ok status after ∧
      ((after.host.records = world.host.records ∧ status ≠ 0) ∨
        Cast invocation.caller proposal choice world.host after.host.records)) ∧
    (∀ (voter voter' : Address) (proposal proposal' : String),
      voteStateId voter proposal = voteStateId voter' proposal' ↔
        voter = voter' ∧ proposal = proposal') :=
  ⟨vote_cases invocation proposal choice spares below, fun _ _ _ _ => voteStateId_eq_iff⟩

/-- A host where the vote of one account on a proposal was changed five times. -/
def sixVersions : Host :=
  Host.initial.configure (.stateVersion (Utf8.encode (voteStateId .zero "a:b")) 6)

theorem storedVersion_sixVersions :
    storedVersion sixVersions.setup (voteStateId .zero "a:b") = 6 := by
  show ((Table.empty.insert _ 6).find? _).getD 0 = (6 : UInt64)
  rw [Table.find?_insert_self, Option.getD_some]

/-- There the vote finds room, so it is answered with success. -/
theorem vote_sixVersions :
    ∃ after, vote ⟨.zero, .zero, 0, 0⟩ "a:b" "yes" ⟨sixVersions, []⟩ = .ok 0 after := by
  have named : (Utf8.encode (voteStateId .zero "a:b")).length ≤ 1024 := by decide +kernel
  have drafted : (Utf8.encode (voteDraft sixVersions.setup .zero "a:b" "yes").text).length
      ≤ 1024 := by
    rw [voteDraft, storedVersion_sixVersions]
    decide +kernel
  have builds : sixVersions.setup.Builds := ⟨rfl, ⟨defaultReceipt⟩, by decide⟩
  have front : sixVersions.arena.length = 8 := rfl
  have all : UInt32.size = 4294967296 := rfl
  have provided : sixVersions.Provides [(Utf8.encode (voteStateId .zero "a:b")).length,
      (Utf8.encode (voteDraft sixVersions.setup .zero "a:b" "yes").text).length, 4096] := by
    refine Host.provides_of_unlimited rfl (by decide) ?_
    simp only [List.foldr_cons, List.foldr_nil]
    omega
  have short := Nat.lt_of_le_of_lt drafted (by decide : 1024 < UInt32.size)
  obtain ⟨after, answers, -⟩ := @performs_vote ⟨sixVersions, []⟩ "a:b" ⟨.zero, .zero, 0, 0⟩ "yes"
    short builds [] provided
  exact ⟨after, answers⟩

/-- The sixth version of a vote is followed by the seventh, also where the proposal
looks like a part of a state id. -/
theorem vote_sends_next_version_seventh :
    sixVersions.SparesNull ∧
    (storedVersion sixVersions.setup (voteStateId .zero "a:b")).toNat + 1 = 7 ∧
    ∃ after, vote ⟨.zero, .zero, 0, 0⟩ "a:b" "yes" ⟨sixVersions, []⟩ = .ok 0 after ∧
      Cast .zero "a:b" "yes" sixVersions after.host.records ∧
      after.host.records = { Records.none with drafts :=
        [Draft.text ⟨.deferSign, [.state (Utf8.encode (voteStateId .zero "a:b")) 7
          (voteTag (voteStateId .zero "a:b") "yes")], []⟩] } := by
  have seventh : (storedVersion sixVersions.setup (voteStateId .zero "a:b")).toNat + 1 = 7 := by
    rw [storedVersion_sixVersions]
    rfl
  have spares : sixVersions.SparesNull := by decide
  obtain ⟨status, after, answers, sent⟩ := (vote_sends_next_version ⟨.zero, .zero, 0, 0⟩ "a:b"
    "yes" ⟨sixVersions, []⟩ spares (seventh ▸ by decide)).1
  obtain ⟨after', success⟩ := vote_sixVersions
  rw [success] at answers
  cases answers
  rcases sent with ⟨-, failed⟩ | cast
  · exact absurd rfl failed
  obtain ⟨version, next, records⟩ := cast.sent
  have number : version = 7 := UInt64.toNat_inj.mp (next.trans seventh)
  subst number
  exact ⟨spares, seventh, _, success, cast, records⟩

/-- **Wherever a run leads, a vote sends the next version of its state, or nothing.** -/
theorem vote_of_reachable (reachable : Reachable world) (invocation : Invocation)
    (proposal choice : String)
    (below : (storedVersion world.host.setup
      (voteStateId invocation.caller proposal)).toNat + 1 < UInt64.size) :
    ∃ status after, vote invocation proposal choice world = .ok status after ∧
      ((after.host.records = world.host.records ∧ status ≠ 0) ∨
        Cast invocation.caller proposal choice world.host after.host.records) :=
  vote_cases invocation proposal choice reachable.sparesNull below

end Token

end HostBoundary
