import Mathlib.Data.List.Nodup
import HostBoundary.Proofs.Writing
import HostBoundary.Stored.Records

/-!
# Stored forms are faithful

A record that is stored goes two ways round: its value is written as a JSON value,
and that is written as a text; later the text is parsed and the value read.  The
two halves fit if reading undoes writing, and if what is written can be parsed at
all.  A form for which both hold is *sound* (`Form.Sound`), and soundness is kept
by everything that forms are made of: lists, optional values, names, and records
and cases with their fields.

## Lenient reading, strict writing

Reading allows more than writing produces, so a text that was stored by somebody
else need not come back as it was.  It comes back *settled*: whatever spelling was
read, what is stored from then on is the one text of the value
(`Form.Lossless.settled`).  This asks nothing of the spellings; it is because the
value is all that is kept of them.

## What a record's reader has to find

The fields of a record are looked up by name, and of a repeated name the last one
counts.  That each field finds its own value again is therefore a statement about
the names: no two of them are the same (`members?_written`).  The names are fixed,
so it is decided by looking at them.

## Main results

* `Form.Sound.list`, `Form.Sound.optional`, `Form.names_sound` — the containers.
* `Form.members?_written` — the fields of a record.
* `Form.stored_lossless` — all records.
-/

namespace HostBoundary

namespace Form

open Json (Legible)

variable {α : Type} {form : Form α}

/-- A form whose values are read back, and whose text is read as it is written. -/
structure Sound (form : Form α) : Prop where
  /-- Reading gives back what was written. -/
  faithful : form.Faithful
  /-- What is written can be read as JSON. -/
  legible : ∀ a, Legible (form.write a)

/-! ## Scalars -/

theorem natBelow?_nat {bound n : Nat} (small : n < bound) : natBelow? bound (.nat n) = some n :=
  if_pos small

theorem uint8_sound : uint8.Sound where
  faithful n := by
    show (natBelow? UInt8.size (.nat n.toNat)).map UInt8.ofNat = some n
    rw [natBelow?_nat n.toNat_lt, Option.map_some, UInt8.ofNat_toNat]
  legible n := Json.legible_nat n.toNat

theorem uint32_sound : uint32.Sound where
  faithful n := by
    show (natBelow? UInt32.size (.nat n.toNat)).map UInt32.ofNat = some n
    rw [natBelow?_nat n.toNat_lt, Option.map_some, UInt32.ofNat_toNat]
  legible n := Json.legible_nat n.toNat

theorem uint64_sound : uint64.Sound where
  faithful n := by
    show (natBelow? UInt64.size (.nat n.toNat)).map UInt64.ofNat = some n
    rw [natBelow?_nat n.toNat_lt, Option.map_some, UInt64.ofNat_toNat]
  legible n := Json.legible_nat n.toNat

theorem bool_sound : bool.Sound := ⟨fun _ => rfl, fun b => .bool b⟩

theorem string_sound : string.Sound := ⟨fun _ => rfl, fun s => .string s⟩

/-! ## Containers -/

theorem Sound.list (sound : form.Sound) : (list form).Sound where
  faithful items := by
    show (items.map form.write).mapM form.read? = some items
    induction items with
    | nil => rfl
    | cons a items ih =>
      rw [List.map_cons, List.mapM_cons, sound.faithful a, ih]
      rfl
  legible items := by
    refine .array ?_
    rw [List.forall_mem_map]
    exact fun a _ => sound.legible a

/-- A value that is never written as `null` may be missing. -/
theorem Sound.optional (sound : form.Sound) (notNull : ∀ a, form.write a ≠ .null) :
    form.optional.Sound where
  faithful
    | none => rfl
    | some a => by
      show form.optional.read? (form.write a) = some (some a)
      have present : form.optional.read? (form.write a) = (form.read? (form.write a)).map some := by
        cases written : form.write a with
        | null => exact absurd written (notNull a)
        | _ => rfl
      rw [present, sound.faithful a]
      rfl
  legible
    | none => .null
    | some a => sound.legible a

theorem bytes_sound : bytes.Sound where
  faithful := uint8_sound.list.faithful
  legible := uint8_sound.list.legible

theorem fixedBytes_sound {n : Nat} : (fixedBytes : Form (FixedBytes n)).Sound where
  faithful id := by
    show ((Form.list uint8).read? ((Form.list uint8).write id.toBytes)).bind
      FixedBytes.ofBytes? = some id
    rw [uint8_sound.list.faithful, Option.bind_some, FixedBytes.ofBytes?_toBytes]
  legible id := uint8_sound.list.legible id.toBytes

/-- A type whose cases have no content is stored by their names. -/
theorem names_sound {name : α → String} {ofName? : String → Option α}
    (inverse : ∀ a, ofName? (name a) = some a) : (names name ofName?).Sound where
  faithful a := inverse a
  legible a := .string (name a)

/-! ## Records -/

/-- Of members with different keys each is the last one under its key. -/
theorem lastMember?_of_mem {members : List (String × Json)} {member : String × Json}
    (distinct : (members.map (·.1)).Nodup) (mem : member ∈ members) :
    Json.lastMember? member.1 members = some member.2 := by
  obtain ⟨other, found⟩ : ∃ other, members.reverse.find? (·.1 == member.1) = some other := by
    rw [← Option.isSome_iff_exists, List.find?_isSome]
    exact ⟨member, List.mem_reverse.mpr mem, beq_self_eq_true member.1⟩
  have otherMem : other ∈ members := List.mem_reverse.mp (List.mem_of_find?_eq_some found)
  have sameKey : other.1 = member.1 := by simpa using List.find?_some found
  rw [Json.lastMember?, found, List.inj_on_of_nodup_map distinct otherMem mem sameKey]
  rfl

/-- An object that has just the named members is read in their order. -/
theorem members?_written {keys : List String} {members : List (String × Json)}
    (written : members.map (·.1) = keys) (distinct : keys.Nodup) :
    members? keys (.object members) = some (members.map fun member => some member.2) := by
  subst written
  rw [members?, List.map_map]
  congr 1
  exact List.map_congr_left fun member mem => lastMember?_of_mem distinct mem

/-- A field that was written is there to be read. -/
theorem Sound.required (sound : form.Sound) (a : α) :
    required form (some (form.write a)) = some a :=
  sound.faithful a

theorem Sound.optionalField (sound : form.optional.Sound) (a : Option α) :
    optionalField form (some (form.optional.write a)) = some a :=
  sound.faithful a

/-! ## The chain -/

theorem hash_sound : hash.Sound := fixedBytes_sound

theorem address_sound : address.Sound := fixedBytes_sound

theorem optionalAddress_sound : address.optional.Sound :=
  address_sound.optional fun _ null => by cases null

theorem optionalString_sound : string.optional.Sound :=
  string_sound.optional fun _ null => by cases null

theorem outPoint_sound : outPoint.Sound where
  faithful point := by
    have fields : fields? ["tx_hash", "index"] (outPoint.write point)
        = some [some (hash.write point.txHash), some (uint32.write point.index)] :=
      members?_written rfl (by decide)
    simp only [outPoint] at fields ⊢
    simp only [fields, hash_sound.required, uint32_sound.required, Option.bind_eq_bind,
      Option.bind_some]
    rfl
  legible point := .object (by simp [hash_sound.legible, uint32_sound.legible])

theorem outputType_sound : outputType.Sound := names_sound OutputType.ofName?_name

theorem txOutput_sound : txOutput.Sound where
  faithful output := by
    have fields : fields? ["output_type", "recipient", "amount", "token_id", "data"]
        (txOutput.write output)
        = some [some (outputType.write output.outputType),
          some (address.optional.write output.recipient), some (uint64.write output.amount),
          some (string.optional.write output.tokenId), some (bytes.write output.data)] :=
      members?_written rfl (by decide)
    simp only [txOutput] at fields ⊢
    simp only [fields, outputType_sound.required, optionalAddress_sound.optionalField,
      uint64_sound.required, optionalString_sound.optionalField, bytes_sound.required,
      Option.bind_eq_bind, Option.bind_some]
    rfl
  legible output := .object (by
    simp [outputType_sound.legible, optionalAddress_sound.legible, uint64_sound.legible,
      optionalString_sound.legible, bytes_sound.legible])

theorem utxo_sound : utxo.Sound where
  faithful output := by
    have fields : fields? ["out_point", "output"] (utxo.write output)
        = some [some (outPoint.write output.outPoint), some (txOutput.write output.output)] :=
      members?_written rfl (by decide)
    simp only [utxo] at fields ⊢
    simp only [fields, outPoint_sound.required, txOutput_sound.required, Option.bind_eq_bind,
      Option.bind_some]
    rfl
  legible output := .object (by simp [outPoint_sound.legible, txOutput_sound.legible])

theorem resourceCategory_sound : resourceCategory.Sound :=
  names_sound ResourceCategory.ofName?_name

theorem resource_sound : resource.Sound where
  faithful content := by
    have fields : fields? ["content_hash", "category", "mime_type", "size"]
        (resource.write content)
        = some [some (hash.write content.contentHash),
          some (resourceCategory.write content.category), some (string.write content.mimeType),
          some (uint64.write content.size)] :=
      members?_written rfl (by decide)
    simp only [resource] at fields ⊢
    simp only [fields, hash_sound.required, resourceCategory_sound.required,
      string_sound.required, uint64_sound.required, Option.bind_eq_bind, Option.bind_some]
    rfl
  legible content := .object <| by
    simp [hash_sound.legible, resourceCategory_sound.legible, string_sound.legible,
      uint64_sound.legible]

theorem stateResult_sound : stateResult.Sound where
  faithful state := by
    have fields : fields? ["value", "version"] (stateResult.write state)
        = some [some (bytes.write state.value), some (uint64.write state.version)] :=
      members?_written rfl (by decide)
    simp only [stateResult] at fields ⊢
    simp only [fields, bytes_sound.required, uint64_sound.required, Option.bind_eq_bind,
      Option.bind_some]
    rfl
  legible state := .object <| by
    simp [bytes_sound.legible, uint64_sound.legible]

/-! ## Calls and their outcomes -/

theorem statusCode_sound : statusCode.Sound := names_sound StatusCode.ofName?_name

theorem transactionResult_sound : transactionResult.Sound where
  faithful result := by
    have fields : fields? ["success", "code"] (transactionResult.write result)
        = some [some (bool.write result.success), some (statusCode.write result.code)] :=
      members?_written rfl (by decide)
    simp only [transactionResult] at fields ⊢
    simp only [fields, bool_sound.required, statusCode_sound.required, Option.bind_eq_bind,
      Option.bind_some]
    rfl
  legible result := .object <| by
    simp [bool_sound.legible, statusCode_sound.legible]

theorem batchItem_sound : batchItem.Sound where
  faithful item := by
    have fields : fields? ["recipient", "amount", "token_id"] (batchItem.write item)
        = some [some (address.write item.recipient), some (uint64.write item.amount),
          some (string.optional.write item.tokenId)] :=
      members?_written rfl (by decide)
    simp only [batchItem] at fields ⊢
    simp only [fields, address_sound.required, uint64_sound.required,
      optionalString_sound.optionalField, Option.bind_eq_bind, Option.bind_some]
    rfl
  legible item := .object <| by
    simp [address_sound.legible, uint64_sound.legible, optionalString_sound.legible]

theorem receipt_sound : receipt.Sound where
  faithful content := by
    have fields : fields? ["json"] (receipt.write content)
        = some [some (string.write content.json)] :=
      members?_written rfl (by decide)
    simp only [receipt] at fields ⊢
    simp only [fields, string_sound.required, Option.bind_eq_bind, Option.bind_some]
    rfl
  legible content := .object <| by
    simp [string_sound.legible]

theorem invocation_sound : invocation.Sound where
  faithful call := by
    have fields : fields? ["caller", "contract_address", "block_height", "timestamp"]
        (invocation.write call)
        = some [some (address.write call.caller), some (address.write call.contractAddress),
          some (uint64.write call.blockHeight), some (uint64.write call.timestamp)] :=
      members?_written rfl (by decide)
    simp only [invocation] at fields ⊢
    simp only [fields, address_sound.required, uint64_sound.required, Option.bind_eq_bind,
      Option.bind_some]
    rfl
  legible call := .object <| by
    simp [address_sound.legible, uint64_sound.legible]

theorem transferRequest_sound : transferRequest.Sound where
  faithful request := by
    have fields : fields? ["to", "amount", "token_id"] (transferRequest.write request)
        = some [some (address.write request.recipient), some (uint64.write request.amount),
          some (string.optional.write request.tokenId)] :=
      members?_written rfl (by decide)
    simp only [transferRequest] at fields ⊢
    simp only [fields, address_sound.required, uint64_sound.required,
      optionalString_sound.optionalField, Option.bind_eq_bind, Option.bind_some]
    rfl
  legible request := .object <| by
    simp [address_sound.legible, uint64_sound.legible, optionalString_sound.legible]

/-! ## Cases with content -/

/-- A case and its content are told apart again. -/
theorem case?_caseOf (name : String) (content : Json) :
    case? (caseOf name content) = some (name, some content) := by
  simp [caseOf, case?, Json.lastMember?]

theorem legible_caseOf {name : String} {content : Json} (legible : Legible content) :
    Legible (caseOf name content) :=
  .object (by simpa using legible)

theorem outputDraft_sound : outputDraft.Sound where
  faithful output := by
    cases output with
    | asset owner amount tokenId =>
      have fields : members? ["owner", "amount", "token_id"] (.object [
          ("owner", address.write owner), ("amount", uint64.write amount),
          ("token_id", string.optional.write tokenId)])
          = some [some (address.write owner), some (uint64.write amount),
            some (string.optional.write tokenId)] :=
        members?_written rfl (by decide)
      simp only [outputDraft, case?_caseOf]
      rw [output?, if_pos rfl]
      simp only [fields, address_sound.required, uint64_sound.required,
        optionalString_sound.optionalField, Option.bind_eq_bind, Option.bind_some]
      rfl
    | state stateId version execHash =>
      have fields : members? ["state_id", "version", "exec_hash"] (.object [
          ("state_id", bytes.write stateId), ("version", uint64.write version),
          ("exec_hash", hash.write execHash)])
          = some [some (bytes.write stateId), some (uint64.write version),
            some (hash.write execHash)] :=
        members?_written rfl (by decide)
      simp only [outputDraft, case?_caseOf]
      rw [output?, if_neg (by decide), if_pos rfl]
      simp only [fields, bytes_sound.required, uint64_sound.required, hash_sound.required,
        Option.bind_eq_bind, Option.bind_some]
      rfl
    | resource content owner =>
      have fields : members? ["resource", "owner"] (.object [
          ("resource", bytes.write content), ("owner", address.write owner)])
          = some [some (bytes.write content), some (address.write owner)] :=
        members?_written rfl (by decide)
      simp only [outputDraft, case?_caseOf]
      rw [output?, if_neg (by decide), if_neg (by decide), if_pos rfl]
      simp only [fields, bytes_sound.required, address_sound.required, Option.bind_eq_bind,
        Option.bind_some]
      rfl
  legible output := by
    cases output with
    | asset owner amount tokenId =>
      refine legible_caseOf (.object ?_)
      simp [address_sound.legible, uint64_sound.legible, optionalString_sound.legible]
    | state stateId version execHash =>
      refine legible_caseOf (.object ?_)
      simp [bytes_sound.legible, uint64_sound.legible, hash_sound.legible]
    | resource content owner =>
      refine legible_caseOf (.object ?_)
      simp [bytes_sound.legible, address_sound.legible]

theorem intentDraft_sound : intentDraft.Sound where
  faithful intent := by
    cases intent with
    | transfer sender recipient amount tokenId =>
      have fields : members? ["from", "to", "amount", "token_id"] (.object [
          ("from", address.write sender), ("to", address.write recipient),
          ("amount", uint64.write amount), ("token_id", string.optional.write tokenId)])
          = some [some (address.write sender), some (address.write recipient),
            some (uint64.write amount), some (string.optional.write tokenId)] :=
        members?_written rfl (by decide)
      simp only [intentDraft, case?_caseOf]
      rw [intent?, if_pos rfl]
      simp only [fields, address_sound.required, uint64_sound.required,
        optionalString_sound.optionalField, Option.bind_eq_bind, Option.bind_some]
      rfl
    | stake staker amount validator =>
      have fields : members? ["staker", "amount", "validator"] (.object [
          ("staker", address.write staker), ("amount", uint64.write amount),
          ("validator", address.write validator)])
          = some [some (address.write staker), some (uint64.write amount),
            some (address.write validator)] :=
        members?_written rfl (by decide)
      simp only [intentDraft, case?_caseOf]
      rw [intent?, if_neg (by decide), if_pos rfl]
      simp only [fields, address_sound.required, uint64_sound.required, Option.bind_eq_bind,
        Option.bind_some]
      rfl
  legible intent := by
    cases intent with
    | transfer sender recipient amount tokenId =>
      refine legible_caseOf (.object ?_)
      simp [address_sound.legible, uint64_sound.legible, optionalString_sound.legible]
    | stake staker amount validator =>
      refine legible_caseOf (.object ?_)
      simp [address_sound.legible, uint64_sound.legible]

/-- An error is stored by its name, with its content behind it if it has any. -/
theorem boundaryError_sound : boundaryError.Sound where
  faithful error := by
    cases error with
    | outOfMemory | absent | utf8 | tooWide => rfl
    | malformed detail | hex detail =>
      simp only [boundaryError, case?_caseOf]
      rfl
    | host code =>
      simp only [boundaryError, case?_caseOf]
      rw [contentError?.eq_def, if_neg (by decide), if_neg (by decide), if_pos rfl,
        statusCode_sound.faithful]
      rfl
    | base64 byte position =>
      have fields : members? ["byte", "position"] (.object [
          ("byte", uint8.write byte), ("position", uint64.write position)])
          = some [some (uint8.write byte), some (uint64.write position)] :=
        members?_written rfl (by decide)
      simp only [boundaryError, case?_caseOf]
      rw [contentError?.eq_def, if_neg (by decide), if_neg (by decide), if_neg (by decide),
        if_pos rfl]
      simp only [fields, uint8_sound.required, uint64_sound.required, Option.bind_eq_bind,
        Option.bind_some]
      rfl
  legible error := by
    cases error with
    | outOfMemory | absent | utf8 | tooWide => exact .string _
    | malformed detail | hex detail => exact legible_caseOf (.string detail)
    | host code => exact legible_caseOf (statusCode_sound.legible code)
    | base64 byte position =>
      refine legible_caseOf (.object ?_)
      simp [uint8_sound.legible, uint64_sound.legible]

/-! ## Drafts -/

theorem signMode_sound : signMode.Sound := names_sound SignMode.ofName?_name

theorem draft_sound : draft.Sound where
  faithful content := by
    have fields : fields? ["sign_mode", "outputs", "intents"] (draft.write content)
        = some [some (signMode.write content.signMode),
          some ((list outputDraft).write content.outputs),
          some ((list intentDraft).write content.intents)] :=
      members?_written rfl (by decide)
    simp only [draft] at fields ⊢
    simp only [fields, signMode_sound.required, outputDraft_sound.list.required,
      intentDraft_sound.list.required, Option.bind_eq_bind, Option.bind_some]
    rfl
  legible content := .object <| by
    simp [signMode_sound.legible, outputDraft_sound.list.legible, intentDraft_sound.list.legible]

/-! ## Stored and read again -/

/-- The value that a text stores in the form. -/
def load? (form : Form α) (text : String) : Option α := (Json.parse? text).bind form.read?

/-- The text that a value is stored as. -/
def store (form : Form α) (a : α) : String := (form.write a).text

/-- Nothing is lost by storing a value, however it was spelled when it came in. -/
structure Lossless (form : Form α) : Prop where
  /-- What was stored is loaded again. -/
  load_store : ∀ a, form.load? (form.store a) = some a
  /-- A value that was read in any of the spellings that reading allows is stored,
  loaded and stored again under the same text. -/
  settled : ∀ value a, form.read? value = some a →
    ∃ b, form.load? (form.store a) = some b ∧ form.store b = form.store a

theorem Sound.load_store (sound : form.Sound) (a : α) : form.load? (form.store a) = some a := by
  rw [load?, store, Json.parse?_text (sound.legible a), Option.bind_some, sound.faithful]

theorem Sound.lossless (sound : form.Sound) : form.Lossless where
  load_store := sound.load_store
  settled _ a _ := ⟨a, sound.load_store a, rfl⟩

/-- **Every record that is stored is read back as it was.** -/
theorem stored_lossless :
    address.Lossless ∧ hash.Lossless ∧ outPoint.Lossless ∧ outputType.Lossless ∧
    txOutput.Lossless ∧ utxo.Lossless ∧ resourceCategory.Lossless ∧ resource.Lossless ∧
    stateResult.Lossless ∧ transactionResult.Lossless ∧ signMode.Lossless ∧
    outputDraft.Lossless ∧ intentDraft.Lossless ∧ draft.Lossless ∧ batchItem.Lossless ∧
    receipt.Lossless ∧ statusCode.Lossless ∧ boundaryError.Lossless ∧ invocation.Lossless ∧
    transferRequest.Lossless :=
  ⟨address_sound.lossless, hash_sound.lossless, outPoint_sound.lossless,
    outputType_sound.lossless, txOutput_sound.lossless, utxo_sound.lossless,
    resourceCategory_sound.lossless, resource_sound.lossless, stateResult_sound.lossless,
    transactionResult_sound.lossless, signMode_sound.lossless, outputDraft_sound.lossless,
    intentDraft_sound.lossless, draft_sound.lossless, batchItem_sound.lossless,
    receipt_sound.lossless, statusCode_sound.lossless, boundaryError_sound.lossless,
    invocation_sound.lossless, transferRequest_sound.lossless⟩

/-- Two spellings of one output: a list of its fields, and an object with the members
out of order, a foreign one among them, and the optional ones missing. -/
example :
    txOutput.read? (.array [.object [("Asset", .null)], .null, .nat 7, .null, .string "hi"])
      = some ⟨.asset, none, 7, none, Utf8.encode "hi"⟩ ∧
    txOutput.read? (.object [("data", .string "hi"), ("memo", .bool true), ("amount", .nat 7),
      ("output_type", .string "Asset")]) = some ⟨.asset, none, 7, none, Utf8.encode "hi"⟩ := by
  decide +kernel

end Form

end HostBoundary
