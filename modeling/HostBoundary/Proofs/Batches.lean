import HostBoundary.Proofs.DraftText
import HostBoundary.Proofs.Exchange
import HostBoundary.Proofs.TreeScan
import HostBoundary.Transaction.Batch

/-!
# Batches of outputs

The host does not parse a batch.  It counts how often `"recipient":` occurs in the
text, and takes that for the count of the outputs.

The text is that of an array of objects (`batchText_eq`), and what occurs in the
text of a tree are the names of its members.  Each item has one member of that name,
whatever its token id is, since the token id stands there in base64.  So the host
counts the items (`recipientCount_batchText`).

A batch is sent whole or not at all: an empty one is not sent, and one that finds no
room is abandoned before the host is told anything (`Guest.createBatch_cases`).
-/

namespace HostBoundary

open Json Guest

/-! ## The tree of a batch -/

namespace BatchItem

/-- The token id of an item: nothing and the empty text are the native token. -/
def tokenLeaf : Option String → Json
  | some id => if id.isEmpty then .null else base64Leaf (Utf8.encode id)
  | none => .null

/-- The object of an item. -/
def toJson (item : BatchItem) : Json := .object [
  ("recipient", base64Leaf item.recipient.toBytes),
  ("amount", .nat item.amount.toNat),
  ("token_id", tokenLeaf item.tokenId),
  ("locking_conditions", .array [])]

theorem chars_tokenLeaf (tokenId : Option String) :
    (tokenLeaf tokenId).chars = (tokenText tokenId).toList := by
  cases tokenId with
  | none => rfl
  | some id =>
    rw [tokenLeaf, tokenText]
    split
    · rfl
    · simp

theorem chars_toJson (item : BatchItem) : item.toJson.chars = item.text.toList := by
  simp (disch := decide) [toJson, text, Json.chars, Json.membersChars, Json.itemsChars,
    Json.Unescaped.stringChars, chars_tokenLeaf]

theorem plain_tokenLeaf (tokenId : Option String) : Plain (tokenLeaf tokenId) := by
  cases tokenId with
  | none => exact .null
  | some id =>
    rw [tokenLeaf]
    split
    · exact .null
    · exact .string (plainText_base64 _)

theorem plain_toJson (item : BatchItem) : Plain item.toJson := by
  refine plain_object ?_
  simp only [List.forall_mem_cons]
  exact ⟨⟨by decide, .string (plainText_base64 _)⟩, ⟨by decide, .nat _⟩,
    ⟨by decide, plain_tokenLeaf _⟩, ⟨by decide, .array nofun⟩, nofun⟩

theorem labels_tokenLeaf (tokenId : Option String) : (tokenLeaf tokenId).labels = [] := by
  cases tokenId with
  | none => rfl
  | some id =>
    rw [tokenLeaf]
    split <;> rfl

/-- An item names one recipient. -/
theorem countP_labels (item : BatchItem) :
    item.toJson.labels.countP (·.1 = "recipient") = 1 := by
  rw [toJson]
  simp only [labels, membersLabels, labels_tokenLeaf]
  rfl

end BatchItem

/-- The text of a batch is the compact text of an array. -/
theorem batchText_eq (items : List BatchItem) :
    batchText items = (Json.array (items.map BatchItem.toJson)).text := by
  have each : items.map (String.toList ∘ BatchItem.text)
      = items.map (Json.chars ∘ BatchItem.toJson) :=
    List.map_congr_left fun item _ => item.chars_toJson.symm
  apply String.toList_inj.mp
  rw [Json.text, String.toList_ofList]
  simp [batchText, Json.chars, Json.itemsChars_eq_intercalate, each]

/-! ## Counting recipients -/

/-- **The host counts the items of a batch.** -/
theorem recipientCount_batchText (items : List BatchItem) :
    Host.recipientCount (batchText items) = items.length := by
  have plain : Plain (.array (items.map BatchItem.toJson)) := by
    refine .array ?_
    rw [List.forall_mem_map]
    exact fun item _ => item.plain_toJson
  have pattern : Utf8.encode "\"recipient\":"
      = Scan.pattern (Utf8.encode "recipient") [Bytes.colon] := by decide
  rw [Host.recipientCount, pattern, batchText_eq, plain.occurrences_text (by decide), labels,
    itemsLabels_eq_flatMap, List.flatMap_map]
  clear plain
  induction items with
  | nil => rfl
  | cons item items ih =>
    rw [List.flatMap_cons, List.countP_append, item.countP_labels, ih, List.length_cons,
      Nat.add_comm]

/-- The text of a batch is longer than the batch. -/
theorem length_lt_length_batchText (items : List BatchItem) :
    items.length < (Utf8.encode (batchText items)).length := by
  obtain ⟨rest, bracket⟩ : ∃ rest, Utf8.encode (batchText items) = 91 :: rest := by
    rw [batchText_eq, Json.text, Utf8.encode_ofList, Json.chars]
    exact ⟨_, rfl⟩
  -- no recipient is named at the bracket, so they all stand behind it
  have behindBracket : Bytes.occurrences (Utf8.encode "\"recipient\":") (91 :: rest)
      = Bytes.occurrences (Utf8.encode "\"recipient\":") rest := by
    rw [Bytes.occurrences_eq_length, Bytes.occurrences_eq_length]
    exact congrArg List.length (Bytes.behinds_of_head_ne (by decide))
  have count := recipientCount_batchText items
  rw [Host.recipientCount, bracket, behindBracket] at count
  rw [bracket, List.length_cons, ← count]
  exact Nat.lt_succ_of_le (Bytes.occurrences_le_length _ _)

/-! ## Sending a batch -/

/-- The records with a batch behind the others, and its items counted, unless the
host answers a status of its own. -/
def Records.batched (setup : Setup) (items : List BatchItem) (records : Records) : Records :=
  let told := { records with batches := records.batches ++ [batchText items] }
  match setup.appendStatus with
  | some _ => told
  | .none => { told with outputCount := records.outputCount + UInt32.ofNat items.length }

/-- A batch is taken: its text is recorded, and its items are counted. -/
theorem Host.createBatch_of_holds {host : Host} {items : List BatchItem} {buffer : Buffer}
    (holds : buffer.Holds host.arena (Utf8.encode (batchText items))) :
    Host.createBatch buffer.pointer buffer.length host
      = .ok (host.setup.appendStatus.getD (UInt32.ofNat items.length))
          (host.told (Records.batched host.setup items)) := by
  rw [Host.createBatch, bind_of_ok (Host.readText_holds holds), recipientCount_batchText,
    bind_of_ok (Host.record_run _), bind_of_ok (Host.configured_run _)]
  unfold Records.batched
  rw [setup_told]
  cases host.setup.appendStatus <;> rfl

section Room

variable {items : List BatchItem} {world : World}

/-- A batch that finds no room is abandoned. -/
theorem Guest.createBatch_of_not_provides
    (short : (Utf8.encode (batchText items)).length < UInt32.size)
    (missing : ¬ world.host.Provides [(Utf8.encode (batchText items)).length]) :
    ∃ after, createBatch items world = .ok outputFailed after ∧
      world.host.OnlyAllocated after.host := by
  rw [createBatch]
  split
  · exact ⟨world, rfl, .refl _⟩
  · obtain ⟨after, refused, only⟩ := writeBytes_of_not_provides short missing
    rw [writeText, bind_of_ok refused]
    exact ⟨_, rfl, only⟩

/-- A batch that finds room is taken. -/
theorem Guest.createBatch_of_provides (nonempty : items ≠ [])
    (short : (Utf8.encode (batchText items)).length < UInt32.size)
    (provided : world.host.Provides [(Utf8.encode (batchText items)).length]) :
    ∃ middle after, createBatch items world
        = .ok (world.host.setup.appendStatus.getD (UInt32.ofNat items.length)) after ∧
      world.host.OnlyAllocated middle ∧
      after.host = middle.told (Records.batched world.host.setup items) := by
  obtain ⟨somewhere, grants, written, -⟩ := writeBytes_of_provides short provided
  have holds := nextRegion_holds_written somewhere grants short
  rw [createBatch, if_neg (mt List.isEmpty_iff.mp nonempty), writeText, bind_of_ok written,
    orAbandon_ok, call_of_ok (Host.createBatch_of_holds holds)]
  exact ⟨_, _, rfl, Host.onlyAllocated_granted world.host _, rfl⟩

end Room

/-- **What a batch comes to.**  It is abandoned, and then the host is told nothing;
or its text is taken as it is, and all of its items are counted. -/
theorem Guest.createBatch_cases (items : List BatchItem) (world : World) :
    (∃ after, createBatch items world = .ok outputFailed after ∧
      world.host.OnlyAllocated after.host) ∨
    ∃ middle after, (Utf8.encode (batchText items)).length < UInt32.size ∧
      createBatch items world
        = .ok (world.host.setup.appendStatus.getD (UInt32.ofNat items.length)) after ∧
      world.host.OnlyAllocated middle ∧
      after.host = middle.told (Records.batched world.host.setup items) := by
  by_cases empty : items = []
  · subst empty
    exact .inl ⟨world, rfl, .refl _⟩
  by_cases short : (Utf8.encode (batchText items)).length < UInt32.size
  · by_cases provided : world.host.Provides [(Utf8.encode (batchText items)).length]
    · obtain ⟨middle, after, taken⟩ := createBatch_of_provides empty short provided
      exact .inr ⟨middle, after, short, taken⟩
    · exact .inl (createBatch_of_not_provides short provided)
  · rw [createBatch, if_neg (mt List.isEmpty_iff.mp empty), writeText,
      bind_of_ok (writeBytes_of_long short)]
    exact .inl ⟨_, rfl, .refl _⟩

end HostBoundary
