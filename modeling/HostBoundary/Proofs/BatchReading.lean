import HostBoundary.Proofs.Batches
import HostBoundary.Proofs.StoredForms

/-!
# Reading a batch back

A contract is told of a batch how many outputs it made, and the host that made
them keeps a text.  This module is about what the two have in common: the text is
one JSON array with an object for each item, the items can be read back from these
objects, and the number that the contract is told is how many there are.

## What is read

A reader of a batch looks up the members of each object by their names.  The
recipient and the token id stand there in base64, so nothing that a token id is
made of reaches the text, neither a quotation mark nor the name of a member
(`BatchItem.ofJson?_toJson`).  What the text does not tell is whether a token id was
missing or empty: both name the native token (`BatchItem.normal`).

## What a contract is told

A batch is refused for want of room, before the host hears of it, and then the
contract is told the failure flag.  Otherwise the answer is the count of the items,
which a batch that found room is always short enough to fit, unless the host was
set up to answer something else (`Guest.createBatch_outcome`).
-/

namespace HostBoundary

open Guest

/-! ## Items -/

/-- The bytes that a leaf stands for. -/
def leafBytes? : Json → Option Bytes
  | .string text => (decodeBase64 text).toOption
  | _ => none

theorem leafBytes?_base64Leaf (bytes : Bytes) : leafBytes? (base64Leaf bytes) = some bytes := by
  rw [base64Leaf, leafBytes?, decodeBase64_encode]
  rfl

namespace BatchItem

/-- The token id that a leaf stands for. -/
def leafToken? : Json → Option (Option String)
  | .null => some none
  | value => ((leafBytes? value).bind Utf8.decode?).map some

/-- The item that an object describes. -/
def ofJson? : Json → Option BatchItem
  | .object members => do
    let recipient ← (Json.lastMember? "recipient" members).bind leafBytes?
    let amount ← (Json.lastMember? "amount" members).bind Form.uint64.read?
    let tokenId ← (Json.lastMember? "token_id" members).bind leafToken?
    return ⟨← FixedBytes.ofBytes? recipient, amount, tokenId⟩
  | _ => none

/-- What the text of an item tells. -/
def normal (item : BatchItem) : BatchItem := { item with tokenId := nativeIfEmpty item.tokenId }

theorem leafToken?_tokenLeaf (tokenId : Option String) :
    leafToken? (tokenLeaf tokenId) = some (nativeIfEmpty tokenId) := by
  cases tokenId with
  | none => rfl
  | some id =>
    by_cases empty : id = ""
    · subst empty
      rfl
    · have read : leafToken? (base64Leaf (Utf8.encode id))
          = ((leafBytes? (base64Leaf (Utf8.encode id))).bind Utf8.decode?).map some := rfl
      rw [tokenLeaf, if_neg (mt String.isEmpty_iff.mp empty), read, leafBytes?_base64Leaf,
        Option.bind_some, Utf8.decode?_encode, nativeIfEmpty, if_neg empty]
      rfl

/-- The members of the object of an item. -/
def members (item : BatchItem) : List (String × Json) := [
  ("recipient", base64Leaf item.recipient.toBytes),
  ("amount", .nat item.amount.toNat),
  ("token_id", tokenLeaf item.tokenId),
  ("locking_conditions", .array [])]

/-- No two members have one name, so each is found under its own. -/
theorem lastMember?_members (item : BatchItem) {name : String} {value : Json}
    (mem : (name, value) ∈ item.members) : Json.lastMember? name item.members = some value := by
  have names : item.members.map (·.1)
      = ["recipient", "amount", "token_id", "locking_conditions"] := rfl
  have distinct : (item.members.map (·.1)).Nodup := by
    rw [names]
    decide
  exact Form.lastMember?_of_mem distinct mem

/-- **An item is read back from its object.** -/
theorem ofJson?_toJson (item : BatchItem) : ofJson? item.toJson = some item.normal := by
  have amounts : Form.uint64.read? (.nat item.amount.toNat) = some item.amount :=
    Form.uint64_sound.faithful item.amount
  have recipient : Json.lastMember? "recipient" item.members
      = some (base64Leaf item.recipient.toBytes) := item.lastMember?_members (by simp [members])
  have amount : Json.lastMember? "amount" item.members = some (.nat item.amount.toNat) :=
    item.lastMember?_members (by simp [members])
  have token : Json.lastMember? "token_id" item.members = some (tokenLeaf item.tokenId) :=
    item.lastMember?_members (by simp [members])
  show ofJson? (.object item.members) = _
  simp only [ofJson?, recipient, amount, token, Option.bind_some, leafBytes?_base64Leaf, amounts,
    leafToken?_tokenLeaf, Option.bind_eq_bind, FixedBytes.ofBytes?_toBytes]
  rfl

theorem legible_tokenLeaf (tokenId : Option String) : Json.Legible (tokenLeaf tokenId) := by
  cases tokenId with
  | none => exact .null
  | some id =>
    rw [tokenLeaf]
    split
    · exact .null
    · exact .string _

theorem legible_toJson (item : BatchItem) : Json.Legible item.toJson := by
  refine .object ?_
  simp only [List.forall_mem_cons]
  exact ⟨.string _, Json.legible_nat _, legible_tokenLeaf _, .array (List.forall_mem_nil _),
    List.forall_mem_nil _⟩

end BatchItem

/-! ## Batches -/

/-- **A batch is one JSON array, and its items are read back in their order.** -/
theorem parse?_batchText (items : List BatchItem) :
    ∃ objects, Json.parse? (batchText items) = some (.array objects) ∧
      objects.map BatchItem.ofJson? = items.map fun item => some item.normal := by
  have legible : Json.Legible (.array (items.map BatchItem.toJson)) := by
    refine .array ?_
    rw [List.forall_mem_map]
    exact fun item _ => item.legible_toJson
  refine ⟨items.map BatchItem.toJson, ?_, ?_⟩
  · rw [batchText_eq, Json.parse?_text legible]
  · rw [List.map_map]
    exact List.map_congr_left fun item _ => item.ofJson?_toJson

/-- **What becomes of a batch.**  An empty one fails and changes nothing.  Any other
one fails where its text finds no room, and then the host was told nothing.  Where
the text finds room it is recorded: a JSON array with one object for each item, in
order, from which the item is read back.  Then the answer is the number of the items
and the counter of outputs, which has 32 bits, goes up by it, unless the host was set
up to answer a status of its own. -/
theorem Guest.createBatch_outcome (world : World) :
    createBatch [] world = .ok outputFailed world ∧
    ∀ items : List BatchItem, items ≠ [] →
      (Utf8.encode (batchText items)).length < UInt32.size →
      (¬ world.host.Provides [(Utf8.encode (batchText items)).length] →
        ∃ after, createBatch items world = .ok outputFailed after ∧
          after.host.records = world.host.records) ∧
      (world.host.Provides [(Utf8.encode (batchText items)).length] →
        ∃ answer after batch objects count,
          createBatch items world = .ok answer after ∧
          after.host.records = { world.host.records with
            batches := world.host.records.batches ++ [batch]
            outputCount := count } ∧
          Json.parse? batch = some (.array objects) ∧
          objects.map BatchItem.ofJson? = items.map (fun item => some item.normal) ∧
          (world.host.setup.appendStatus = none →
            answer.toNat = items.length ∧ count = world.host.records.outputCount + answer) ∧
          ∀ status, world.host.setup.appendStatus = some status →
            answer = status ∧ count = world.host.records.outputCount) := by
  refine ⟨rfl, fun items nonempty short => ⟨fun missing => ?_, fun provided => ?_⟩⟩
  · obtain ⟨after, abandoned, only⟩ := createBatch_of_not_provides short missing
    exact ⟨after, abandoned, only.records⟩
  · obtain ⟨middle, after, taken, only, told⟩ := createBatch_of_provides nonempty short provided
    obtain ⟨objects, parsed, read⟩ := parse?_batchText items
    have fits : (UInt32.ofNat items.length).toNat = items.length :=
      UInt32.toNat_ofNat_of_lt' ((length_lt_length_batchText items).trans short)
    have records : after.host.records
        = Records.batched world.host.setup items world.host.records := by
      rw [told, ← only.records]
      rfl
    rw [Records.batched] at records
    cases configured : world.host.setup.appendStatus with
    | none =>
      rw [configured] at taken records
      refine ⟨_, after, _, objects, _, taken, records, parsed, read, fun _ => ⟨fits, rfl⟩, ?_⟩
      intro status impossible
      cases impossible
    | some answer =>
      rw [configured] at taken records
      refine ⟨_, after, _, objects, _, taken, records, parsed, read, ?_, ?_⟩
      · intro impossible
        cases impossible
      · intro status same
        exact ⟨Option.some.inj same, rfl⟩

/-- Token ids that try to name a recipient, and to be missing. -/
def hostileItems : List BatchItem :=
  [⟨.zero, 5, some "\",\"recipient\":\""⟩, ⟨.zero, 7, some ""⟩, ⟨.zero, 0, none⟩]

/-- They make three outputs on a fresh host, and none on one that refuses allocations. -/
theorem Guest.createBatch_outcome_hostile :
    ((Utf8.encode (batchText hostileItems)).length < UInt32.size ∧ hostileItems ≠ [] ∧
      Host.initial.Provides [(Utf8.encode (batchText hostileItems)).length]) ∧
    (∃ answer after batch objects,
      createBatch hostileItems ⟨.initial, []⟩ = .ok answer after ∧
      answer.toNat = 3 ∧ after.host.records.outputCount = answer ∧
      after.host.records.batches = [batch] ∧ Json.parse? batch = some (.array objects) ∧
      objects.map BatchItem.ofJson? = [
        some ⟨.zero, 5, some "\",\"recipient\":\""⟩, some ⟨.zero, 7, none⟩,
        some ⟨.zero, 0, none⟩]) ∧
    ∃ after, createBatch hostileItems ⟨Host.initial.configure (.failAlloc true), []⟩
      = .ok outputFailed after ∧ after.host.records = .none := by
  have size : (Utf8.encode (batchText hostileItems)).length < 1000 := by decide +kernel
  have short : (Utf8.encode (batchText hostileItems)).length < UInt32.size :=
    size.trans (by decide)
  have nonempty : hostileItems ≠ [] := List.cons_ne_nil _ _
  have base : Host.initial.arena.length = 8 := rfl
  have provided : Host.initial.Provides [(Utf8.encode (batchText hostileItems)).length] := by
    refine Host.provides_of_unlimited rfl (by decide) ?_
    rw [base, List.foldr_cons, List.foldr_nil]
    have limit : 1008 < UInt32.size := by decide
    omega
  have missing : ¬ (Host.initial.configure (.failAlloc true)).Provides
      [(Utf8.encode (batchText hostileItems)).length] :=
    Host.not_provides_of_not_grants (by decide)
  obtain ⟨-, fresh⟩ := createBatch_outcome ⟨.initial, []⟩
  obtain ⟨-, refusing⟩ := createBatch_outcome ⟨Host.initial.configure (.failAlloc true), []⟩
  obtain ⟨answer, after, batch, objects, count, taken, records, parsed, read, counted, -⟩ :=
    (fresh hostileItems nonempty short).2 provided
  obtain ⟨answers, counts⟩ := counted rfl
  refine ⟨⟨short, nonempty, provided⟩,
    ⟨answer, after, batch, objects, taken, answers, ?_, ?_, parsed, read⟩,
    (refusing hostileItems nonempty short).1 missing⟩
  · rw [records]
    exact counts.trans (UInt32.zero_add answer)
  · rw [records]
    rfl

end HostBoundary
