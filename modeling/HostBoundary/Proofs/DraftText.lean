import Mathlib.Data.List.Forall2
import HostBoundary.Proofs.Encodings
import HostBoundary.Proofs.Writing
import HostBoundary.Transaction.Draft

/-!
# The text of a draft

A draft crosses the boundary as a text, and what the host acts on is what it
reads there.  Two things have to hold of that text.

* It says what it should: it is one JSON object, and its tree is the one that
  the encoding table describes (`Draft.text_encodes`).
* It says nothing twice: two drafts with one text ask for the same transaction
  (`Draft.text_eq_iff`).

## The table, and who checks it

The table is stated as a relation between a part of the draft and a tree
(`SignMode.Spelled`, `OutputDraft.Encodes`, `IntentDraft.Encodes`).  Its leaves are described by what
their letters stand for, not by the codecs that produce them, and the tree is the
one that a reader of the whole grammar finds in the text.

## Pasting is writing

The text is pasted together from fixed pieces and leaves that nobody escapes.  It
is nevertheless the text that a writer of trees would produce (`Draft.text_eq`),
because the letters of hexadecimal, base64 and decimal need no escape and the
fixed pieces match up.

## What a text does not tell

A missing token id and an empty one are both written as nothing, and the owner of
a resource is not written.  `Draft.normal` forgets exactly these, and the text
tells everything else: reading leads back from the text to the tree, and the
encodings of the leaves lead back from the tree to the draft.
-/

namespace HostBoundary

/-! ## The encoding table -/

/-- The text of a token id: the digits of its UTF-8 bytes, and nothing for the
native token. -/
inductive TokenSpelled : Option String → String → Prop
  | native : TokenSpelled none ""
  | named {id digits : String} (spelled : Hex.Spells (Utf8.encode id) digits) :
      TokenSpelled (some id) digits

/-- The text of a sign mode. -/
inductive SignMode.Spelled : SignMode → String → Prop
  | deferSign : Spelled .deferSign "defer_sign"
  | delegated : Spelled .delegated "delegated"
  | threshold : Spelled .threshold "threshold"
  | paymaster : Spelled .paymaster "paymaster"

/-- The tree of an output. -/
inductive OutputDraft.Encodes : OutputDraft → Json → Prop
  | asset {owner : Address} {amount : UInt64} {tokenId : Option String} {ownerHex tokenHex : String}
      (owned : Hex.Spells owner.toBytes ownerHex) (token : TokenSpelled tokenId tokenHex) :
      Encodes (.asset owner amount tokenId) (.object [
        ("type", .string "asset"),
        ("owner", .string ownerHex),
        ("amount", .string (toString amount.toNat)),
        ("token_id", .string tokenHex),
        ("metadata", .object [])])
  | state {stateId : Bytes} {version : UInt64} {execHash : Hash} {stateText hashText : String}
      (named : Base64.Spells stateId stateText) (hashed : Base64.Spells execHash.toBytes hashText) :
      Encodes (.state stateId version execHash) (.object [
        ("type", .string "state"),
        ("state_id", .string stateText),
        ("version", .number (.natural version.toNat)),
        ("exec_hash", .string hashText)])
  | resource {content : Bytes} {owner : Address} {contentText : String}
      (filled : Base64.Spells content contentText) :
      Encodes (.resource content owner) (.object [
        ("type", .string "resource"),
        ("resource", .string contentText)])

/-- The tree of an intent. -/
inductive IntentDraft.Encodes : IntentDraft → Json → Prop
  | transfer {sender recipient : Address} {amount : UInt64} {tokenId : Option String}
      {senderHex recipientHex tokenHex : String} (sent : Hex.Spells sender.toBytes senderHex)
      (received : Hex.Spells recipient.toBytes recipientHex)
      (token : TokenSpelled tokenId tokenHex) :
      Encodes (.transfer sender recipient amount tokenId) (.object [
        ("type", .string "transfer"),
        ("params", .object [
          ("from", .string senderHex),
          ("to", .string recipientHex),
          ("token_id", .string tokenHex),
          ("amount", .string (toString amount.toNat))])])
  | stake {staker : Address} {amount : UInt64} {validator : Address}
      {stakerHex validatorHex : String} (staked : Hex.Spells staker.toBytes stakerHex)
      (validated : Hex.Spells validator.toBytes validatorHex) :
      Encodes (.stake staker amount validator) (.object [
        ("type", .string "stake"),
        ("params", .object [
          ("staker", .string stakerHex),
          ("amount", .string (toString amount.toNat)),
          ("validator", .string validatorHex)])])

/-! ## The tree of a draft -/

theorem SignMode.spelled_name (mode : SignMode) : mode.Spelled mode.name := by
  cases mode with
  | deferSign => exact .deferSign
  | delegated => exact .delegated
  | threshold => exact .threshold
  | paymaster => exact .paymaster

/-- A token id, where the empty one is the native token. -/
theorem tokenHex_eq (tokenId : Option String) :
    tokenHex tokenId = Hex.encode (Utf8.encode (tokenId.getD "")) := by
  cases tokenId with
  | none => rfl
  | some id =>
    rw [tokenHex]
    split
    · next empty =>
      rw [String.isEmpty_iff.mp empty]
      rfl
    · rfl

theorem tokenSpelled_tokenHex (tokenId : Option String) :
    TokenSpelled tokenId (tokenHex tokenId) := by
  rw [tokenHex_eq]
  cases tokenId with
  | none => exact .native
  | some id => exact .named (Hex.spells_encode _)

/-- An address as a leaf. -/
def addressLeaf (address : Address) : Json := .string address.toHex

/-- Bytes as a leaf. -/
def base64Leaf (bytes : Bytes) : Json := .string (Base64.encode bytes)

/-- An amount as a leaf. -/
def amountLeaf (amount : UInt64) : Json := .string (decimal amount)

namespace OutputDraft

/-- The object of an output. -/
def toJson : OutputDraft → Json
  | asset owner amount tokenId => .object [
      ("type", .string "asset"),
      ("owner", addressLeaf owner),
      ("amount", amountLeaf amount),
      ("token_id", .string (tokenHex tokenId)),
      ("metadata", .object [])]
  | state stateId version execHash => .object [
      ("type", .string "state"),
      ("state_id", base64Leaf stateId),
      ("version", .nat version.toNat),
      ("exec_hash", base64Leaf execHash.toBytes)]
  | resource content _ => .object [
      ("type", .string "resource"),
      ("resource", base64Leaf content)]

theorem encodes_toJson (output : OutputDraft) : output.Encodes output.toJson := by
  cases output with
  | asset owner amount tokenId =>
    exact .asset (Hex.spells_encode _) (tokenSpelled_tokenHex tokenId)
  | state stateId version execHash =>
    exact .state (Base64.spells_encode _) (Base64.spells_encode _)
  | resource content owner => exact .resource (Base64.spells_encode _)

theorem legible_toJson (output : OutputDraft) : Json.Legible output.toJson := by
  cases output with
  | asset owner amount tokenId =>
    refine .object ?_
    simp only [List.forall_mem_cons]
    exact ⟨.string _, .string _, .string _, .string _, .object nofun, nofun⟩
  | state stateId version execHash =>
    refine .object ?_
    simp only [List.forall_mem_cons]
    exact ⟨.string _, .string _, Json.legible_nat _, .string _, nofun⟩
  | resource content owner =>
    refine .object ?_
    simp only [List.forall_mem_cons]
    exact ⟨.string _, .string _, nofun⟩

end OutputDraft

namespace IntentDraft

/-- The object of the parameters of an intent. -/
def paramsJson : IntentDraft → Json
  | transfer sender recipient amount tokenId => .object [
      ("from", addressLeaf sender),
      ("to", addressLeaf recipient),
      ("token_id", .string (tokenHex tokenId)),
      ("amount", amountLeaf amount)]
  | stake staker amount validator => .object [
      ("staker", addressLeaf staker),
      ("amount", amountLeaf amount),
      ("validator", addressLeaf validator)]

/-- The object of an intent. -/
def toJson (intent : IntentDraft) : Json :=
  .object [("type", .string intent.typeName), ("params", intent.paramsJson)]

theorem encodes_toJson (intent : IntentDraft) : intent.Encodes intent.toJson := by
  cases intent with
  | transfer sender recipient amount tokenId =>
    exact .transfer (Hex.spells_encode _) (Hex.spells_encode _) (tokenSpelled_tokenHex tokenId)
  | stake staker amount validator => exact .stake (Hex.spells_encode _) (Hex.spells_encode _)

theorem legible_toJson (intent : IntentDraft) : Json.Legible intent.toJson := by
  have params : Json.Legible intent.paramsJson := by
    cases intent with
    | transfer sender recipient amount tokenId =>
      refine .object ?_
      simp only [List.forall_mem_cons]
      exact ⟨.string _, .string _, .string _, .string _, nofun⟩
    | stake staker amount validator =>
      refine .object ?_
      simp only [List.forall_mem_cons]
      exact ⟨.string _, .string _, .string _, nofun⟩
  refine .object ?_
  simp only [List.forall_mem_cons]
  exact ⟨.string _, params, nofun⟩

end IntentDraft

namespace Draft

/-- The object of a draft. -/
def toJson (draft : Draft) : Json := .object [
  ("sign_mode", .string draft.signMode.name),
  ("outputs", .array (draft.outputs.map OutputDraft.toJson)),
  ("intents", .array (draft.intents.map IntentDraft.toJson))]

theorem legible_toJson (draft : Draft) : Json.Legible draft.toJson := by
  have outputs : Json.Legible (.array (draft.outputs.map OutputDraft.toJson)) := by
    refine .array ?_
    rw [List.forall_mem_map]
    exact fun output _ => output.legible_toJson
  have intents : Json.Legible (.array (draft.intents.map IntentDraft.toJson)) := by
    refine .array ?_
    rw [List.forall_mem_map]
    exact fun intent _ => intent.legible_toJson
  refine .object ?_
  simp only [List.forall_mem_cons]
  exact ⟨.string _, outputs, intents, nofun⟩

end Draft

/-! ## The text is that of the tree

No leaf has a letter that needs an escape, so pasting the leaves between the fixed
pieces of text is the same as writing the tree.
-/

theorem unescaped_hex (bytes : Bytes) : Json.Unescaped (Hex.encode bytes).toList := by
  have letters : Json.Unescaped Hex.alphabet := by decide
  intro c mem
  exact letters c (Hex.mem_alphabet_of_mem_encode mem)

theorem unescaped_base64 (bytes : Bytes) : Json.Unescaped (Base64.encode bytes).toList := by
  have letters : Json.Unescaped Base64.alphabet := by decide
  intro c mem
  rcases Base64.mem_alphabet_of_mem_encode mem with symbol | rfl
  · exact letters c symbol
  · rfl

theorem unescaped_decimal (n : UInt64) : Json.Unescaped (decimal n).toList := by
  have each : ∀ k < 10, Json.escapeChar (Char.ofNat (48 + k)) = [Char.ofNat (48 + k)] := by decide
  intro c mem
  rw [decimal, Nat.repr_eq_ofList_toDigits, String.toList_ofList] at mem
  have digit : c.isDigit = true := Nat.isDigit_of_mem_toDigits (by decide) (by decide) mem
  obtain ⟨k, small, number, -⟩ := utf8EncodeChar_digit digit
  have here := each k small
  rwa [← number, Char.ofNat_toNat] at here

theorem unescaped_tokenHex (tokenId : Option String) : Json.Unescaped (tokenHex tokenId).toList := by
  rw [tokenHex_eq]
  exact unescaped_hex _

@[simp]
theorem chars_addressLeaf (address : Address) :
    (addressLeaf address).chars = '"' :: (address.toHex.toList ++ ['"']) := by
  rw [addressLeaf, Json.chars, FixedBytes.toHex, (unescaped_hex address.toBytes).stringChars]

@[simp]
theorem chars_base64Leaf (bytes : Bytes) :
    (base64Leaf bytes).chars = '"' :: ((Base64.encode bytes).toList ++ ['"']) := by
  rw [base64Leaf, Json.chars, (unescaped_base64 bytes).stringChars]

@[simp]
theorem chars_amountLeaf (amount : UInt64) :
    (amountLeaf amount).chars = '"' :: ((decimal amount).toList ++ ['"']) := by
  rw [amountLeaf, Json.chars, (unescaped_decimal amount).stringChars]

@[simp]
theorem chars_nat (n : UInt64) : (Json.nat n.toNat).chars = (decimal n).toList := by
  rw [decimal, Nat.repr_eq_ofList_toDigits, String.toList_ofList]
  rfl

theorem OutputDraft.chars_toJson (output : OutputDraft) :
    output.toJson.chars = output.text.toList := by
  cases output with
  | asset owner amount tokenId =>
    simp (disch := decide) [toJson, text, fields, typeName, Json.chars, Json.membersChars,
      Json.Unescaped.stringChars, (unescaped_tokenHex tokenId).stringChars]
  | state stateId version execHash =>
    simp (disch := decide) [toJson, text, fields, typeName, Json.chars, Json.membersChars,
      Json.Unescaped.stringChars]
  | resource content owner =>
    simp (disch := decide) [toJson, text, fields, typeName, Json.chars, Json.membersChars,
      Json.Unescaped.stringChars]

theorem IntentDraft.chars_toJson (intent : IntentDraft) :
    intent.toJson.chars = intent.text.toList := by
  cases intent with
  | transfer sender recipient amount tokenId =>
    simp (disch := decide) [toJson, paramsJson, text, params, typeName, Json.chars,
      Json.membersChars, Json.Unescaped.stringChars, (unescaped_tokenHex tokenId).stringChars]
  | stake staker amount validator =>
    simp (disch := decide) [toJson, paramsJson, text, params, typeName, Json.chars,
      Json.membersChars, Json.Unescaped.stringChars]

namespace Draft

/-- **The text of a draft is the compact text of its tree.** -/
theorem text_eq (draft : Draft) : draft.text = draft.toJson.text := by
  have mode : Flat.escape draft.signMode.name = draft.signMode.name ∧
      Json.Unescaped draft.signMode.name.toList := by
    cases draft.signMode <;> decide
  have outputs : draft.outputs.map (String.toList ∘ OutputDraft.text)
      = draft.outputs.map (Json.chars ∘ OutputDraft.toJson) :=
    List.map_congr_left fun output _ => output.chars_toJson.symm
  have intents : draft.intents.map (String.toList ∘ IntentDraft.text)
      = draft.intents.map (Json.chars ∘ IntentDraft.toJson) :=
    List.map_congr_left fun intent _ => intent.chars_toJson.symm
  apply String.toList_inj.mp
  rw [Json.text, String.toList_ofList]
  simp (disch := decide) [text, toJson, Json.chars, Json.membersChars, Json.Unescaped.stringChars,
    mode.1, mode.2.stringChars, Json.itemsChars_eq_intercalate, outputs, intents]

/-- **The text of a draft is one JSON object, and its tree is the documented one.**
The sign mode, the outputs and the intents stand in this order, and each output
and each intent stands in its place with the members of the encoding table. -/
theorem text_encodes (draft : Draft) :
    ∃ mode outputs intents,
      Json.parse? draft.text = some (.object [
        ("sign_mode", .string mode),
        ("outputs", .array outputs),
        ("intents", .array intents)]) ∧
      draft.signMode.Spelled mode ∧
      List.Forall₂ OutputDraft.Encodes draft.outputs outputs ∧
      List.Forall₂ IntentDraft.Encodes draft.intents intents := by
  refine ⟨draft.signMode.name, draft.outputs.map OutputDraft.toJson,
    draft.intents.map IntentDraft.toJson, ?_, draft.signMode.spelled_name, ?_, ?_⟩
  · rw [text_eq]
    exact Json.parse?_text draft.legible_toJson
  · rw [List.forall₂_map_right_iff, List.forall₂_same]
    exact fun output _ => output.encodes_toJson
  · rw [List.forall₂_map_right_iff, List.forall₂_same]
    exact fun intent _ => intent.encodes_toJson

end Draft

/-! ## What a text tells -/

/-- A token id, where the empty one is the native token. -/
def nativeIfEmpty : Option String → Option String
  | some id => if id = "" then none else some id
  | none => none

theorem nativeIfEmpty_eq (tokenId : Option String) :
    nativeIfEmpty tokenId = if tokenId.getD "" = "" then none else some (tokenId.getD "") := by
  cases tokenId <;> rfl

theorem tokenHex_nativeIfEmpty (tokenId : Option String) :
    tokenHex (nativeIfEmpty tokenId) = tokenHex tokenId := by
  cases tokenId with
  | none => rfl
  | some id =>
    rw [nativeIfEmpty]
    split
    · next empty =>
      subst empty
      rfl
    · rfl

/-- The digits of a token id tell it, up to the two ways to name the native token. -/
theorem tokenHex_eq_iff {a b : Option String} :
    tokenHex a = tokenHex b ↔ nativeIfEmpty a = nativeIfEmpty b := by
  constructor
  · intro same
    rw [tokenHex_eq, tokenHex_eq] at same
    have text := Utf8.encode_injective (Hex.encode_injective same)
    rw [nativeIfEmpty_eq, nativeIfEmpty_eq, text]
  · intro same
    rw [← tokenHex_nativeIfEmpty a, same, tokenHex_nativeIfEmpty]

theorem toHex_injective {a b : Address} (same : a.toHex = b.toHex) : a = b :=
  FixedBytes.ext (Hex.encode_injective same)

namespace OutputDraft

/-- What the text of an output tells. -/
def normal : OutputDraft → OutputDraft
  | asset owner amount tokenId => asset owner amount (nativeIfEmpty tokenId)
  | state stateId version execHash => state stateId version execHash
  | resource content _ => resource content FixedBytes.zero

theorem toJson_normal (output : OutputDraft) : output.normal.toJson = output.toJson := by
  cases output with
  | asset owner amount tokenId => rw [normal, toJson, tokenHex_nativeIfEmpty, toJson]
  | state stateId version execHash => rfl
  | resource content owner => rfl

/-- **The tree of an output tells it**, but for the owner of a resource. -/
theorem toJson_eq_iff {a b : OutputDraft} : a.toJson = b.toJson ↔ a.normal = b.normal := by
  constructor
  · intro same
    -- two outputs of different kinds differ in their first member
    cases a with
    | asset owner amount tokenId =>
      cases b with
      | asset owner' amount' tokenId' =>
        simp only [toJson, addressLeaf, amountLeaf, Json.object.injEq, List.cons.injEq,
          Prod.mk.injEq, Json.string.injEq, true_and, and_true] at same
        obtain ⟨owned, amounts, tokens⟩ := same
        rw [normal, normal, toHex_injective owned, decimal_injective amounts,
          tokenHex_eq_iff.mp tokens]
      | state => simp [toJson] at same
      | resource => simp [toJson] at same
    | state stateId version execHash =>
      cases b with
      | state stateId' version' execHash' =>
        simp only [toJson, base64Leaf, Json.nat, Json.object.injEq, List.cons.injEq,
          Prod.mk.injEq, Json.string.injEq, Json.number.injEq, JsonNumber.natural.injEq,
          true_and, and_true] at same
        obtain ⟨ids, versions, hashes⟩ := same
        rw [normal, normal, Base64.encode_injective ids, UInt64.toNat_inj.mp versions,
          FixedBytes.ext (Base64.encode_injective hashes)]
      | asset => simp [toJson] at same
      | resource => simp [toJson] at same
    | resource content owner =>
      cases b with
      | resource content' owner' =>
        simp only [toJson, base64Leaf, Json.object.injEq, List.cons.injEq, Prod.mk.injEq,
          Json.string.injEq, true_and, and_true] at same
        rw [normal, normal, Base64.encode_injective same]
      | asset => simp [toJson] at same
      | state => simp [toJson] at same
  · intro same
    rw [← toJson_normal a, same, toJson_normal]

end OutputDraft

namespace IntentDraft

/-- What the text of an intent tells. -/
def normal : IntentDraft → IntentDraft
  | transfer sender recipient amount tokenId =>
    transfer sender recipient amount (nativeIfEmpty tokenId)
  | stake staker amount validator => stake staker amount validator

theorem toJson_normal (intent : IntentDraft) : intent.normal.toJson = intent.toJson := by
  cases intent with
  | transfer sender recipient amount tokenId =>
    rw [normal, toJson, paramsJson, tokenHex_nativeIfEmpty]
    rfl
  | stake staker amount validator => rfl

/-- **The tree of an intent tells it.** -/
theorem toJson_eq_iff {a b : IntentDraft} : a.toJson = b.toJson ↔ a.normal = b.normal := by
  constructor
  · intro same
    cases a with
    | transfer sender recipient amount tokenId =>
      cases b with
      | transfer sender' recipient' amount' tokenId' =>
        simp only [toJson, paramsJson, addressLeaf, amountLeaf, Json.object.injEq, List.cons.injEq,
          Prod.mk.injEq, Json.string.injEq, true_and, and_true] at same
        obtain ⟨-, senders, recipients, tokens, amounts⟩ := same
        rw [normal, normal, toHex_injective senders, toHex_injective recipients,
          decimal_injective amounts, tokenHex_eq_iff.mp tokens]
      | stake => simp [toJson, typeName] at same
    | stake staker amount validator =>
      cases b with
      | stake staker' amount' validator' =>
        simp only [toJson, paramsJson, addressLeaf, amountLeaf, Json.object.injEq, List.cons.injEq,
          Prod.mk.injEq, Json.string.injEq, true_and, and_true] at same
        obtain ⟨-, stakers, amounts, validators⟩ := same
        rw [normal, normal, toHex_injective stakers, decimal_injective amounts,
          toHex_injective validators]
      | transfer => simp [toJson, typeName] at same
  · intro same
    rw [← toJson_normal a, same, toJson_normal]

end IntentDraft

/-- Lists that agree entry by entry under one view agree under another that tells
as much. -/
theorem map_eq_map_iff_of_iff {α β γ : Type} {f : α → β} {g : α → γ}
    (tell : ∀ {a b}, f a = f b ↔ g a = g b) {as bs : List α} :
    as.map f = bs.map f ↔ as.map g = bs.map g := by
  induction as generalizing bs with
  | nil => cases bs <;> simp
  | cons a as ih =>
    cases bs with
    | nil => simp
    | cons b bs => simp only [List.map_cons, List.cons.injEq, tell, ih]

namespace Draft

/-- What the text of a draft tells: everything but the difference between a token
id that is missing and one that is empty, and the owners of its resources. -/
def normal (draft : Draft) : Draft :=
  ⟨draft.signMode, draft.outputs.map OutputDraft.normal, draft.intents.map IntentDraft.normal⟩

/-- **Two drafts have one text exactly when they ask for the same transaction.** -/
theorem text_eq_iff (a b : Draft) : a.text = b.text ↔ a.normal = b.normal := by
  have trees : a.text = b.text ↔ a.toJson = b.toJson := by
    rw [text_eq, text_eq]
    constructor
    · exact Json.eq_of_text_eq a.legible_toJson b.legible_toJson
    · exact congrArg Json.text
  have modes : a.signMode.name = b.signMode.name ↔ a.signMode = b.signMode := by
    constructor
    · intro same
      have found := SignMode.ofName?_name a.signMode
      rw [same, SignMode.ofName?_name] at found
      exact (Option.some.inj found).symm
    · exact congrArg SignMode.name
  rw [trees, normal, normal, Draft.mk.injEq]
  simp only [toJson, Json.object.injEq, List.cons.injEq, Prod.mk.injEq, Json.string.injEq,
    Json.array.injEq, true_and, and_true]
  rw [modes, map_eq_map_iff_of_iff OutputDraft.toJson_eq_iff,
    map_eq_map_iff_of_iff IntentDraft.toJson_eq_iff]

end Draft

end HostBoundary
