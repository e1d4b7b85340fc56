import HostBoundary.ContentTag
import HostBoundary.Json.Flat
import HostBoundary.Text.Decimal

/-!
# Transaction drafts

A draft is what a contract asks the host to build: a sign mode, outputs and
intents.  It crosses the boundary as one JSON object

    {"sign_mode":"...","outputs":[...],"intents":[...]}

whose members have a fixed order and whose leaves have a fixed encoding:

* addresses are lowercase hexadecimal;
* a token id is the hexadecimal of its UTF-8 bytes, and the empty text stands
  for the native token;
* state ids, resource contents and hashes are base64;
* amounts are decimal texts, versions are plain numbers.

`Draft.text` puts the leaves between fixed pieces of text, without looking at
them: only the sign mode is escaped, the letters of the other leaves need no
escape.

## Two things that the encoding forgets

A missing token id and an empty one are both the native token.  The owner of a
resource output is not part of a draft; it is told to the host by the call that
appends the resource.
-/

namespace HostBoundary

/-- Who signs the transaction, and when. -/
inductive SignMode where
  | deferSign
  | delegated
  | threshold
  | paymaster
deriving DecidableEq, Repr

namespace SignMode

/-- The identifier of a sign mode. -/
def name : SignMode → String
  | deferSign => "defer_sign"
  | delegated => "delegated"
  | threshold => "threshold"
  | paymaster => "paymaster"

/-- All sign modes. -/
def all : List SignMode := [deferSign, delegated, threshold, paymaster]

/-- The sign mode of an identifier. -/
def ofName? (name : String) : Option SignMode := all.find? fun mode => mode.name == name

@[simp] theorem ofName?_name (mode : SignMode) : ofName? mode.name = some mode := by
  cases mode <;> decide

end SignMode

/-- An output that a draft asks for. -/
inductive OutputDraft where
  /-- An amount of a token for an owner. -/
  | asset (owner : Address) (amount : UInt64) (tokenId : Option String)
  /-- A version of a state, with the hash of the execution that led to it. -/
  | state (stateId : Bytes) (version : UInt64) (execHash : Hash)
  /-- A resource with its content. -/
  | resource (content : Bytes) (owner : Address)
deriving DecidableEq

/-- An intent that the host resolves into inputs and outputs. -/
inductive IntentDraft where
  /-- Move an amount of a token. -/
  | transfer (sender recipient : Address) (amount : UInt64) (tokenId : Option String)
  /-- Lock an amount behind a validator. -/
  | stake (staker : Address) (amount : UInt64) (validator : Address)
deriving DecidableEq

/-- A transaction draft. -/
structure Draft where
  /-- Who signs. -/
  signMode : SignMode
  /-- The outputs, in order. -/
  outputs : List OutputDraft
  /-- The intents, in order. -/
  intents : List IntentDraft
deriving DecidableEq

/-! ## Encoding -/

/-- The token id of an asset: the empty text for the native token. -/
def tokenHex : Option String → String
  | some id => if id.isEmpty then "" else Hex.encodeText id
  | none => ""

namespace OutputDraft

/-- The identifier of the kind of an output. -/
def typeName : OutputDraft → String
  | asset .. => "asset"
  | state .. => "state"
  | resource .. => "resource"

/-- The members of an output behind its kind. -/
def fields : OutputDraft → String
  | asset owner amount tokenId => .join [
      ",\"owner\":\"", owner.toHex, "\",\"amount\":\"", decimal amount, "\",\"token_id\":\"",
      tokenHex tokenId, "\",\"metadata\":\x7b\x7d"]
  | state stateId version execHash => .join [
      ",\"state_id\":\"", Base64.encode stateId, "\",\"version\":", decimal version,
      ",\"exec_hash\":\"", Base64.encode execHash.toBytes, "\""]
  | resource content _ => .join [",\"resource\":\"", Base64.encode content, "\""]

/-- The text of an output. -/
def text (output : OutputDraft) : String :=
  .join ["\x7b\"type\":\"", output.typeName, "\"", output.fields, "\x7d"]

end OutputDraft

namespace IntentDraft

/-- The identifier of the kind of an intent. -/
def typeName : IntentDraft → String
  | transfer .. => "transfer"
  | stake .. => "stake"

/-- The members of the parameters of an intent. -/
def params : IntentDraft → String
  | transfer sender recipient amount tokenId => .join [
      "\"from\":\"", sender.toHex, "\",\"to\":\"", recipient.toHex, "\",\"token_id\":\"",
      tokenHex tokenId, "\",\"amount\":\"", decimal amount, "\""]
  | stake staker amount validator => .join [
      "\"staker\":\"", staker.toHex, "\",\"amount\":\"", decimal amount, "\",\"validator\":\"",
      validator.toHex, "\""]

/-- The text of an intent. -/
def text (intent : IntentDraft) : String :=
  .join ["\x7b\"type\":\"", intent.typeName, "\",\"params\":\x7b", intent.params, "\x7d\x7d"]

end IntentDraft

namespace Draft

/-- The draft that asks for nothing and defers the signature. -/
def empty : Draft := ⟨.deferSign, [], []⟩

instance : Inhabited Draft := ⟨empty⟩

/-- The text of a draft, as the host receives it. -/
def text (draft : Draft) : String := .join [
  "\x7b\"sign_mode\":\"", Flat.escape draft.signMode.name,
  "\",\"outputs\":[", ",".intercalate (draft.outputs.map OutputDraft.text),
  "],\"intents\":[", ",".intercalate (draft.intents.map IntentDraft.text), "]\x7d"]

end Draft

end HostBoundary
