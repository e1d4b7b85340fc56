import HostBoundary.Contract.TransferRequest
import HostBoundary.Record.Invocation
import HostBoundary.Record.Outcome
import HostBoundary.Record.Output
import HostBoundary.Record.Resource
import HostBoundary.Stored.Form
import HostBoundary.Transaction.Batch
import HostBoundary.Transaction.Receipt

/-!
# The stored forms of the records

One form for each type that is kept.  The fields of a record are written in the
order in which they are declared, under the names given here; these names are
part of what is stored and do not follow the names of the definitions.

Identities are lists of numbers of exactly their length.

## Values, not texts

What is read is a JSON value, into which a text was read before.  The content of a case with
named fields is an object there, and a list of the fields does not stand in for it, unlike
for a record; of a repeated key the last value counts.  A reader that takes the fields
straight from the text is another one: it takes the list for both, and refuses a field that
it met before.
-/

namespace HostBoundary

namespace Form

/-! ## Identities -/

/-- The form of an identity: the list of its bytes. -/
def fixedBytes {n : Nat} : Form (FixedBytes n) where
  write id := (list uint8).write id.toBytes
  read? value := ((list uint8).read? value).bind FixedBytes.ofBytes?

/-- The form of an address. -/
def address : Form Address := fixedBytes

/-- The form of a hash. -/
def hash : Form Hash := fixedBytes

/-! ## Status codes and errors -/

/-- The form of a status code. -/
def statusCode : Form StatusCode := names StatusCode.name StatusCode.ofName?

/-- The error of a case without content. -/
def plainError? (name : String) : Option BoundaryError :=
  if name = "OutOfMemory" then some .outOfMemory
  else if name = "Absent" then some .absent
  else if name = "Utf8" then some .utf8
  else if name = "PointerMap" then some .tooWide
  else none

/-- The error of a case with content.  Named fields have to be an object, as for every
reader of JSON values; a reader of JSON text takes the list of them too. -/
def contentError? (name : String) (content : Json) : Option BoundaryError :=
  if name = "Malformed" then (string.read? content).map .malformed
  else if name = "Hex" then (string.read? content).map .hex
  else if name = "Host" then (statusCode.read? content).map .host
  else if name = "Base64" then
    match members? ["byte", "position"] content with
    | some [byte, position] => do
      return .base64 (← required uint8 byte) (← required uint64 position)
    | _ => none
  else if content matches .null then plainError? name
  else none

/-- The form of a boundary error. -/
def boundaryError : Form BoundaryError where
  write
    | .malformed detail => caseOf "Malformed" (.string detail)
    | .base64 byte position =>
      caseOf "Base64" <| .object [
        ("byte", uint8.write byte), ("position", uint64.write position)]
    | .hex detail => caseOf "Hex" (.string detail)
    | .host code => caseOf "Host" (statusCode.write code)
    | error => .string error.kind
  read? value :=
    match case? value with
    | some (name, none) => plainError? name
    | some (name, some content) => contentError? name content
    | none => none

/-! ## Records of the chain -/

/-- The form of an out point. -/
def outPoint : Form OutPoint where
  write point := .object [
    ("tx_hash", hash.write point.txHash), ("index", uint32.write point.index)]
  read? value :=
    match fields? ["tx_hash", "index"] value with
    | some [txHash, index] => do
      return ⟨← required hash txHash, ← required uint32 index⟩
    | _ => none

/-- The form of a kind of outputs. -/
def outputType : Form OutputType := names OutputType.name OutputType.ofName?

/-- The form of an output. -/
def txOutput : Form TxOutput where
  write output := .object [
    ("output_type", outputType.write output.outputType),
    ("recipient", address.optional.write output.recipient),
    ("amount", uint64.write output.amount),
    ("token_id", string.optional.write output.tokenId),
    ("data", bytes.write output.data)]
  read? value :=
    match fields? ["output_type", "recipient", "amount", "token_id", "data"] value with
    | some [kind, recipient, amount, tokenId, data] => do
      return ⟨← required outputType kind, ← optionalField address recipient,
        ← required uint64 amount, ← optionalField string tokenId, ← required bytes data⟩
    | _ => none

/-- The form of an output with its out point. -/
def utxo : Form Utxo where
  write utxo := .object [
    ("out_point", outPoint.write utxo.outPoint), ("output", txOutput.write utxo.output)]
  read? value :=
    match fields? ["out_point", "output"] value with
    | some [point, output] => do
      return ⟨← required outPoint point, ← required txOutput output⟩
    | _ => none

/-- The form of a category of resources. -/
def resourceCategory : Form ResourceCategory := names ResourceCategory.name ResourceCategory.ofName?

/-- The form of a resource. -/
def resource : Form Resource where
  write resource := .object [
    ("content_hash", hash.write resource.contentHash),
    ("category", resourceCategory.write resource.category),
    ("mime_type", string.write resource.mimeType),
    ("size", uint64.write resource.size)]
  read? value :=
    match fields? ["content_hash", "category", "mime_type", "size"] value with
    | some [contentHash, category, mimeType, size] => do
      return ⟨← required hash contentHash, ← required resourceCategory category,
        ← required string mimeType, ← required uint64 size⟩
    | _ => none

/-- The form of a confirmed state. -/
def stateResult : Form StateResult where
  write state := .object [
    ("value", bytes.write state.value), ("version", uint64.write state.version)]
  read? value :=
    match fields? ["value", "version"] value with
    | some [value, version] => do
      return ⟨← required bytes value, ← required uint64 version⟩
    | _ => none

/-- The form of an outcome. -/
def transactionResult : Form TransactionResult where
  write result := .object [
    ("success", bool.write result.success), ("code", statusCode.write result.code)]
  read? value :=
    match fields? ["success", "code"] value with
    | some [success, code] => do
      return ⟨← required bool success, ← required statusCode code⟩
    | _ => none

/-! ## Drafts -/

/-- The form of a sign mode. -/
def signMode : Form SignMode := names SignMode.name SignMode.ofName?

/-- The output of a case with content, which is an object: a list of the fields is refused,
as by every reader of JSON values, though a reader of JSON text takes it. -/
def output? (name : String) (content : Json) : Option OutputDraft :=
  if name = "Asset" then
    match members? ["owner", "amount", "token_id"] content with
    | some [owner, amount, tokenId] => do
      return .asset (← required address owner) (← required uint64 amount)
        (← optionalField string tokenId)
    | _ => none
  else if name = "State" then
    match members? ["state_id", "version", "exec_hash"] content with
    | some [stateId, version, execHash] => do
      return .state (← required bytes stateId) (← required uint64 version)
        (← required hash execHash)
    | _ => none
  else if name = "Resource" then
    match members? ["resource", "owner"] content with
    | some [content, owner] => do
      return .resource (← required bytes content) (← required address owner)
    | _ => none
  else none

/-- The form of an output of a draft. -/
def outputDraft : Form OutputDraft where
  write
    | .asset owner amount tokenId =>
      caseOf "Asset" <| .object [
        ("owner", address.write owner), ("amount", uint64.write amount),
        ("token_id", string.optional.write tokenId)]
    | .state stateId version execHash =>
      caseOf "State" <| .object [
        ("state_id", bytes.write stateId), ("version", uint64.write version),
        ("exec_hash", hash.write execHash)]
    | .resource content owner =>
      caseOf "Resource" <| .object [
        ("resource", bytes.write content), ("owner", address.write owner)]
  read? value :=
    match case? value with
    | some (name, some content) => output? name content
    | _ => none

/-- The intent of a case with content.  As for an output, the content is an object and never
the list of the fields. -/
def intent? (name : String) (content : Json) : Option IntentDraft :=
  if name = "Transfer" then
    match members? ["from", "to", "amount", "token_id"] content with
    | some [sender, recipient, amount, tokenId] => do
      return .transfer (← required address sender) (← required address recipient)
        (← required uint64 amount) (← optionalField string tokenId)
    | _ => none
  else if name = "Stake" then
    match members? ["staker", "amount", "validator"] content with
    | some [staker, amount, validator] => do
      return .stake (← required address staker) (← required uint64 amount)
        (← required address validator)
    | _ => none
  else none

/-- The form of an intent of a draft. -/
def intentDraft : Form IntentDraft where
  write
    | .transfer sender recipient amount tokenId =>
      caseOf "Transfer" <| .object [
        ("from", address.write sender), ("to", address.write recipient),
        ("amount", uint64.write amount), ("token_id", string.optional.write tokenId)]
    | .stake staker amount validator =>
      caseOf "Stake" <| .object [
        ("staker", address.write staker), ("amount", uint64.write amount),
        ("validator", address.write validator)]
  read? value :=
    match case? value with
    | some (name, some content) => intent? name content
    | _ => none

/-- The form of a draft. -/
def draft : Form Draft where
  write draft := .object [
    ("sign_mode", signMode.write draft.signMode),
    ("outputs", (list outputDraft).write draft.outputs),
    ("intents", (list intentDraft).write draft.intents)]
  read? value :=
    match fields? ["sign_mode", "outputs", "intents"] value with
    | some [mode, outputs, intents] => do
      return ⟨← required signMode mode, ← required (list outputDraft) outputs,
        ← required (list intentDraft) intents⟩
    | _ => none

/-- The form of an item of a batch. -/
def batchItem : Form BatchItem where
  write item := .object [
    ("recipient", address.write item.recipient), ("amount", uint64.write item.amount),
    ("token_id", string.optional.write item.tokenId)]
  read? value :=
    match fields? ["recipient", "amount", "token_id"] value with
    | some [recipient, amount, tokenId] => do
      return ⟨← required address recipient, ← required uint64 amount,
        ← optionalField string tokenId⟩
    | _ => none

/-- The form of a receipt. -/
def receipt : Form Receipt where
  write receipt := .object [("json", string.write receipt.json)]
  read? value :=
    match fields? ["json"] value with
    | some [json] => do return ⟨← required string json⟩
    | _ => none

/-! ## Calls -/

/-- The form of an invocation. -/
def invocation : Form Invocation where
  write invocation := .object [
    ("caller", address.write invocation.caller),
    ("contract_address", address.write invocation.contractAddress),
    ("block_height", uint64.write invocation.blockHeight),
    ("timestamp", uint64.write invocation.timestamp)]
  read? value :=
    match fields? ["caller", "contract_address", "block_height", "timestamp"] value with
    | some [caller, contractAddress, blockHeight, timestamp] => do
      return ⟨← required address caller, ← required address contractAddress,
        ← required uint64 blockHeight, ← required uint64 timestamp⟩
    | _ => none

/-- The form of a transfer request. -/
def transferRequest : Form TransferRequest where
  write request := .object [
    ("to", address.write request.recipient), ("amount", uint64.write request.amount),
    ("token_id", string.optional.write request.tokenId)]
  read? value :=
    match fields? ["to", "amount", "token_id"] value with
    | some [recipient, amount, tokenId] => do
      return ⟨← required address recipient, ← required uint64 amount,
        ← optionalField string tokenId⟩
    | _ => none

end Form

end HostBoundary
