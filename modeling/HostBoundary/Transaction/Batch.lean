import HostBoundary.Transaction.Draft

/-!
# Batches of outputs

A batch asks the host for several asset outputs at once.  Unlike in a draft,
addresses and token ids are base64 and amounts are plain numbers, the native
token is `null`, and each item carries an empty list of locking conditions.
-/

namespace HostBoundary

/-- One output of a batch. -/
structure BatchItem where
  /-- Who receives. -/
  recipient : Address
  /-- How much. -/
  amount : UInt64
  /-- Of which token. -/
  tokenId : Option String
deriving DecidableEq

namespace BatchItem

/-- The token id of an item, where nothing and the empty text are `null`. -/
def tokenText : Option String → String
  | some id =>
    if id.isEmpty then "null" else .join ["\"", Base64.encode (Utf8.encode id), "\""]
  | none => "null"

/-- The text of an item. -/
def text (item : BatchItem) : String := .join [
  "\x7b\"recipient\":\"", Base64.encode item.recipient.toBytes, "\",\"amount\":",
  decimal item.amount, ",\"token_id\":", tokenText item.tokenId, ",\"locking_conditions\":[]\x7d"]

end BatchItem

/-- The text of a batch. -/
def batchText (items : List BatchItem) : String :=
  .join ["[", ",".intercalate (items.map BatchItem.text), "]"]

end HostBoundary
