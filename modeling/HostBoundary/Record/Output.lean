import HostBoundary.Identity
import HostBoundary.Json.Scan
import HostBoundary.Text.Decimal

/-!
# Outputs on the chain

An output is found by its out point: the transaction that created it and its
index there.  The host describes an output by a JSON text, and the description
is *scanned*, not parsed: the members tell the kind, `owner` the recipient, and
only an asset has an amount and a token id.

`assetText` is the description that a host writes for an asset.
-/

namespace HostBoundary

/-- Where an output was created. -/
structure OutPoint where
  /-- The transaction. -/
  txHash : Hash
  /-- The index among the outputs of the transaction. -/
  index : UInt32
deriving DecidableEq

/-- The kinds of outputs. -/
inductive OutputType where
  | asset
  | resource
  | state
deriving DecidableEq, Repr

namespace OutputType

/-- The number of a kind. -/
def number : OutputType → UInt32
  | asset => 0
  | resource => 1
  | state => 2

/-- The identifier of a kind. -/
def name : OutputType → String
  | asset => "Asset"
  | resource => "Resource"
  | state => "State"

/-- All kinds. -/
def all : List OutputType := [asset, resource, state]

/-- The kind of an identifier. -/
def ofName? (name : String) : Option OutputType := all.find? fun kind => kind.name == name

@[simp] theorem ofName?_name (kind : OutputType) : ofName? kind.name = some kind := by
  cases kind <;> decide

end OutputType

/-- An output of a transaction. -/
structure TxOutput where
  /-- Its kind. -/
  outputType : OutputType
  /-- Who may spend it, if that is known. -/
  recipient : Option Address
  /-- How much it holds. -/
  amount : UInt64
  /-- Of which token. -/
  tokenId : Option String
  /-- The raw description. -/
  data : Bytes
deriving DecidableEq

/-- An output with its out point. -/
structure Utxo where
  /-- Where it was created. -/
  outPoint : OutPoint
  /-- What it is. -/
  output : TxOutput
deriving DecidableEq

/-- A text, or nothing for the empty one. -/
def nonempty? (text : String) : Option String := if text = "" then none else some text

namespace Utxo

/-- Whether a description has a member: a field that is not empty, or an object. -/
def hasMember (json key : String) : Bool :=
  Scan.field json key != "" || Scan.object json key != ""

/-- The kind that a description tells, an asset if it tells none. -/
def describedType (json : String) : OutputType :=
  if hasMember json "asset" then .asset
  else if hasMember json "state" then .state
  else if hasMember json "resource" then .resource
  else .asset

/-- The owner that a description tells: the first twenty bytes of its base64
owner, if there are so many. -/
def describedOwner (json : String) : Option Address :=
  FixedBytes.ofBytes? ((decodeBase64OrEmpty (Scan.field json "owner")).take 20)

/-- The output that a description tells. -/
def ofDescription (outPoint : OutPoint) (json : String) : Utxo :=
  let outputType := describedType json
  let asset := Scan.object json "asset"
  let isAsset := outputType = .asset
  { outPoint
    output :=
      { outputType
        recipient := describedOwner json
        amount := if isAsset then Scan.amount asset "amount" else 0
        tokenId := if isAsset then nonempty? (Scan.field asset "tokenId") else none
        data := [] } }

/-- The description of an asset. -/
def assetText (owner : Address) (amount : UInt64) (tokenId : Option String) : String :=
  let token :=
    match tokenId with
    | some id => ",\"tokenId\":\"" ++ id ++ "\""
    | none => ""
  "\x7b\"owner\":\"" ++ Base64.encode owner.toBytes ++ "\",\"asset\":\x7b\"amount\":\""
    ++ decimal amount ++ "\"" ++ token ++ "\x7d\x7d"

end Utxo

end HostBoundary
