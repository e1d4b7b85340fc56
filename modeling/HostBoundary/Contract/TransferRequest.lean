import HostBoundary.Identity
import HostBoundary.Json.Flat
import HostBoundary.Json.Scan
import HostBoundary.Text.Decimal

/-!
# Transfer requests

A transfer request arrives as a flat JSON object: the recipient in hexadecimal,
the amount in decimal, and the token id unless the native token is meant.  It
is written as pairs and read by scanning.  Reading gives back what was written
as long as the token id needs no escape; a token id ends at the first quotation
mark that its escaped form has.
-/

namespace HostBoundary

/-- A request to move an amount of a token. -/
structure TransferRequest where
  /-- Who receives. -/
  recipient : Address
  /-- How much. -/
  amount : UInt64
  /-- Of which token. -/
  tokenId : Option String
deriving DecidableEq

namespace TransferRequest

/-- The pairs of a request. -/
def pairs (request : TransferRequest) : List (String × String) :=
  [("to", request.recipient.toHex), ("amount", decimal request.amount)]
    ++ (request.tokenId.map fun id => ("token_id", id)).toList

/-- The parameters of a call that makes the request. -/
def paramsText (request : TransferRequest) : String := Flat.text request.pairs

/-- The recipient that the parameters name. -/
def recipient? (params : String) : Option Address :=
  match decodeHex (Scan.field params "to") with
  | .ok bytes => FixedBytes.ofBytes? bytes
  | .error _ => none

/-- The request that the parameters make, if they name a recipient. -/
def ofParams? (params : String) : Option TransferRequest :=
  (recipient? params).map fun recipient =>
    { recipient
      amount := Scan.amount params "amount"
      tokenId :=
        let id := Scan.field params "token_id"
        if id = "" then none else some id }

end TransferRequest

end HostBoundary
