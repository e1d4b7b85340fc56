import HostBoundary.Contract.TransferRequest
import HostBoundary.Guest.Builder
import HostBoundary.Guest.Query
import HostBoundary.Guest.Report

/-!
# A token contract

Two entry points over the boundary.  Each answers the number of a status code.

* `transfer` moves an amount from the caller to the recipient that the
  parameters of the call name.  The balance is checked before anything is sent;
  the event and the return data follow only after the transaction was built.
* `vote` writes the caller's choice on a proposal as the next version of a
  state.  The caller is part of the state id, in a fixed number of digits, so
  two voters never share a state.
-/

namespace HostBoundary

namespace Token

/-- Room for the parameters of a call. -/
def paramsCapacity : UInt32 := 1024

/-- The request that the parameters of the call make: a text, with a recipient,
for more than nothing. -/
def request? (params : Bytes) : Option TransferRequest :=
  ((Utf8.decode? params).bind TransferRequest.ofParams?).filter fun request =>
    request.amount != 0

/-- The event of a transfer. -/
def transferEvent (sender recipient : String) (amount : UInt64) : String :=
  Flat.text [("name", "Transfer"), ("from", sender), ("to", recipient),
    ("amount", decimal amount)]

/-- The draft of a transfer. -/
def transferBuilder (sender : Address) (request : TransferRequest) : Builder :=
  Builder.fresh.addIntent <|
    .transfer sender request.recipient request.amount request.tokenId

/-- Announces a transfer that was built. -/
def announce (sender : Address) (request : TransferRequest) : Guest StatusCode := do
  let sender ← Guest.addressText sender
  let recipient ← Guest.addressText request.recipient
  match ← Guest.emitEvent (transferEvent sender recipient request.amount) with
  | .error _ => return .executionFailed
  | .ok () =>
    match ← Guest.setReturnData (Bytes.ofUInt64 request.amount) with
    | .error error => return error.code
    | .ok () => return .success

/-- Turns a transfer down for want of balance. -/
def rejectTransfer : Guest StatusCode := do
  match ← Guest.logDebug "transfer rejected: balance too low" with
  | .error error => Guest.emit (.debugRefused error)
  | .ok () => pure ()
  return .insufficientBalance

/-- Carries out a request. -/
def perform (sender : Address) (request : TransferRequest) : Guest StatusCode := do
  if (← Guest.balance sender request.tokenId) < request.amount then rejectTransfer
  else
    let (result, _) ← Guest.finalize (transferBuilder sender request)
    if result.success then announce sender request else return result.code

/-- Moves an amount of a token, as the parameters of the call say. -/
def transfer (invocation : Invocation) : Guest UInt32 := do
  match (← Guest.initParams? paramsCapacity).bind request? with
  | none => return StatusCode.toHost .invalidParams
  | some request => return (← perform invocation.caller request).toHost

/-- The state in which the vote of a caller on a proposal is kept. -/
def voteStateId (voter : Address) (proposal : String) : String :=
  "vote:" ++ voter.toHex ++ ":" ++ proposal

/-- The tag of a choice. -/
def voteTag (stateId choice : String) : Hash :=
  ContentTag.tag (Utf8.encode (stateId ++ "=" ++ choice))

/-- Records the choice of the caller on a proposal, as the version behind the one that the
host answers.  Behind the last of the 64-bit versions follows zero, as in a release build;
a build with checked arithmetic stops there. -/
def vote (invocation : Invocation) (proposal choice : String) : Guest UInt32 := do
  let stateId := voteStateId invocation.caller proposal
  let version := (← Guest.stateVersion stateId) + 1
  let output := .state (Utf8.encode stateId) version (voteTag stateId choice)
  let (result, _) ← Guest.finalize (Builder.fresh.addOutput output)
  return result.code.toHost

end Token

end HostBoundary
