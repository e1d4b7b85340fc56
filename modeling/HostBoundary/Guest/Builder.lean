import HostBoundary.Guest.Reply
import HostBoundary.Host.Recording
import HostBoundary.Record.Outcome
import HostBoundary.Transaction.Draft

/-!
# Building a transaction

A builder accumulates a draft and hands it to the host once.  After it has been
finalized, whatever the outcome, further changes are ignored and finalizing
again is an invalid state; neither touches the host.

`build` is the exchange itself: write the draft, reserve room for the receipt,
let the host build, and check the receipt.  If there is no room for one of the
two, and if the receipt is unusable, the execution failed; a status that the
host answers is passed on.
-/

namespace HostBoundary

/-- A draft in the making. -/
structure Builder where
  /-- What was asked for so far. -/
  draft : Draft
  /-- Whether the draft was handed to the host. -/
  finalized : Bool
deriving DecidableEq

namespace Builder

/-- A builder that was asked for nothing. -/
def fresh : Builder := ⟨.empty, false⟩

/-- Changes the draft, unless it was handed over already. -/
def edit (change : Draft → Draft) (builder : Builder) : Builder :=
  if builder.finalized then builder else { builder with draft := change builder.draft }

/-- Asks for an output. -/
def addOutput (output : OutputDraft) : Builder → Builder :=
  edit fun draft => { draft with outputs := draft.outputs ++ [output] }

/-- Asks for an intent. -/
def addIntent (intent : IntentDraft) : Builder → Builder :=
  edit fun draft => { draft with intents := draft.intents ++ [intent] }

/-- Sets who signs. -/
def setSignMode (signMode : SignMode) : Builder → Builder :=
  edit fun draft => { draft with signMode }

theorem edit_finalized {builder : Builder} (h : builder.finalized = true)
    (change : Draft → Draft) : builder.edit change = builder := by
  simp [edit, h]

end Builder

namespace Guest

/-- A marshalling failure is reported as a failed execution. -/
def orExecutionFailed {α : Type} : Except BoundaryError α → Except BoundaryError α
  | .ok a => .ok a
  | .error _ => .error (.host .executionFailed)

/-- Lets the host build a draft, and checks the receipt. -/
def build (draft : Draft) : Guest (Except BoundaryError Receipt) := do
  match orExecutionFailed (← writeText draft.text) with
  | .error error => return .error error
  | .ok draft =>
    match orExecutionFailed (← reserve receiptCapacity) with
    | .error error => return .error error
    | .ok receipt =>
      let code ← call <| Host.buildTransaction draft.pointer draft.length
        receipt.pointer receipt.length
      match BoundaryError.ofStatus code with
      | .error error => return .error error
      | .ok () => return Receipt.parse (← readBuffer receipt)

/-- Hands the draft of a builder to the host, unless that was done before. -/
def finalize (builder : Builder) : Guest (TransactionResult × Builder) := do
  if builder.finalized then return (.failed .invalidState, builder)
  else
    let spent := { builder with finalized := true }
    match ← build builder.draft with
    | .ok receipt =>
      emit (.transactionBuilt (Utf8.encode receipt.json).length)
      return (.ok, spent)
    | .error error =>
      emit (.transactionFailed error)
      return (.ofError error, spent)

end Guest

end HostBoundary
