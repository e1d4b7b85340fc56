import HostBoundary.Error

/-!
# Confirmed states and outcomes

`StateResult` is a value of the confirmed state with its version, and
`TransactionResult` what became of a finished transaction.  A failed transaction
keeps the status code of the error that stopped it.
-/

namespace HostBoundary

/-- A confirmed value and its version. -/
structure StateResult where
  /-- The value. -/
  value : Bytes
  /-- Its version. -/
  version : UInt64
deriving DecidableEq

/-- What became of a transaction. -/
structure TransactionResult where
  /-- Whether it was built. -/
  success : Bool
  /-- The status code that says why not. -/
  code : StatusCode
deriving DecidableEq, Repr

namespace TransactionResult

/-- The transaction was built. -/
def ok : TransactionResult := ⟨true, .success⟩

/-- The transaction was not built. -/
def failed (code : StatusCode) : TransactionResult := ⟨false, code⟩

/-- The outcome of an error. -/
def ofError (error : BoundaryError) : TransactionResult := failed error.code

end TransactionResult

end HostBoundary
