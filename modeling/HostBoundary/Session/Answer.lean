import HostBoundary.Guest.Builder
import HostBoundary.Record.Output
import HostBoundary.Record.Resource

/-!
# Answers

Whatever is done across the boundary has an answer.  Answers of different
operations have different types; `Answer` is their sum, so that a session can
be recorded as a list.  A boundary error and a fault are answers as well: the
session goes on after either.
-/

namespace HostBoundary

/-- What an operation answers. -/
inductive Answer where
  /-- Nothing, or no value. -/
  | nothing
  /-- A pointer, an index, a status or a version of the boundary. -/
  | word (n : UInt32)
  /-- An amount, a height, a time or a version of a state. -/
  | number (n : UInt64)
  /-- A truth value. -/
  | truth (b : Bool)
  /-- Bytes, or an identity. -/
  | bytes (bytes : Bytes)
  /-- A text. -/
  | text (text : String)
  /-- A region. -/
  | region (buffer : Buffer)
  /-- A confirmed state. -/
  | state (state : StateResult)
  /-- An output. -/
  | utxo (utxo : Utxo)
  /-- A resource. -/
  | resource (resource : Resource)
  /-- An invocation. -/
  | invocation (invocation : Invocation)
  /-- A builder as it stands. -/
  | builder (builder : Builder)
  /-- What became of a transaction. -/
  | outcome (result : TransactionResult)
  /-- What the host holds that is not its setup. -/
  | told (records : Records) (budget : Option Nat)
  /-- A boundary error. -/
  | failed (error : BoundaryError)
  /-- An access over the end of the arena. -/
  | fault (fault : ArenaFault)

namespace Answer

/-- The answer of a value that may be missing. -/
def ofOption {α : Type} (answer : α → Answer) : Option α → Answer
  | some a => answer a
  | none => nothing

/-- The answer of an outcome. -/
def ofExcept {α : Type} (answer : α → Answer) : Except BoundaryError α → Answer
  | .ok a => answer a
  | .error error => failed error

/-- The answer of an identity. -/
def ofIdentity {n : Nat} (id : FixedBytes n) : Answer := bytes id.toBytes

end Answer

end HostBoundary
