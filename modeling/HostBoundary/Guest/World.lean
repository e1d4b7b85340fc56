import HostBoundary.Host.Arena
import HostBoundary.Record.Invocation

/-!
# The contract side

A contract acts in a *world*: the host it runs on, and the trace of what its
own side of the boundary had to say.  The trace is kept apart from the host,
since the host never sees it.

## Main definitions

* `TraceEvent` — what is worth a line in the trace, with its wording.
* `World`, `Guest` — the world, and computations in it.
* `Guest.call` — a host call, made from the contract side.

`Guest` has one kind of failure, the fault of an access over the end of the
arena.  A boundary error is not a failure of the computation but an answer of
type `Except BoundaryError`, because every caller deals with it in its own way.
-/

namespace HostBoundary

/-! ## The trace -/

/-- How serious a line of the trace is. -/
inductive TraceLevel where
  | warn
  | debug
  | trace
deriving DecidableEq, Repr

/-- The identifier of a level. -/
def TraceLevel.name : TraceLevel → String
  | warn => "WARN"
  | debug => "DEBUG"
  | trace => "TRACE"

/-- What is worth a line in the trace. -/
inductive TraceEvent where
  /-- An allocation of so many bytes was not granted. -/
  | allocationRefused (length : UInt32)
  /-- A reply was empty or reported more than its buffer holds. -/
  | nothingWritten (written capacity : UInt32)
  /-- A reply that should be a text is none. -/
  | replyNotText (complaint : String)
  /-- A call gave up before it reached the host. -/
  | callAbandoned (error : BoundaryError)
  /-- The host has no confirmed state. -/
  | noConfirmedState (code : UInt32)
  /-- Bytes that were read as a text are none. -/
  | bytesDiscarded (pointer length : UInt32) (error : BoundaryError)
  /-- An invocation was loaded. -/
  | invocationLoaded (invocation : Invocation)
  /-- A transaction was built, with a receipt of so many bytes. -/
  | transactionBuilt (length : Nat)
  /-- A transaction was not built. -/
  | transactionFailed (error : BoundaryError)
  /-- The host did not take a debug message. -/
  | debugRefused (error : BoundaryError)
deriving DecidableEq

namespace TraceEvent

/-- How serious the line is. -/
def level : TraceEvent → TraceLevel
  | allocationRefused _ | replyNotText _ | bytesDiscarded .. | transactionFailed _ => .warn
  | nothingWritten .. | callAbandoned _ | noConfirmedState _ | transactionBuilt _
  | debugRefused _ => .debug
  | invocationLoaded _ => .trace

/-- The wording of the line. -/
def message : TraceEvent → String
  | allocationRefused _ => "host allocator returned a null offset"
  | nothingWritten .. => "host wrote nothing usable"
  | replyNotText _ => "host wrote invalid utf-8"
  | callAbandoned _ => "host boundary call abandoned"
  | noConfirmedState _ => "no confirmed state"
  | bytesDiscarded .. => "discarding non utf-8 bytes from linear memory"
  | invocationLoaded _ => "invocation loaded"
  | transactionBuilt _ => "transaction built"
  | transactionFailed _ => "transaction build failed"
  | debugRefused _ => "host refused debug log"

/-- The details of the line, each under its name. -/
def fields : TraceEvent → List (String × String)
  | allocationRefused length => [("len", toString length.toNat)]
  | nothingWritten written capacity =>
    [("written", toString written.toNat), ("capacity", toString capacity.toNat)]
  | replyNotText complaint => [("error", complaint)]
  | callAbandoned error | transactionFailed error | debugRefused error =>
    [("error", error.message)]
  | noConfirmedState code => [("code", toString code.toNat)]
  | bytesDiscarded pointer length error =>
    [("ptr", toString pointer.toNat), ("len", toString length.toNat),
      ("error", error.message)]
  | invocationLoaded invocation => [("invocation", invocation.describe)]
  | transactionBuilt length => [("len", toString length)]

end TraceEvent

/-! ## Worlds and computations -/

/-- The host and the trace. -/
structure World where
  /-- The host that the contract runs on. -/
  host : Host
  /-- The lines of the trace, in order. -/
  trace : List TraceEvent

/-- A computation of the contract side. -/
abbrev Guest := EStateM ArenaFault World

namespace Guest

/-- A host call.  It changes the host and leaves the trace as it is. -/
def call {α : Type} (act : HostCall α) : Guest α := fun world =>
  match act world.host with
  | .ok a host => .ok a { world with host }
  | .error fault host => .error fault { world with host }

@[simp] theorem call_pure {α : Type} (a : α) : call (pure a) = pure a := rfl

/-- A line of the trace. -/
def emit (event : TraceEvent) : Guest Unit :=
  modify fun world => { world with trace := world.trace ++ [event] }

/-- The value of an outcome.  An error is traced as an abandoned call and
answers the sentinel `fail`. -/
def orAbandon {α β : Type} (outcome : Except BoundaryError α) (fail : β)
    (next : α → Guest β) : Guest β :=
  match outcome with
  | .ok a => next a
  | .error error => do
    emit (.callAbandoned error)
    return fail

@[simp] theorem orAbandon_ok {α β : Type} (a : α) (fail : β) (next : α → Guest β) :
    orAbandon (.ok a) fail next = next a := rfl

end Guest

end HostBoundary
