import HostBoundary.Identity
import HostBoundary.Text.Decimal

/-!
# Invocations

What the host says about the current call, read once at entry and passed down
from there, so that nothing leaks from one call into the next.
-/

namespace HostBoundary

/-- The circumstances of a call. -/
structure Invocation where
  /-- Who calls. -/
  caller : Address
  /-- The contract that is called. -/
  contractAddress : Address
  /-- The height of the current block. -/
  blockHeight : UInt64
  /-- The time of the current block. -/
  timestamp : UInt64
deriving DecidableEq

namespace Invocation

/-- Whether the contract calls itself. -/
def isSelfCall (invocation : Invocation) : Bool :=
  invocation.caller = invocation.contractAddress

/-- The tagged form, as the trace shows it. -/
def describe (invocation : Invocation) : String :=
  "Invocation \x7b caller: " ++ invocation.caller.describe
    ++ ", contract_address: " ++ invocation.contractAddress.describe
    ++ ", block_height: " ++ decimal invocation.blockHeight
    ++ ", timestamp: " ++ decimal invocation.timestamp ++ " \x7d"

end Invocation

end HostBoundary
