import HostBoundary.Guest.Query

/-!
# Loading an invocation

The circumstances of a call are asked for once, in a fixed order.  Each of the
two addresses falls back to zeros on its own.
-/

namespace HostBoundary

namespace Guest

/-- What the host says about the current call. -/
def loadInvocation : Guest Invocation := do
  let caller ← caller
  let contractAddress ← contractAddress
  let blockHeight ← blockHeight
  let timestamp ← timestamp
  let invocation := { caller, contractAddress, blockHeight, timestamp }
  emit (.invocationLoaded invocation)
  return invocation

end Guest

end HostBoundary
