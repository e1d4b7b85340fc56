import HostBoundary.Text.Ascii

/-!
# Decimal texts

Amounts are written in decimal inside a string, so that a reader that keeps
numbers as floating point does not lose their low bits.
-/

namespace HostBoundary

/-- A number in decimal digits, without leading zeros. -/
def decimal (n : UInt64) : String := Nat.repr n.toNat

end HostBoundary
