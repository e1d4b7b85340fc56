import HostBoundary.Identity

/-!
# Content tags

A content tag is a deterministic 256-bit name for a byte string: the 64-bit
FNV-1a value of the bytes, stretched over four words by three further
multiplications with the same odd constant.  Each word therefore determines the
other three.  A tag tells contents apart that differ by accident; it is no
cryptographic digest, and collisions are cheap to construct.
-/

namespace HostBoundary

namespace ContentTag

/-- The value of the empty byte string. -/
def offsetBasis : UInt64 := 0xcbf29ce484222325

/-- The multiplier. -/
def multiplier : UInt64 := 0x100000001b3

/-- One step: take in a byte, then multiply. -/
def absorb (word : UInt64) (b : UInt8) : UInt64 := (word ^^^ b.toUInt64) * multiplier

/-- The FNV-1a value of a byte string. -/
def fnv1a (data : Bytes) : UInt64 := data.foldl absorb offsetBasis

theorem fnv1a_append_singleton (data : Bytes) (b : UInt8) :
    fnv1a (data ++ [b]) = absorb (fnv1a data) b := by
  simp [fnv1a]

/-- A word and its successive multiples, eight bytes for each of `count` words. -/
def stretch : (count : Nat) → UInt64 → Bytes
  | 0, _ => []
  | count + 1, word => Bytes.ofUInt64 word ++ stretch count (word * multiplier)

@[simp] theorem length_stretch (count : Nat) (word : UInt64) :
    (stretch count word).length = 8 * count := by
  induction count generalizing word with
  | zero => rfl
  | succ count ih => simp [stretch, ih]; omega

/-- The tag of a byte string. -/
def tag (data : Bytes) : Hash := ⟨stretch 4 (fnv1a data), by simp⟩

end ContentTag

end HostBoundary
