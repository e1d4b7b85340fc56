import HostBoundary.Error

/-!
# Addresses and hashes

An identity is a byte string of a fixed length: twenty bytes for an address,
thirty-two for a hash.  The length is part of the value, so no operation on an
identity can fail for its length; it is checked once, where bytes come in
(`Address.ofBytes`, `Hash.ofBytes`), and a wrong length is a malformed payload
that names both lengths.

Replies are allowed to be shorter than an address.  `FixedBytes.ofFront` aligns
what there is to the left and fills up with zeros.
-/

namespace HostBoundary

/-- Byte strings of length `n`. -/
structure FixedBytes (n : Nat) where
  /-- The bytes. -/
  toBytes : Bytes
  /-- There are `n` of them. -/
  length_toBytes : toBytes.length = n
deriving DecidableEq

namespace FixedBytes

variable {n : Nat}

@[ext] theorem ext {a b : FixedBytes n} (h : a.toBytes = b.toBytes) : a = b := by
  cases a; cases b; cases h; rfl

/-- The identity of zeros. -/
def zero : FixedBytes n := ⟨List.replicate n 0, by simp⟩

instance : Inhabited (FixedBytes n) := ⟨zero⟩

/-- Identities are ordered byte by byte. -/
instance : Ord (FixedBytes n) := ⟨fun a b => compare a.toBytes b.toBytes⟩

/-- Whether every byte is zero. -/
def isZero (id : FixedBytes n) : Bool := id.toBytes.all (· == 0)

/-- The identity in lowercase hexadecimal. -/
def toHex (id : FixedBytes n) : String := Hex.encode id.toBytes

/-- The identity with these bytes, if they are as many as it takes. -/
def ofBytes? (bytes : Bytes) : Option (FixedBytes n) :=
  if h : bytes.length = n then some ⟨bytes, h⟩ else none

/-- The first bytes, filled up with zeros on the right. -/
def ofFront (bytes : Bytes) : FixedBytes n :=
  ⟨bytes.take n ++ List.replicate (n - bytes.length) 0, by simp; omega⟩

@[simp] theorem ofBytes?_toBytes (id : FixedBytes n) : ofBytes? id.toBytes = some id := by
  simp [ofBytes?, id.length_toBytes]

theorem ofBytes?_eq_some_iff {bytes : Bytes} {id : FixedBytes n} :
    ofBytes? bytes = some id ↔ id.toBytes = bytes := by
  constructor
  · intro h
    unfold ofBytes? at h
    split at h
    · cases h; rfl
    · cases h
  · rintro rfl
    exact ofBytes?_toBytes id

/-- The identity with these bytes, or the two lengths that disagree. -/
def ofBytes (name : String) (bytes : Bytes) : Except BoundaryError (FixedBytes n) :=
  match ofBytes? bytes with
  | some id => .ok id
  | none =>
    .error <| .malformed <|
      "expected " ++ toString n ++ " bytes for " ++ name ++ ", got " ++ toString bytes.length

end FixedBytes

/-! ## The two kinds of identity -/

/-- The account of a caller, an owner or a contract. -/
abbrev Address := FixedBytes 20

/-- The identity of a transaction, a block or a content. -/
abbrev Hash := FixedBytes 32

/-- The address with these bytes. -/
def Address.ofBytes (bytes : Bytes) : Except BoundaryError Address :=
  FixedBytes.ofBytes "Address" bytes

/-- The hash with these bytes. -/
def Hash.ofBytes (bytes : Bytes) : Except BoundaryError Hash := FixedBytes.ofBytes "Hash" bytes

/-- The tagged form of an address. -/
def Address.describe (address : Address) : String := "Address(" ++ address.toHex ++ ")"

/-- The tagged form of a hash. -/
def Hash.describe (hash : Hash) : String := "Hash(" ++ hash.toHex ++ ")"

end HostBoundary
