import HostBoundary.ContentTag
import HostBoundary.Proofs.Memory

/-!
# What a content tag tells apart

A tag has 256 bits and says no more than the 64 bits that it is stretched from, so
different contents with one tag are easy to make.  It has one guarantee all the same:
contents that differ in a single byte have different tags, wherever the byte is and
however much follows it.

## Nothing is lost on the way

The multiplier is odd, so it has an inverse in 64 bits (`multiplier_mul_inverse`), and
multiplying by it can be undone.  To take in a byte is to combine it with the word and
then to multiply, and each of the two can be undone, for the word as well as for the byte
(`absorb_left_inj`, `absorb_right_inj`).  Two different words therefore stay different
while the same bytes are taken in (`foldl_absorb_inj`), and that is an induction on those
bytes.

The words of a tag are multiples of the first one by powers of the multiplier, so each of
them determines the tag.

## Main results

* `fnv1a_append_inj` — what follows two contents changes nothing about their difference.
* `tag_tells_apart` — changes of one byte, and what a single word of a tag says.
-/

namespace HostBoundary

/-- A number is known from its eight bytes. -/
theorem Bytes.ofUInt64_inj {n m : UInt64} : ofUInt64 n = ofUInt64 m ↔ n = m := by
  refine ⟨fun same => ?_, congrArg ofUInt64⟩
  have read := congrArg fromLittleEndian same
  have below (k : UInt64) : k.toNat < 256 ^ 8 := k.toNat_lt
  rw [ofUInt64, ofUInt64, Guest.fromLittleEndian_littleEndian, Guest.fromLittleEndian_littleEndian,
    Nat.mod_eq_of_lt (below n), Nat.mod_eq_of_lt (below m)] at read
  exact UInt64.toNat_inj.mp read

namespace ContentTag

variable {word other : UInt64}

/-! ## The multiplier -/

/-- The inverse of the multiplier. -/
def inverse : UInt64 := 0xce965057aff6957b

theorem multiplier_mul_inverse : multiplier * inverse = 1 := by decide

/-- Multiplying can be undone. -/
theorem mul_multiplier_inj : word * multiplier = other * multiplier ↔ word = other := by
  refine ⟨fun same => ?_, congrArg (· * multiplier)⟩
  calc
    word = word * multiplier * inverse := by
      rw [UInt64.mul_assoc, multiplier_mul_inverse, UInt64.mul_one]
    _ = other * multiplier * inverse := by rw [same]
    _ = other := by rw [UInt64.mul_assoc, multiplier_mul_inverse, UInt64.mul_one]

theorem mul_multiplier_pow_inj (n : Nat) :
    word * multiplier ^ n = other * multiplier ^ n ↔ word = other := by
  induction n with
  | zero => rw [UInt64.pow_zero, UInt64.mul_one, UInt64.mul_one]
  | succ n ih =>
    rw [UInt64.pow_succ, ← UInt64.mul_assoc, ← UInt64.mul_assoc, mul_multiplier_inj, ih]

/-! ## Taking in bytes -/

theorem absorb_left_inj {b : UInt8} : absorb word b = absorb other b ↔ word = other := by
  rw [absorb, absorb, mul_multiplier_inj, UInt64.xor_left_inj]

theorem absorb_right_inj {a b : UInt8} : absorb word a = absorb word b ↔ a = b := by
  rw [absorb, absorb, mul_multiplier_inj, UInt64.xor_right_inj, UInt8.toUInt64_inj]

/-- Words that differ go on to differ while the same bytes are taken in. -/
theorem foldl_absorb_inj (data : Bytes) :
    data.foldl absorb word = data.foldl absorb other ↔ word = other := by
  induction data generalizing word other with
  | nil => exact Iff.rfl
  | cons b data ih => rw [List.foldl_cons, List.foldl_cons, ih, absorb_left_inj]

theorem fnv1a_append (front back : Bytes) :
    fnv1a (front ++ back) = back.foldl absorb (fnv1a front) := List.foldl_append

/-- **What follows two contents changes nothing about their difference.** -/
theorem fnv1a_append_inj {a b : Bytes} (back : Bytes) :
    fnv1a (a ++ back) = fnv1a (b ++ back) ↔ fnv1a a = fnv1a b := by
  rw [fnv1a_append, fnv1a_append, foldl_absorb_inj]

/-- A change of one byte changes the value. -/
theorem fnv1a_change_inj (front back : Bytes) (x y : UInt8) :
    fnv1a (front ++ [x] ++ back) = fnv1a (front ++ [y] ++ back) ↔ x = y := by
  rw [fnv1a_append_inj, fnv1a_append_singleton, fnv1a_append_singleton, absorb_right_inj]

/-! ## The words of a tag -/

/-- The eight bytes of a tag behind so many words. -/
def wordAt (tag : Hash) (position : Nat) : Bytes := (tag.toBytes.drop (8 * position)).take 8

theorem take_drop_stretch {count position : Nat} (inside : position < count) (word : UInt64) :
    ((stretch count word).drop (8 * position)).take 8
      = Bytes.ofUInt64 (word * multiplier ^ position) := by
  induction position generalizing count word with
  | zero =>
    obtain ⟨more, rfl⟩ := Nat.exists_eq_add_one_of_ne_zero (Nat.ne_of_gt inside)
    rw [stretch, Nat.mul_zero, List.drop_zero, List.take_left' (Bytes.length_ofUInt64 word),
      UInt64.pow_zero, UInt64.mul_one]
  | succ position ih =>
    obtain ⟨more, rfl⟩ := Nat.exists_eq_add_one_of_ne_zero (Nat.ne_zero_of_lt inside)
    have behind : (Bytes.ofUInt64 word ++ stretch more (word * multiplier)).drop
        (8 * (position + 1)) = (stretch more (word * multiplier)).drop (8 * position) := by
      rw [Nat.mul_succ, Nat.add_comm, ← List.drop_drop,
        List.drop_left' (Bytes.length_ofUInt64 word)]
    rw [stretch, behind, ih (Nat.lt_of_succ_lt_succ inside), UInt64.pow_succ, UInt64.mul_assoc,
      UInt64.mul_comm multiplier]

theorem wordAt_tag (data : Bytes) (position : Fin 4) :
    wordAt (tag data) position = Bytes.ofUInt64 (fnv1a data * multiplier ^ position.val) :=
  take_drop_stretch position.isLt (fnv1a data)

/-- Each word of a tag says which one it is. -/
theorem wordAt_tag_inj {a b : Bytes} (position : Fin 4) :
    wordAt (tag a) position = wordAt (tag b) position ↔ fnv1a a = fnv1a b := by
  rw [wordAt_tag, wordAt_tag, Bytes.ofUInt64_inj, mul_multiplier_pow_inj]

theorem tag_inj {a b : Bytes} : tag a = tag b ↔ fnv1a a = fnv1a b := by
  constructor
  · intro same
    exact (wordAt_tag_inj 0).mp (by rw [same])
  · intro same
    rw [tag, FixedBytes.mk.injEq, same]
    rfl

/-- **A tag tells contents apart that differ in one byte**, whatever stands before it and
behind it; and it says no more than the value that it is stretched from, which each single
word of it says already. -/
theorem tag_tells_apart (front back a b : Bytes) (x y : UInt8) :
    (fnv1a (front ++ [x] ++ back) = fnv1a (front ++ [y] ++ back) ↔ x = y) ∧
    (tag (front ++ [x] ++ back) = tag (front ++ [y] ++ back) ↔ x = y) ∧
    (tag a = tag b ↔ fnv1a a = fnv1a b) ∧
    ∀ position : Fin 4,
      wordAt (tag a) position = wordAt (tag b) position ↔ fnv1a a = fnv1a b := by
  have change := fnv1a_change_inj front back x y
  exact ⟨change, tag_inj.trans change, tag_inj, wordAt_tag_inj⟩

end ContentTag

end HostBoundary
