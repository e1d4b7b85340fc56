import Mathlib.Data.Nat.Digits.Defs
import HostBoundary.Proofs.Encodings

/-!
# Which amount a text stands for

An amount is read from the digits at the front of a text, and whatever stands behind them
is not looked at.  The reader takes the digits one by one into a number of 64 bits, which
wraps around as often as it has to.  What it arrives at is the number that all the digits
spell together, reduced once at the end.

The number that digits spell is said by their places (`decimalValue`): each digit counts
ten times as much as the one behind it.  The reader goes the other way, from the front, so
the two are joined by an induction in which the number that was read so far stands in
front of the digits that are left (`ofDigitChars_eq`).

## Main results

* `Scan.leadingAmount_exact` — the amount of any text, and that of a number with anything
  but a digit behind it.
-/

namespace HostBoundary

/-! ## Digits at the front -/

/-- A text, divided behind its longest run of leading digits. -/
structure LeadingDigits (text digits rest : List Char) : Prop where
  divides : text = digits ++ rest
  digits : ∀ c ∈ digits, c.isDigit = true
  ends : ∀ c ∈ rest.head?, c.isDigit = false

section

variable {text digits rest : List Char}

theorem leadingDigits_takeWhile (text : List Char) :
    LeadingDigits text (text.takeWhile Char.isDigit) (text.dropWhile Char.isDigit) where
  divides := List.takeWhile_append_dropWhile.symm
  digits := List.all_eq_true.mp List.all_takeWhile
  ends := by
    intro c first
    have ends := List.head?_dropWhile_not Char.isDigit text
    rw [Option.mem_def.mp first] at ends
    exact ends

/-- There is only one such division. -/
theorem LeadingDigits.eq_takeWhile (leading : LeadingDigits text digits rest) :
    digits = text.takeWhile Char.isDigit := by
  have none : rest.takeWhile Char.isDigit = [] := by
    cases rest with
    | nil => rfl
    | cons c rest => rw [List.takeWhile_cons_of_neg (by simp [leading.ends c rfl])]
  rw [leading.divides, List.takeWhile_append_of_pos leading.digits, none, List.append_nil]

end

/-! ## What digits spell -/

/-- The number that decimal digits spell, the highest place first. -/
def decimalValue (digits : List Char) : Nat :=
  Nat.ofDigits 10 (digits.map fun c => c.toNat - '0'.toNat).reverse

theorem decimalValue_cons (c : Char) (digits : List Char) :
    decimalValue (c :: digits)
      = decimalValue digits + 10 ^ digits.length * (c.toNat - '0'.toNat) := by
  rw [decimalValue, List.map_cons, Nat.ofDigits_reverse_cons, List.length_map, decimalValue]

/-- What was read so far stands in front of what is left. -/
theorem ofDigitChars_eq (digits : List Char) (before : Nat) :
    Nat.ofDigitChars 10 digits before = before * 10 ^ digits.length + decimalValue digits := by
  induction digits generalizing before with
  | nil =>
    rw [List.length_nil, Nat.pow_zero, Nat.mul_one]
    rfl
  | cons c digits ih =>
    rw [Nat.ofDigitChars_cons, ih, decimalValue_cons, List.length_cons, Nat.pow_succ]
    ring

theorem decimalValue_toDigits (n : Nat) : decimalValue (Nat.toDigits 10 n) = n := by
  have read : Nat.ofDigitChars 10 (Nat.toDigits 10 n) 0 = n := Nat.ofDigitChars_ten_toDigits
  rwa [ofDigitChars_eq, Nat.zero_mul, Nat.zero_add] at read

namespace Scan

theorem toNat_leadingAmount (text : String) :
    (leadingAmount text).toNat = decimalValue (text.toList.takeWhile Char.isDigit) % 2 ^ 64 := by
  rw [leadingAmount, Utf8.encode_eq_spell, leadingNumber_spell, UInt64.toNat_ofNat',
    ofDigitChars_eq, Nat.zero_mul, Nat.zero_add]

/-- A number in decimal stands at the front of a text with its own digits. -/
theorem leadingDigits_decimal (n : UInt64) {rest : String}
    (ends : ∀ c ∈ rest.toList.head?, c.isDigit = false) :
    LeadingDigits (decimal n ++ rest).toList (Nat.toDigits 10 n.toNat) rest.toList where
  divides := by
    rw [String.toList_append, decimal, Nat.repr_eq_ofList_toDigits, String.toList_ofList]
  digits := fun _ mem => Nat.isDigit_of_mem_toDigits (by decide) (by decide) mem
  ends := ends

/-- **The amount of a text is the number that its leading digits spell**, reduced to 64
bits: nothing where there are none, and with any zeros in front.  So each number of 64 bits
is read back from its decimal text, whatever stands behind that but another digit. -/
theorem leadingAmount_exact (text : String) :
    (∃ digits rest, LeadingDigits text.toList digits rest) ∧
    (∀ digits rest, LeadingDigits text.toList digits rest →
      (leadingAmount text).toNat = decimalValue digits % 2 ^ 64) ∧
    leadingAmount ("0" ++ text) = leadingAmount text ∧
    ∀ (n : UInt64) (rest : String), text = decimal n ++ rest →
      (∀ c ∈ rest.toList.head?, c.isDigit = false) → leadingAmount text = n := by
  have value (digits rest : List Char) (leading : LeadingDigits text.toList digits rest) :
      (leadingAmount text).toNat = decimalValue digits % 2 ^ 64 := by
    rw [toNat_leadingAmount, leading.eq_takeWhile]
  refine ⟨⟨_, _, leadingDigits_takeWhile _⟩, value, ?_, ?_⟩
  · have zero : (("0" ++ text).toList).takeWhile Char.isDigit
        = '0' :: text.toList.takeWhile Char.isDigit := by
      rw [String.toList_append]
      rfl
    rw [← UInt64.toNat_inj, toNat_leadingAmount, toNat_leadingAmount, zero, decimalValue_cons,
      Nat.sub_self, Nat.mul_zero, Nat.add_zero]
  · rintro n rest rfl ends
    rw [← UInt64.toNat_inj, value _ _ (leadingDigits_decimal n ends), decimalValue_toDigits]
    exact Nat.mod_eq_of_lt n.toNat_lt

/-- The largest number with a unit behind it, and a number of 22 digits that begins with
zeros and wraps around. -/
theorem leadingAmount_exact_wrapping :
    leadingAmount "18446744073709551615 wei" = 18446744073709551615 ∧
    leadingAmount "0018446744073709551618" = 2 := by
  constructor
  · have text : "18446744073709551615 wei" = decimal 18446744073709551615 ++ " wei" := by
      decide +kernel
    refine (leadingAmount_exact _).2.2.2 18446744073709551615 " wei" text fun c first => ?_
    obtain rfl : ' ' = c := Option.some.inj first
    rfl
  · have digits : "0018446744073709551618".toList.all Char.isDigit = true := by decide +kernel
    have leading : LeadingDigits "0018446744073709551618".toList
        "0018446744073709551618".toList [] :=
      ⟨(List.append_nil _).symm, List.all_eq_true.mp digits, nofun⟩
    rw [← UInt64.toNat_inj, (leadingAmount_exact _).2.1 _ _ leading]
    decide

end Scan

end HostBoundary
