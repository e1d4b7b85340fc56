import Mathlib.Algebra.Group.Nat.Defs
import Mathlib.Data.List.TakeWhile
import HostBoundary.Identity
import HostBoundary.Json.Scan
import HostBoundary.Proofs.Spelling
import HostBoundary.Text.Decimal

/-!
# Values written as texts

Bytes travel inside JSON strings as hexadecimal or as base64, amounts as
decimal.  This module says which texts those are, and that each is read back as
the value that it was written for.

## The letters stand for the bits

Hexadecimal and base64 are one idea: cut the bits of the bytes into groups, and
write a letter for each group.  `Hex.Spells` and `Base64.Spells` say so, about
the bits and a printed alphabet, and without a word about how the codecs compute
their letters.  Only base64 has to fill up: with zero bits to a whole group, and
with `=` to a whole number of bytes.

## Reading is stated for what is read

A reader is lenient, so it accepts more texts than the writer produces.  The
lemmas about reading (`Base64.decode_of_symbols`, `Scan.leadingNumber_spell`)
are therefore stated for what the reader looks at, and the round trips are
their instances.
-/

namespace HostBoundary

open Utf8

/-! ## Bits -/

/-- The `width` lowest bits of a number, the highest one first. -/
def bits : (width : Nat) → (n : Nat) → List Bool
  | 0, _ => []
  | width + 1, n => n.testBit width :: bits width n

/-- The bits of the bytes, in the order of the bytes. -/
def Bytes.bits (bytes : Bytes) : List Bool := bytes.flatMap fun b => HostBoundary.bits 8 b.toNat

theorem bits_congr {width n m : Nat} (same : ∀ i < width, n.testBit i = m.testBit i) :
    bits width n = bits width m := by
  induction width with
  | zero => rfl
  | succ width ih =>
    rw [bits, bits, same width (Nat.lt_succ_self width),
      ih fun i below => same i (Nat.lt_succ_of_lt below)]

/-- The bits of a number are those of its high part and those of its low part. -/
theorem bits_add (high low n : Nat) :
    bits (high + low) n = bits high (n / 2 ^ low) ++ bits low (n % 2 ^ low) := by
  induction high with
  | zero =>
    rw [Nat.zero_add]
    apply bits_congr
    intro i below
    rw [Nat.testBit_mod_two_pow, decide_eq_true below, Bool.true_and]
  | succ high ih =>
    rw [Nat.succ_add, bits, bits, ih, Nat.testBit_div_two_pow]
    rfl

/-- A number that is put together has the bits of its two parts. -/
theorem bits_mul_add (high x : Nat) {low y : Nat} (small : y < 2 ^ low) :
    bits (high + low) (x * 2 ^ low + y) = bits high x ++ bits low y := by
  rw [bits_add, Nat.mul_comm, Nat.mul_add_div (Nat.two_pow_pos low), Nat.div_eq_of_lt small,
    Nat.add_zero, Nat.mul_add_mod, Nat.mod_eq_of_lt small]

/-- What holds of the numbers below a bound holds of the bytes below it. -/
@[elab_as_elim]
theorem Bytes.forall_lt {P : UInt8 → Prop} {b bound : UInt8} (small : b < bound)
    (each : ∀ n < bound.toNat, P (UInt8.ofNat n)) : P b := by
  have here := each b.toNat (UInt8.lt_iff_toNat_lt.mp small)
  rwa [UInt8.ofNat_toNat] at here

/-- Letters that stand for numbers are letters of the alphabet. -/
theorem mem_of_letters {alphabet letters : List Char} {numbers : List Nat}
    (spelled : letters.map some = numbers.map (alphabet[·]?)) {c : Char} (mem : c ∈ letters) :
    c ∈ alphabet := by
  have written : some c ∈ numbers.map (alphabet[·]?) := by
    rw [← spelled]
    exact List.mem_map_of_mem mem
  obtain ⟨n, -, here⟩ := List.mem_map.mp written
  exact List.mem_of_getElem? here

/-! ## What a reader says -/

section

variable {ε ε' α : Type} {f : ε → ε'} {result : Except ε α}

theorem mapError_eq_ok_iff {a : α} : result.mapError f = .ok a ↔ result = .ok a := by
  cases result with
  | ok b =>
    constructor
    · rintro ⟨⟩
      rfl
    · rintro ⟨⟩
      rfl
  | error e => constructor <;> rintro ⟨⟩

theorem mapError_eq_error_iff {e' : ε'} :
    result.mapError f = .error e' ↔ ∃ e, result = .error e ∧ f e = e' := by
  cases result with
  | ok b =>
    constructor
    · rintro ⟨⟩
    · rintro ⟨e, same, -⟩
      cases same
  | error e =>
    constructor
    · rintro ⟨⟩
      exact ⟨e, rfl, rfl⟩
    · rintro ⟨e, ⟨⟩, rfl⟩
      rfl

end

/-! ## Hexadecimal -/

namespace Hex

/-- The sixteen digits, in the order of the numbers that they stand for. -/
def alphabet : List Char := "0123456789abcdef".toList

/-- A text of lowercase digits, whose bits are those of the bytes. -/
def Spells (bytes : Bytes) (text : String) : Prop :=
  ∃ numbers : List Nat,
    text.toList.map some = numbers.map (alphabet[·]?) ∧
    numbers.flatMap (HostBoundary.bits 4) = bytes.bits

theorem alphabet_digit {n : UInt8} (small : n < 16) :
    alphabet[n.toNat]? = some (Char.ofUInt8 (digit n)) := by
  refine Bytes.forall_lt small ?_
  decide

theorem value?_digit {n : UInt8} (small : n < 16) : value? (digit n) = some n := by
  refine Bytes.forall_lt small ?_
  decide

theorem digit_lt {n : UInt8} (small : n < 16) : digit n < 128 := by
  refine Bytes.forall_lt small ?_
  decide

theorem div_lt (b : UInt8) : b / 16 < 16 := by
  rw [UInt8.lt_iff_toNat_lt]
  have := b.toNat_lt
  simp
  omega

theorem mod_lt (b : UInt8) : b % 16 < 16 := by
  rw [UInt8.lt_iff_toNat_lt]
  simp
  omega

theorem halves (b : UInt8) : b / 16 * 16 + b % 16 = b := by
  apply UInt8.toNat_inj.mp
  have := b.toNat_lt
  simp
  omega

theorem digits_cons (b : UInt8) (bytes : Bytes) :
    digits (b :: bytes) = digit (b / 16) :: digit (b % 16) :: digits bytes := rfl

/-- **Hexadecimal writes the bits of the bytes in lowercase digits.** -/
theorem spells_encode (bytes : Bytes) : Spells bytes (encode bytes) := by
  refine ⟨bytes.flatMap fun b => [b.toNat / 16, b.toNat % 16], ?_, ?_⟩
  · rw [encode, Ascii.text, String.toList_ofList]
    induction bytes with
    | nil => rfl
    | cons b bytes ih =>
      have high := alphabet_digit (div_lt b)
      have low := alphabet_digit (mod_lt b)
      rw [UInt8.toNat_div] at high
      rw [UInt8.toNat_mod] at low
      rw [digits_cons, List.map_cons, List.map_cons, List.map_cons, List.map_cons, ih, ← high, ← low]
      rfl
  · rw [List.flatMap_assoc, Bytes.bits]
    congr 1
    funext b
    rw [List.flatMap_cons, List.flatMap_singleton]
    exact (bits_add 4 4 b.toNat).symm

/-- Only lowercase digits are written. -/
theorem mem_alphabet_of_mem_encode {bytes : Bytes} {c : Char} (mem : c ∈ (encode bytes).toList) :
    c ∈ alphabet := by
  obtain ⟨numbers, spelled, -⟩ := spells_encode bytes
  exact mem_of_letters spelled mem

theorem pairs_digits (position : Nat) (bytes : Bytes) :
    pairs position (digits bytes) = .ok bytes := by
  induction bytes generalizing position with
  | nil => rfl
  | cons b bytes ih =>
    rw [digits_cons, pairs, value?_digit (div_lt b), value?_digit (mod_lt b)]
    simp only [ih, halves]

/-- Digits never begin with the mark, since it holds a letter that is no digit. -/
theorem stripMark_digits (bytes : Bytes) : stripMark (digits bytes) = digits bytes := by
  cases bytes with
  | nil => rfl
  | cons b bytes =>
    have noMark : digit (b % 16) ≠ 120 := by
      intro mark
      have value := value?_digit (mod_lt b)
      rw [mark] at value
      cases value
    rw [digits_cons, stripMark]
    intro rest same
    exact noMark (List.cons.inj (List.cons.inj same).2).1

theorem length_digits (bytes : Bytes) : (digits bytes).length = 2 * bytes.length := by
  induction bytes with
  | nil => rfl
  | cons b bytes ih =>
    rw [digits_cons, List.length_cons, List.length_cons, ih, List.length_cons]
    omega

theorem decode_digits (bytes : Bytes) : decode (digits bytes) = .ok bytes := by
  have even : ¬ (digits bytes).length % 2 = 1 := by
    rw [length_digits]
    omega
  simp only [decode, stripMark_digits]
  rw [if_neg even, pairs_digits]

/-- The digits are ASCII, so their text and their bytes are the same. -/
theorem utf8_encode (bytes : Bytes) : Utf8.encode (encode bytes) = digits bytes := by
  apply Ascii.encode_text
  intro b mem
  obtain ⟨a, -, here⟩ := List.mem_flatMap.mp mem
  rw [List.mem_cons, List.mem_singleton] at here
  rcases here with rfl | rfl
  · exact digit_lt (div_lt a)
  · exact digit_lt (mod_lt a)

theorem length_encode (bytes : Bytes) :
    (Utf8.encode (encode bytes)).length = 2 * bytes.length := by
  rw [utf8_encode, length_digits]

end Hex

theorem FixedBytes.length_toHex {n : Nat} (id : FixedBytes n) :
    (Utf8.encode id.toHex).length = 2 * n := by
  rw [toHex, Hex.length_encode, id.length_toBytes]

/-- **A hexadecimal text is read back.** -/
theorem decodeHex_encode (bytes : Bytes) : decodeHex (Hex.encode bytes) = .ok bytes := by
  rw [decodeHex, Hex.utf8_encode, Hex.decode_digits]
  rfl

theorem Hex.encode_injective {a b : Bytes} (same : Hex.encode a = Hex.encode b) : a = b := by
  have read := decodeHex_encode a
  rw [same, decodeHex_encode] at read
  exact (Except.ok.inj read).symm

/-! ## Base64 -/

namespace Base64

/-- The alphabet, in the order of the numbers that its symbols stand for. -/
def alphabet : List Char :=
  "ABCDEFGHIJKLMNOPQRSTUVWXYZabcdefghijklmnopqrstuvwxyz0123456789+/".toList

/-- A text of symbols, whose bits are those of the bytes and then zeros, filled
up with `=` to a multiple of four. -/
def Spells (bytes : Bytes) (text : String) : Prop :=
  ∃ (numbers : List Nat) (letters : List Char) (fill : Nat),
    text.toList = letters ++ List.replicate fill '=' ∧
    letters.map some = numbers.map (alphabet[·]?) ∧
    numbers.flatMap (HostBoundary.bits 6) = bytes.bits ++ List.replicate (2 * fill) false ∧
    text.length % 4 = 0 ∧ fill < 3

/-- The numbers below 64 that the bytes are cut into. -/
def sextets : Bytes → List UInt8
  | [] => []
  | [a] => [a / 4, a % 4 * 16]
  | [a, b] => [a / 4, a % 4 * 16 + b / 16, b % 16 * 4]
  | a :: b :: c :: rest =>
    (a / 4) :: (a % 4 * 16 + b / 16) :: (b % 16 * 4 + c / 64) :: (c % 64) :: sextets rest

/-- How many `=` fill up the symbols of the bytes. -/
def fill (bytes : Bytes) : Nat := (3 - bytes.length % 3) % 3

theorem symbols_eq (bytes : Bytes) :
    symbols bytes = (sextets bytes).map symbol ++ List.replicate (fill bytes) pad := by
  fun_induction sextets bytes with
  | case1 => rfl
  | case2 => rfl
  | case3 => rfl
  | case4 a b c rest ih =>
    have same : fill (a :: b :: c :: rest) = fill rest := by
      simp only [fill, List.length_cons]
      omega
    rw [symbols, ih, same]
    rfl

/-- The numbers of a byte and its neighbours, as numbers without a bound. -/
theorem toNat_middle (a b : UInt8) :
    (a % 4 * 16 + b / 16).toNat = a.toNat % 4 * 2 ^ 4 + b.toNat / 16 := by
  have := b.toNat_lt
  simp
  omega

theorem toNat_last (b c : UInt8) :
    (b % 16 * 4 + c / 64).toNat = b.toNat % 16 * 2 ^ 2 + c.toNat / 64 := by
  have := c.toNat_lt
  simp
  omega

theorem join_sextets (bytes : Bytes) : join (sextets bytes) = bytes := by
  -- the parts of a byte that two neighbours hold make up the byte
  have first (a b : UInt8) : a / 4 * 4 + (a % 4 * 16 + b / 16) / 16 = a := by
    apply UInt8.toNat_inj.mp
    have := a.toNat_lt
    have := b.toNat_lt
    simp
    omega
  have second (a b c : UInt8) :
      (a % 4 * 16 + b / 16) % 16 * 16 + (b % 16 * 4 + c / 64) / 4 = b := by
    apply UInt8.toNat_inj.mp
    have := b.toNat_lt
    have := c.toNat_lt
    simp
    omega
  have third (b c : UInt8) : (b % 16 * 4 + c / 64) % 4 * 64 + c % 64 = c := by
    apply UInt8.toNat_inj.mp
    have := c.toNat_lt
    simp
    omega
  fun_induction sextets bytes with
  | case1 => rfl
  | case2 a =>
    have lone := first a 0
    rw [UInt8.zero_div, UInt8.add_zero] at lone
    rw [join, lone]
  | case3 a b =>
    have last := second a b 0
    rw [UInt8.zero_div, UInt8.add_zero] at last
    rw [join, first, last]
  | case4 a b c rest ih => rw [join, first, second, third, ih]

theorem sextets_lt (bytes : Bytes) : ∀ n ∈ sextets bytes, n < 64 := by
  have whole (a b c : UInt8) : a / 4 < 64 ∧ a % 4 * 16 + b / 16 < 64 ∧
      b % 16 * 4 + c / 64 < 64 ∧ c % 64 < 64 := by
    simp only [UInt8.lt_iff_toNat_lt, toNat_middle, toNat_last]
    have := a.toNat_lt
    have := b.toNat_lt
    have := c.toNat_lt
    simp
    omega
  fun_induction sextets bytes with
  | case1 => nofun
  | case2 a => simpa using whole a 0 0
  | case3 a b => simpa using whole a b 0
  | case4 a b c rest ih =>
    obtain ⟨first, second, third, last⟩ := whole a b c
    simpa only [List.forall_mem_cons] using ⟨first, second, third, last, ih⟩

/-- The numbers have the bits of the bytes, filled up to whole groups. -/
theorem bits_sextets (bytes : Bytes) :
    ((sextets bytes).map UInt8.toNat).flatMap (HostBoundary.bits 6)
      = bytes.bits ++ List.replicate (2 * fill bytes) false := by
  -- each byte is cut once, where a group ends
  have first (a : UInt8) : HostBoundary.bits 8 a.toNat
      = HostBoundary.bits 6 (a / 4).toNat ++ HostBoundary.bits 2 (a.toNat % 4) :=
    bits_add 6 2 a.toNat
  have second (b : UInt8) : HostBoundary.bits 8 b.toNat
      = HostBoundary.bits 4 (b.toNat / 16) ++ HostBoundary.bits 4 (b.toNat % 16) :=
    bits_add 4 4 b.toNat
  have third (c : UInt8) : HostBoundary.bits 8 c.toNat
      = HostBoundary.bits 2 (c.toNat / 64) ++ HostBoundary.bits 6 (c % 64).toNat :=
    bits_add 2 6 c.toNat
  have middle (a b : UInt8) : HostBoundary.bits 6 (a % 4 * 16 + b / 16).toNat
      = HostBoundary.bits 2 (a.toNat % 4) ++ HostBoundary.bits 4 (b.toNat / 16) := by
    have := b.toNat_lt
    rw [toNat_middle, ← bits_mul_add 2 _ (by omega)]
  have last (b c : UInt8) : HostBoundary.bits 6 (b % 16 * 4 + c / 64).toNat
      = HostBoundary.bits 4 (b.toNat % 16) ++ HostBoundary.bits 2 (c.toNat / 64) := by
    have := c.toNat_lt
    rw [toNat_last, ← bits_mul_add 4 _ (by omega)]
  fun_induction sextets bytes with
  | case1 => rfl
  | case2 a =>
    have lone := middle a 0
    rw [UInt8.zero_div, UInt8.add_zero] at lone
    simp only [List.map_cons, List.map_nil, List.flatMap_cons, List.flatMap_nil, Bytes.bits,
      first, lone, List.append_assoc]
    rfl
  | case3 a b =>
    have lone := last b 0
    rw [UInt8.zero_div, UInt8.add_zero] at lone
    simp only [List.map_cons, List.map_nil, List.flatMap_cons, List.flatMap_nil, Bytes.bits,
      first a, second b, middle, lone, List.append_assoc]
    rfl
  | case4 a b c rest ih =>
    have same : fill (a :: b :: c :: rest) = fill rest := by
      simp only [fill, List.length_cons]
      omega
    rw [Bytes.bits] at ih
    simp only [List.map_cons, List.flatMap_cons, Bytes.bits, first a, second b, third c, middle,
      last, ih, same, List.append_assoc]

theorem alphabet_symbol {n : UInt8} (small : n < 64) :
    alphabet[n.toNat]? = some (Char.ofUInt8 (symbol n)) := by
  refine Bytes.forall_lt small ?_
  decide

theorem value?_symbol {n : UInt8} (small : n < 64) : value? (symbol n) = some n := by
  refine Bytes.forall_lt small ?_
  decide

theorem symbol_lt {n : UInt8} (small : n < 64) : symbol n < 128 := by
  refine Bytes.forall_lt small ?_
  decide

/-- A symbol is never the padding, which stands for no number. -/
theorem symbol_ne_pad {n : UInt8} (small : n < 64) : symbol n ≠ pad := by
  intro same
  have value := value?_symbol small
  rw [same] at value
  cases value

theorem length_sextets_add_fill (bytes : Bytes) :
    ((sextets bytes).length + fill bytes) % 4 = 0 := by
  fun_induction sextets bytes with
  | case1 => rfl
  | case2 a => simp [fill]
  | case3 a b => simp [fill]
  | case4 a b c rest ih =>
    simp only [fill, List.length_cons] at ih ⊢
    omega

/-- **Base64 writes the bits of the bytes in the standard alphabet.** -/
theorem spells_encode (bytes : Bytes) : Spells bytes (encode bytes) := by
  have small := sextets_lt bytes
  refine ⟨(sextets bytes).map UInt8.toNat, (sextets bytes).map fun n => Char.ofUInt8 (symbol n),
    fill bytes, ?_, ?_, bits_sextets bytes, ?_, Nat.mod_lt _ (by decide)⟩
  · rw [encode, Ascii.text, String.toList_ofList, symbols_eq, List.map_append, List.map_map,
      List.map_replicate]
    rfl
  · rw [List.map_map, List.map_map]
    apply List.map_congr_left
    intro n mem
    exact (alphabet_symbol (small n mem)).symm
  · rw [encode, Ascii.text, String.length_ofList, List.length_map, symbols_eq, List.length_append,
      List.length_map, List.length_replicate]
    exact length_sextets_add_fill bytes

/-- Only symbols and the padding are written. -/
theorem mem_alphabet_of_mem_encode {bytes : Bytes} {c : Char} (mem : c ∈ (encode bytes).toList) :
    c ∈ alphabet ∨ c = '=' := by
  obtain ⟨numbers, letters, fill, written, spelled, -⟩ := spells_encode bytes
  rw [written, List.mem_append] at mem
  rcases mem with letter | padding
  · exact .inl (mem_of_letters spelled letter)
  · exact .inr (List.eq_of_mem_replicate padding)

/-! ### Reading -/

theorem map_fst_kept (text : Bytes) : (kept text).map Prod.fst = text.filter (· != pad) := by
  have whole : (text.zipIdx.map Prod.fst).filter (· != pad) = text.filter (· != pad) := by
    rw [List.zipIdx_map_fst]
  rw [List.filter_map] at whole
  exact whole

theorem filterMap_symbol {numbers : List UInt8} (small : ∀ n ∈ numbers, n < 64) :
    (numbers.map symbol).filterMap value? = numbers := by
  induction numbers with
  | nil => rfl
  | cons n numbers ih =>
    rw [List.forall_mem_cons] at small
    rw [List.map_cons, List.filterMap_cons_some (value?_symbol small.1), ih small.2]

/-- **What is left of a text without its padding decides what it is read as.** -/
theorem decode_of_symbols {text : Bytes} {numbers : List UInt8} (small : ∀ n ∈ numbers, n < 64)
    (written : text.filter (· != pad) = numbers.map symbol) (whole : numbers.length % 4 ≠ 1) :
    decode text = .ok (join numbers) := by
  have remaining := map_fst_kept text
  rw [written] at remaining
  have length : (kept text).length = numbers.length := by
    rw [← List.length_map (f := Prod.fst), remaining, List.length_map]
  have value : ∀ entry ∈ kept text, ∃ n ∈ numbers, value? entry.1 = some n := by
    intro entry mem
    have symbol : entry.1 ∈ numbers.map symbol := by
      rw [← remaining]
      exact List.mem_map_of_mem mem
    obtain ⟨n, here, same⟩ := List.mem_map.mp symbol
    exact ⟨n, here, same ▸ value?_symbol (small n here)⟩
  have blameless : blame? (kept text) = none := by
    have inside : (kept text).find? (fun entry => !isSymbol entry.1) = none := by
      rw [List.find?_eq_none]
      intro entry mem
      obtain ⟨n, -, same⟩ := value entry mem
      simp [isSymbol, same]
    simp only [blame?, length, if_neg whole, inside]
  have numbered : (kept text).filterMap (fun entry => value? entry.1) = numbers := by
    have values := filterMap_symbol small
    rw [← remaining, List.filterMap_map] at values
    exact values
  rw [decode, blameless, numbered]

/-- Without the padding the symbols of the numbers are left. -/
theorem filter_symbols (bytes : Bytes) :
    (symbols bytes).filter (· != pad) = (sextets bytes).map symbol := by
  have symbols : ∀ b ∈ (sextets bytes).map symbol, (b != pad) = true := by
    intro b mem
    obtain ⟨n, here, rfl⟩ := List.mem_map.mp mem
    rw [bne_iff_ne]
    exact symbol_ne_pad (sextets_lt bytes n here)
  rw [symbols_eq, List.filter_append, List.filter_eq_self.mpr symbols, List.filter_replicate]
  exact List.append_nil _

/-- No text of symbols ends in the first symbol of a group. -/
theorem length_sextets_mod (bytes : Bytes) : (sextets bytes).length % 4 ≠ 1 := by
  have filled := length_sextets_add_fill bytes
  have few : fill bytes < 3 := Nat.mod_lt _ (by decide)
  omega

theorem decode_symbols (bytes : Bytes) : decode (symbols bytes) = .ok bytes := by
  rw [decode_of_symbols (sextets_lt bytes) (filter_symbols bytes) (length_sextets_mod bytes),
    join_sextets]

/-- The symbols are ASCII, so their text and their bytes are the same. -/
theorem utf8_encode (bytes : Bytes) : Utf8.encode (encode bytes) = symbols bytes := by
  apply Ascii.encode_text
  intro b mem
  rw [symbols_eq, List.mem_append] at mem
  rcases mem with letter | padding
  · obtain ⟨n, here, rfl⟩ := List.mem_map.mp letter
    exact symbol_lt (sextets_lt bytes n here)
  · rw [List.eq_of_mem_replicate padding]
    decide

end Base64

/-- **A base64 text is read back.** -/
theorem decodeBase64_encode (bytes : Bytes) : decodeBase64 (Base64.encode bytes) = .ok bytes := by
  rw [decodeBase64, Base64.utf8_encode, Base64.decode_symbols]
  rfl

theorem Base64.encode_injective {a b : Bytes} (same : Base64.encode a = Base64.encode b) :
    a = b := by
  have read := decodeBase64_encode a
  rw [same, decodeBase64_encode] at read
  exact (Except.ok.inj read).symm

/-! ## Decimal -/

/-- A digit is one byte, and that byte is its number above that of zero. -/
theorem utf8EncodeChar_digit {c : Char} (digit : c.isDigit = true) :
    ∃ k < 10, c.toNat = 48 + k ∧ String.utf8EncodeChar c = [UInt8.ofNat (48 + k)] := by
  have each : ∀ k < 10, String.utf8EncodeChar (Char.ofNat (48 + k)) = [UInt8.ofNat (48 + k)] := by
    decide
  rw [Char.isDigit, Bool.and_eq_true, decide_eq_true_eq, decide_eq_true_eq] at digit
  obtain ⟨low, high⟩ := digit
  have above : 48 ≤ c.toNat := UInt32.le_iff_toNat_le.mp low
  have below : c.toNat ≤ 57 := UInt32.le_iff_toNat_le.mp high
  refine ⟨c.toNat - 48, by omega, by omega, ?_⟩
  have spelled := each (c.toNat - 48) (by omega)
  rw [Nat.add_sub_cancel' above] at spelled ⊢
  rwa [Char.ofNat_toNat] at spelled

/-- Only a digit has a byte that is one. -/
theorem isDigit_of_mem_utf8EncodeChar {c : Char} {b : UInt8}
    (mem : b ∈ String.utf8EncodeChar c) (digit : Bytes.isDigit b = true) : c.isDigit = true := by
  rw [Bytes.isDigit, Bool.and_eq_true, decide_eq_true_eq, decide_eq_true_eq] at digit
  obtain ⟨low, high⟩ := digit
  have above : 48 ≤ b.toNat := UInt8.le_iff_toNat_le.mp low
  have below : b.toNat ≤ 57 := UInt8.le_iff_toNat_le.mp high
  have each : ∀ k < 10, UInt8.ofNat (48 + k) < 128 ∧ (Char.ofNat (48 + k)).isDigit = true ∧
      String.utf8EncodeChar (Char.ofNat (48 + k)) = [UInt8.ofNat (48 + k)] := by decide
  obtain ⟨small, isDigit, spelled⟩ := each (b.toNat - 48) (by omega)
  rw [Nat.add_sub_cancel' above] at small isDigit spelled
  rw [UInt8.ofNat_toNat] at small spelled
  rw [eq_of_mem_utf8EncodeChar small spelled mem]
  exact isDigit

namespace Scan

/-- **The leading digits are read as the number that they spell**, in 64 bits. -/
theorem leadingNumber_spell (s : List Char) :
    leadingNumber (spell s) = UInt64.ofNat (Nat.ofDigitChars 10 (s.takeWhile Char.isDigit) 0) := by
  -- along the text, with the number that was read so far
  have step (s : List Char) : ∀ n : Nat,
      ((spell s).takeWhile Bytes.isDigit).foldl
          (fun n digit => n * 10 + (digit - 48).toUInt64) (UInt64.ofNat n)
        = UInt64.ofNat (Nat.ofDigitChars 10 (s.takeWhile Char.isDigit) n) := by
    induction s with
    | nil =>
      intro n
      rfl
    | cons c s ih =>
      intro n
      rw [spell_cons]
      by_cases digit : c.isDigit = true
      · obtain ⟨k, small, number, spelled⟩ := utf8EncodeChar_digit digit
        have byte : ∀ k < 10, Bytes.isDigit (UInt8.ofNat (48 + k)) = true ∧
            (UInt8.ofNat (48 + k) - 48).toUInt64 = UInt64.ofNat k := by decide
        obtain ⟨isDigit, value⟩ := byte k small
        have zero : '0'.toNat = 48 := rfl
        rw [spelled, List.singleton_append, List.takeWhile_cons_of_pos isDigit, List.foldl_cons,
          value, List.takeWhile_cons_of_pos digit, Nat.ofDigitChars_cons, number, zero,
          Nat.add_sub_cancel_left, ← ih, UInt64.ofNat_add, UInt64.ofNat_mul, UInt64.mul_comm]
        rfl
      · rw [List.takeWhile_cons_of_neg digit]
        cases bytes : String.utf8EncodeChar c with
        | nil => exact absurd bytes String.utf8EncodeChar_ne_nil
        | cons b more =>
          have noDigit : ¬ Bytes.isDigit b = true := fun isDigit =>
            digit (isDigit_of_mem_utf8EncodeChar (bytes ▸ List.mem_cons_self) isDigit)
          rw [List.cons_append, List.takeWhile_cons_of_neg noDigit]
          rfl
  exact step s 0

/-- **A decimal text is read back.** -/
theorem leadingAmount_decimal (n : UInt64) : leadingAmount (decimal n) = n := by
  have digits : (Nat.toDigits 10 n.toNat).takeWhile Char.isDigit = Nat.toDigits 10 n.toNat := by
    rw [List.takeWhile_eq_self_iff]
    intro c mem
    exact Nat.isDigit_of_mem_toDigits (by decide) (by decide) mem
  rw [leadingAmount, encode_eq_spell, leadingNumber_spell, decimal, Nat.repr_eq_ofList_toDigits,
    String.toList_ofList, digits, Nat.ofDigitChars_ten_toDigits, UInt64.ofNat_toNat]

end Scan

theorem decimal_injective {m n : UInt64} (same : decimal m = decimal n) : m = n := by
  rw [← Scan.leadingAmount_decimal m, same, Scan.leadingAmount_decimal]

end HostBoundary
