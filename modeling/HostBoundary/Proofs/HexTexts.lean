import HostBoundary.Proofs.Encodings

/-!
# Which texts hexadecimal reads

Reading is lenient in the letter case and in one leading `0x`, and in nothing
else.  So a text is read as the bytes whose digits it shows, once the mark is
taken off and the case is forgotten, and every text that shows no digits of any
bytes is refused.

## Texts and bytes

The reader works on the UTF-8 bytes of the text and counts positions in bytes.
The mark and the case are notions of the text.  They agree with what the reader
does because the bytes of a character that is not ASCII are neither a part of
the mark nor letters (`encode_unmarked`, `encode_toLower`).

## Refusals

`Refused` lists the two ways in which a text is refused together with the error
that says so.  The count of bytes goes first: an odd one is all that is said,
whatever the bytes are.

## Main results

* `Hex.pairs_eq_ok_iff`, `Hex.pairs_eq_error_iff` — what pairs of bytes are read
  as.
* `Hex.decode_characterization` — what every text is read as, or refused for.
-/

namespace HostBoundary

open Utf8

namespace Hex

/-- The text behind one leading `0x`, if there is one. -/
def unmarked (text : String) : String :=
  if "0x".toList <+: text.toList then String.ofList (text.toList.drop 2) else text

/-- The digits in both letter cases, as bytes. -/
def letters : Bytes := "0123456789abcdefABCDEF".toList.map fun c => UInt8.ofNat c.toNat

/-- The errors that a text is refused with.  Positions count the bytes behind
the mark. -/
inductive Refused (text : String) : BoundaryError → Prop
  /-- An odd count of bytes. -/
  | oddLength (odd : (Utf8.encode (unmarked text)).length % 2 = 1) :
      Refused text (.hex "Odd number of digits")
  /-- An even count of bytes, the first of which that is no digit is `byte`. -/
  | badDigit (front : Bytes) (byte : UInt8) (back : Bytes)
      (even : (Utf8.encode (unmarked text)).length % 2 = 0)
      (whole : Utf8.encode (unmarked text) = front ++ byte :: back)
      (before : ∀ b ∈ front, b ∈ letters) (here : byte ∉ letters) :
      Refused text
        (.hex ("Invalid character " ++ quoted byte ++ " at position " ++ toString front.length))

/-! ## The mark -/

/-- The reader takes off the mark of the text. -/
theorem encode_unmarked (text : String) :
    Utf8.encode (unmarked text) = stripMark (Utf8.encode text) := by
  rw [unmarked]
  split
  · next marked =>
    obtain ⟨rest, split⟩ := marked
    have behind : ("0x".toList ++ rest).drop 2 = rest := rfl
    rw [← split, behind, encode_ofList, encode_eq_spell text, ← split, spell_append]
    rfl
  · next unmarked =>
    -- the bytes of the mark are characters of their own
    have noMark : ∀ rest, Utf8.encode text ≠ 48 :: 120 :: rest := by
      intro rest marked
      have spelled : spell text.toList = spell "0x".toList ++ rest := by
        rw [← encode_eq_spell, marked]
        rfl
      obtain ⟨back, split, -⟩ := eq_append_of_spell (by decide) spelled
      exact unmarked ⟨back, split.symm⟩
    rw [stripMark]
    exact noMark

theorem unmarked_encodeMarked (bytes : Bytes) : unmarked (encodeMarked bytes) = encode bytes := by
  have marked : "0x".toList <+: (encodeMarked bytes).toList := by
    rw [encodeMarked, String.toList_append]
    exact List.prefix_append _ _
  have behind : ("0x".toList ++ (encode bytes).toList).drop 2 = (encode bytes).toList := rfl
  rw [unmarked, if_pos marked, encodeMarked, String.toList_append, behind, String.ofList_toList]

/-! ## The letter case -/

/-- The lowercase of an ASCII letter. -/
def lowerByte (b : UInt8) : UInt8 := if 65 ≤ b && b ≤ 90 then b + 32 else b

theorem lowerByte_of_large {b : UInt8} (large : 128 ≤ b) : lowerByte b = b := by
  have above : ¬ b ≤ 90 := by
    rw [UInt8.le_iff_toNat_le] at large ⊢
    exact Nat.not_le_of_gt (Nat.lt_of_lt_of_le (by decide) large)
  rw [lowerByte, if_neg]
  simp [above]

/-- Lowercase is the same notion for characters and for their bytes. -/
theorem utf8EncodeChar_toLower (c : Char) :
    String.utf8EncodeChar c.toLower = (String.utf8EncodeChar c).map lowerByte := by
  by_cases ascii : c.toNat < 128
  · have each : ∀ n < 128, String.utf8EncodeChar (Char.ofNat n).toLower
        = (String.utf8EncodeChar (Char.ofNat n)).map lowerByte := by
      decide +kernel
    have here := each c.toNat ascii
    rwa [Char.ofNat_toNat] at here
  · have same : c.toLower = c := by
      unfold Char.toLower
      rw [dif_neg]
      intro upper
      have below : c.toNat ≤ 'Z'.toNat := UInt32.le_iff_toNat_le.mp upper.2
      exact ascii (Nat.lt_of_le_of_lt below (by decide))
    -- every byte of the character is 128 or more
    have large : ∀ b ∈ String.utf8EncodeChar c, lowerByte b = b := by
      intro b mem
      apply lowerByte_of_large
      apply UInt8.not_lt.mp
      intro small
      have alone := congrArg List.length (eq_singleton_of_mem mem small)
      rw [String.length_utf8EncodeChar, List.length_singleton, Char.utf8Size_eq_one_iff] at alone
      exact ascii (Nat.lt_of_le_of_lt (UInt32.le_iff_toNat_le.mp alone) (by decide))
    rw [same, List.map_congr_left large, List.map_id']

theorem encode_toLower (text : String) :
    Utf8.encode text.toLower = (Utf8.encode text).map lowerByte := by
  have lowered : text.toLower = text.map Char.toLower := rfl
  rw [encode_eq_spell, encode_eq_spell, lowered, String.toList_map]
  induction text.toList with
  | nil => rfl
  | cons c s ih =>
    rw [List.map_cons, spell_cons, spell_cons, List.map_append, ih, utf8EncodeChar_toLower]

/-- The written digits are lowercase. -/
theorem toLower_encode (bytes : Bytes) : (encode bytes).toLower = encode bytes := by
  have lower : ∀ n < (16 : UInt8), lowerByte (digit n) = digit n := by
    intro n small
    refine Bytes.forall_lt small ?_
    decide
  apply Utf8.encode_injective
  rw [encode_toLower, utf8_encode]
  induction bytes with
  | nil => rfl
  | cons b bytes ih =>
    rw [digits_cons, List.map_cons, List.map_cons, ih, lower _ (div_lt b), lower _ (mod_lt b)]

/-! ## Digits -/

/-- A byte stands for the number whose digit it is, in either case. -/
theorem value?_eq_some_iff {b n : UInt8} : value? b = some n ↔ n < 16 ∧ lowerByte b = digit n := by
  constructor
  · have each : ∀ k < 256, ∀ n ∈ value? (UInt8.ofNat k),
        n < 16 ∧ lowerByte (UInt8.ofNat k) = digit n := by
      decide +kernel
    have here := each b.toNat b.toNat_lt n
    rw [UInt8.ofNat_toNat] at here
    exact here
  · rintro ⟨small, same⟩
    have lowered : ∀ k < 256, value? (lowerByte (UInt8.ofNat k)) = value? (UInt8.ofNat k) := by
      decide +kernel
    have here := lowered b.toNat b.toNat_lt
    rw [UInt8.ofNat_toNat, same, value?_digit small] at here
    exact here.symm

theorem value?_eq_none_iff {b : UInt8} : value? b = none ↔ b ∉ letters := by
  have each : ∀ k < 256, value? (UInt8.ofNat k) = none ↔ UInt8.ofNat k ∉ letters := by
    decide +kernel
  have here := each b.toNat b.toNat_lt
  rwa [UInt8.ofNat_toNat] at here

theorem mem_letters_of_value? {b n : UInt8} (value : value? b = some n) : b ∈ letters := by
  by_contra outside
  rw [value?_eq_none_iff.mpr outside] at value
  cases value

/-- A byte is put together from its halves. -/
theorem join_halves {h l : UInt8} (high : h < 16) (low : l < 16) :
    (h * 16 + l) / 16 = h ∧ (h * 16 + l) % 16 = l := by
  rw [UInt8.lt_iff_toNat_lt] at high low
  constructor
  · apply UInt8.toNat_inj.mp
    simp at high low ⊢
    omega
  · apply UInt8.toNat_inj.mp
    simp at high low ⊢
    omega

/-- The first two digits are those of the first byte. -/
theorem map_lowerByte_eq_digits_iff {high low : UInt8} {rest bytes : Bytes} :
    (high :: low :: rest).map lowerByte = digits bytes ↔
      ∃ h l more, value? high = some h ∧ value? low = some l ∧
        rest.map lowerByte = digits more ∧ bytes = (h * 16 + l) :: more := by
  constructor
  · intro same
    cases bytes with
    | nil => cases same
    | cons b more =>
      rw [digits_cons, List.map_cons, List.map_cons] at same
      obtain ⟨sameHigh, same⟩ := List.cons.inj same
      obtain ⟨sameLow, same⟩ := List.cons.inj same
      refine ⟨b / 16, b % 16, more, value?_eq_some_iff.mpr ⟨div_lt b, sameHigh⟩,
        value?_eq_some_iff.mpr ⟨mod_lt b, sameLow⟩, same, ?_⟩
      rw [halves]
  · rintro ⟨h, l, more, high, low, same, rfl⟩
    obtain ⟨smallHigh, sameHigh⟩ := value?_eq_some_iff.mp high
    obtain ⟨smallLow, sameLow⟩ := value?_eq_some_iff.mp low
    obtain ⟨first, second⟩ := join_halves smallHigh smallLow
    rw [digits_cons, first, second, List.map_cons, List.map_cons, same, sameHigh, sameLow]

/-- **Pairs of bytes are read as the bytes whose digits they are**, in either case. -/
theorem pairs_eq_ok_iff {position : Nat} {s bytes : Bytes} :
    pairs position s = .ok bytes ↔ s.map lowerByte = digits bytes := by
  fun_induction pairs position s generalizing bytes with
  | case1 position high low rest outside =>
    rw [map_lowerByte_eq_digits_iff]
    refine iff_of_false nofun ?_
    rintro ⟨h, l, more, value, -⟩
    cases outside.symm.trans value
  | case2 position high low rest h outside =>
    rw [map_lowerByte_eq_digits_iff]
    refine iff_of_false nofun ?_
    rintro ⟨h, l, more, -, value, -⟩
    cases outside.symm.trans value
  | case3 position high low rest h l valueLow valueHigh more read ih =>
    rw [map_lowerByte_eq_digits_iff]
    constructor
    · rintro ⟨⟩
      exact ⟨h, l, more, valueHigh, valueLow, ih.mp read, rfl⟩
    · rintro ⟨h', l', more', otherHigh, otherLow, same, rfl⟩
      cases valueHigh.symm.trans otherHigh
      cases valueLow.symm.trans otherLow
      cases read.symm.trans (ih.mpr same)
      rfl
  | case4 position high low rest h l valueLow valueHigh refusal read ih =>
    rw [map_lowerByte_eq_digits_iff]
    refine iff_of_false nofun ?_
    rintro ⟨h', l', more', -, -, same, -⟩
    cases read.symm.trans (ih.mpr same)
  | case5 position lone =>
    refine iff_of_false nofun ?_
    intro same
    have even := congrArg List.length same
    rw [length_digits, List.map_singleton, List.length_singleton] at even
    omega
  | case6 position =>
    constructor
    · rintro ⟨⟩
      rfl
    · intro same
      cases bytes with
      | nil => rfl
      | cons b bytes => cases same

/-- What is read consists of digits. -/
theorem mem_letters_of_pairs {position : Nat} {s bytes : Bytes}
    (read : pairs position s = .ok bytes) : ∀ b ∈ s, b ∈ letters := by
  intro b mem
  have lowered : lowerByte b ∈ digits bytes := by
    rw [← pairs_eq_ok_iff.mp read]
    exact List.mem_map_of_mem mem
  obtain ⟨a, -, here⟩ := List.mem_flatMap.mp lowered
  rw [List.mem_cons, List.mem_singleton] at here
  rcases here with high | low
  · exact mem_letters_of_value? (value?_eq_some_iff.mpr ⟨div_lt a, high⟩)
  · exact mem_letters_of_value? (value?_eq_some_iff.mpr ⟨mod_lt a, low⟩)

/-! ## The byte that is named -/

/-- Pairs of bytes are refused for a byte that is no digit, behind digits only. -/
theorem split_of_pairs_eq_error {position : Nat} {s : Bytes} {refusal : Refusal}
    (even : s.length % 2 = 0) (refused : pairs position s = .error refusal) :
    ∃ front byte back, s = front ++ byte :: back ∧ (∀ b ∈ front, b ∈ letters) ∧
      byte ∉ letters ∧ refusal = .badDigit byte (position + front.length) := by
  fun_induction pairs position s with
  | case1 position high low rest outside =>
    cases refused
    exact ⟨[], high, low :: rest, rfl, nofun, value?_eq_none_iff.mp outside, rfl⟩
  | case2 position high low rest h outside valueHigh =>
    cases refused
    refine ⟨[high], low, rest, rfl, ?_, value?_eq_none_iff.mp outside, rfl⟩
    simpa using mem_letters_of_value? valueHigh
  | case3 => cases refused
  | case4 position high low rest h l valueLow valueHigh refusal' read ih =>
    cases refused
    have evenRest : rest.length % 2 = 0 := by
      simp only [List.length_cons] at even
      omega
    obtain ⟨front, byte, back, rfl, before, here, rfl⟩ := ih evenRest read
    refine ⟨high :: low :: front, byte, back, rfl, ?_, here, ?_⟩
    · rw [List.forall_mem_cons, List.forall_mem_cons]
      exact ⟨mem_letters_of_value? valueHigh, mem_letters_of_value? valueLow, before⟩
    · simp only [List.length_cons]
      congr 1
      omega
  | case5 => cases even
  | case6 => cases refused

/-- There is one first byte that is no digit. -/
theorem first_outside_unique {f f' back back' : Bytes} {b b' : UInt8}
    (same : f ++ b :: back = f' ++ b' :: back') (before : ∀ a ∈ f, a ∈ letters) (here : b ∉ letters)
    (before' : ∀ a ∈ f', a ∈ letters) (here' : b' ∉ letters) : f = f' ∧ b = b' := by
  rcases List.append_eq_append_iff.mp same with ⟨more, rfl, split⟩ | ⟨more, rfl, split⟩
  · cases more with
    | nil => exact ⟨(List.append_nil f).symm, (List.cons.inj split).1⟩
    | cons c more =>
      rw [(List.cons.inj split).1] at here
      exact absurd (before' c (by simp)) here
  · cases more with
    | nil => exact ⟨List.append_nil f', (List.cons.inj split).1.symm⟩
    | cons c more =>
      rw [(List.cons.inj split).1] at here'
      exact absurd (before c (by simp)) here'

/-- **An even count of bytes is refused for the first one that is no digit**, and
the refusal names it and its position. -/
theorem pairs_eq_error_iff {position : Nat} {s : Bytes} {refusal : Refusal}
    (even : s.length % 2 = 0) :
    pairs position s = .error refusal ↔
      ∃ front byte back, s = front ++ byte :: back ∧ (∀ b ∈ front, b ∈ letters) ∧
        byte ∉ letters ∧ refusal = .badDigit byte (position + front.length) := by
  constructor
  · exact split_of_pairs_eq_error even
  · rintro ⟨front, byte, back, whole, before, here, rfl⟩
    cases read : pairs position s with
    | ok bytes =>
      -- what is read holds no such byte
      have inside : byte ∈ s := by simp [whole]
      exact absurd (mem_letters_of_pairs read byte inside) here
    | error refusal =>
      obtain ⟨front', byte', back', whole', before', here', rfl⟩ :=
        split_of_pairs_eq_error even read
      obtain ⟨rfl, rfl⟩ :=
        first_outside_unique (whole.symm.trans whole') before here before' here'
      rfl

/-! ## Texts -/

/-- A text of an odd count of bytes behind its mark is refused for that. -/
theorem decode_of_odd {text : String} (odd : (Utf8.encode (unmarked text)).length % 2 = 1) :
    decode (Utf8.encode text) = .error .oddLength := by
  rw [encode_unmarked] at odd
  exact if_pos odd

/-- A text of an even count of bytes behind its mark is read in pairs. -/
theorem decode_of_even {text : String} (even : (Utf8.encode (unmarked text)).length % 2 = 0) :
    decode (Utf8.encode text) = pairs 0 (Utf8.encode (unmarked text)) := by
  rw [encode_unmarked] at even ⊢
  have notOdd : ¬ (stripMark (Utf8.encode text)).length % 2 = 1 := by omega
  exact if_neg notOdd

/-- A text is read as the bytes whose digits it shows. -/
theorem decodeHex_eq_ok_iff {text : String} {bytes : Bytes} :
    decodeHex text = .ok bytes ↔ (unmarked text).toLower = encode bytes := by
  have shown : (unmarked text).toLower = encode bytes ↔
      (Utf8.encode (unmarked text)).map lowerByte = digits bytes := by
    rw [← encode_toLower, ← utf8_encode, Utf8.encode_inj]
  rw [shown, decodeHex, mapError_eq_ok_iff]
  rcases Nat.mod_two_eq_zero_or_one (Utf8.encode (unmarked text)).length with even | odd
  · rw [decode_of_even even, pairs_eq_ok_iff]
  · rw [decode_of_odd odd]
    constructor
    · rintro ⟨⟩
    · intro same
      have length := congrArg List.length same
      rw [List.length_map, length_digits] at length
      omega

/-- A text is refused with the errors that say why. -/
theorem decodeHex_eq_error_iff {text : String} {error : BoundaryError} :
    decodeHex text = .error error ↔ Refused text error := by
  rw [decodeHex, mapError_eq_error_iff]
  constructor
  · rintro ⟨refusal, refused, rfl⟩
    rcases Nat.mod_two_eq_zero_or_one (Utf8.encode (unmarked text)).length with even | odd
    · rw [decode_of_even even] at refused
      obtain ⟨front, byte, back, whole, before, here, rfl⟩ := (pairs_eq_error_iff even).mp refused
      rw [Nat.zero_add]
      exact .badDigit front byte back even whole before here
    · rw [decode_of_odd odd] at refused
      cases refused
      exact .oddLength odd
  · intro refused
    cases refused with
    | oddLength odd => exact ⟨.oddLength, decode_of_odd odd, rfl⟩
    | badDigit front byte back even whole before here =>
      refine ⟨.badDigit byte (0 + front.length), ?_, ?_⟩
      · rw [decode_of_even even]
        exact (pairs_eq_error_iff even).mpr ⟨front, byte, back, whole, before, here, rfl⟩
      · rw [Nat.zero_add]
        rfl

/-- What is written behind the mark is read back. -/
theorem decodeHex_encodeMarked (bytes : Bytes) : decodeHex (encodeMarked bytes) = .ok bytes := by
  rw [decodeHex_eq_ok_iff, unmarked_encodeMarked, toLower_encode]

/-- A text is read or refused, and not both. -/
theorem unread_iff_refused {text : String} :
    (∀ bytes, decodeHex text ≠ .ok bytes) ↔ ∃ error, Refused text error := by
  constructor
  · intro unread
    cases read : decodeHex text with
    | ok bytes => exact absurd read (unread bytes)
    | error error => exact ⟨error, decodeHex_eq_error_iff.mp read⟩
  · rintro ⟨error, refused⟩ bytes read
    cases (decodeHex_eq_error_iff.mpr refused).symm.trans read

/-- **What every text is read as, or refused for.**  A text is read as the bytes
whose digits it shows behind one leading `0x`, in either letter case.  What is
written is read back, with and without the mark, and what was read is written as
the lowercase of what the text showed.  A text that shows no bytes is refused: for
an odd count of bytes behind the mark, whatever they are, and else for the first
byte that is no digit, which is named together with its position.

The same holds of every codec that behaves as documented (`Codec.characterized`). -/
theorem decode_characterization (text : String) (bytes : Bytes) :
    (decodeHex text = .ok bytes ↔ (unmarked text).toLower = (encode bytes).toLower) ∧
    decodeHex (encode bytes) = .ok bytes ∧
    decodeHex (encodeMarked bytes) = .ok bytes ∧
    (decodeHex text = .ok bytes → encode bytes = (unmarked text).toLower) ∧
    ((∀ other, decodeHex text ≠ .ok other) ↔ ∃ error, Refused text error) ∧
    ∀ error, decodeHex text = .error error ↔ Refused text error := by
  refine ⟨?_, decodeHex_encode bytes, decodeHex_encodeMarked bytes, ?_, unread_iff_refused,
    fun error => decodeHex_eq_error_iff⟩
  · rw [toLower_encode]
    exact decodeHex_eq_ok_iff
  · exact fun read => (decodeHex_eq_ok_iff.mp read).symm

/-- Both cases behind one mark are read; a second mark is refused for its letter. -/
theorem decode_characterization_mixedCase :
    decodeHex "0xABcd" = .ok [0xab, 0xcd] ∧
    encode [0xab, 0xcd] = (unmarked "0xABcd").toLower ∧
    decodeHex "0x0xAB" = .error (.hex "Invalid character 'x' at position 1") := by
  have read : decodeHex "0xABcd" = .ok [0xab, 0xcd] := by decide +kernel
  have shown := (decode_characterization "0xABcd" [0xab, 0xcd]).2.2.2.1
  have second : Refused "0x0xAB" (.hex ("Invalid character " ++ quoted 120 ++ " at position "
      ++ toString [(48 : UInt8)].length)) :=
    .badDigit [48] 120 [65, 66] (by decide +kernel) (by decide +kernel) (by decide +kernel)
      (by decide +kernel)
  have refused := ((decode_characterization "0x0xAB" []).2.2.2.2.2 _).mpr second
  exact ⟨read, shown read, refused.trans (by decide +kernel)⟩

end Hex

end HostBoundary
