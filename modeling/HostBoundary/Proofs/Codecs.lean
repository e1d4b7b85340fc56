import HostBoundary.Proofs.Base64Refusals
import HostBoundary.Proofs.HexTexts

/-!
# Texts over a codec

Hexadecimal and base64 are commonly written and read by codecs that know nothing of marks,
of misplaced padding and of texts at all.  This module takes such a codec as it comes, with
nothing known about it but what is documented: what it writes, what it reads, and what it
complains of.  The reader of texts over it drops the padding, or takes off the mark, and
traces the complaint back to the text.

What is documented leaves no choice.  A text is determined by the bits that it spells
(`Hex.Spells.unique`, `Base64.Spells.unique`), so a codec writes as it is written here; and
the complaints come in an order that tells for each sequence which one is made.  So the
reader over any such codec is the reader here, and what holds of the latter holds of it.

## Main results

* `Base64.Codec.reads_back` — what is written is read back, whatever became of its padding.
* `Base64.Codec.language` — which texts are read, and what is written of what was read.
* `Hex.Codec.characterized` — what every text is read as, or refused for.
-/

namespace HostBoundary

/-! ## Bits tell the numbers -/

theorem length_bits (width n : Nat) : (bits width n).length = width := by
  induction width with
  | zero => rfl
  | succ width ih => rw [bits, List.length_cons, ih]

theorem testBit_of_bits_eq {width n m : Nat} (same : bits width n = bits width m) :
    ∀ i < width, n.testBit i = m.testBit i := by
  induction width with
  | zero => exact fun i below => absurd below (Nat.not_lt_zero i)
  | succ width ih =>
    obtain ⟨top, rest⟩ := List.cons.inj same
    intro i below
    rcases Nat.lt_succ_iff_lt_or_eq.mp below with lower | rfl
    · exact ih rest i lower
    · exact top

/-- A number is told by as many of its bits as it has. -/
theorem eq_of_bits_eq {width n m : Nat} (small : n < 2 ^ width) (small' : m < 2 ^ width)
    (same : bits width n = bits width m) : n = m := by
  apply Nat.eq_of_testBit_eq
  intro i
  by_cases below : i < width
  · exact testBit_of_bits_eq same i below
  · have above : 2 ^ width ≤ 2 ^ i := Nat.pow_le_pow_right (by decide) (by omega)
    rw [Nat.testBit_lt_two_pow (Nat.lt_of_lt_of_le small above),
      Nat.testBit_lt_two_pow (Nat.lt_of_lt_of_le small' above)]

theorem length_flatMap_bits (width : Nat) (numbers : List Nat) :
    (numbers.flatMap (bits width)).length = width * numbers.length := by
  induction numbers with
  | nil => rfl
  | cons n numbers ih =>
    rw [List.flatMap_cons, List.length_append, ih, length_bits, List.length_cons, Nat.mul_succ,
      Nat.add_comm]

theorem Bytes.length_bits (bytes : Bytes) : bytes.bits.length = 8 * bytes.length := by
  have same : bytes.bits = (bytes.map UInt8.toNat).flatMap (HostBoundary.bits 8) := by
    rw [List.flatMap_map]
    rfl
  rw [same, length_flatMap_bits, List.length_map]

/-- Numbers of one width are told by their bits in a row. -/
theorem eq_of_flatMap_bits_eq {width : Nat} (pos : 0 < width) {a b : List Nat}
    (small : ∀ n ∈ a, n < 2 ^ width) (small' : ∀ n ∈ b, n < 2 ^ width)
    (same : a.flatMap (bits width) = b.flatMap (bits width)) : a = b := by
  have size : a.length = b.length := by
    have lengths := congrArg List.length same
    rw [length_flatMap_bits, length_flatMap_bits] at lengths
    exact Nat.eq_of_mul_eq_mul_left pos lengths
  induction a generalizing b with
  | nil => exact (List.length_eq_zero_iff.mp size.symm).symm
  | cons n a ih =>
    cases b with
    | nil => cases size
    | cons m b =>
      rw [List.forall_mem_cons] at small small'
      rw [List.flatMap_cons, List.flatMap_cons] at same
      obtain ⟨first, rest⟩ := List.append_inj same (by rw [length_bits, length_bits])
      rw [eq_of_bits_eq small.1 small'.1 first,
        ih small.2 small'.2 rest (Nat.succ.inj size)]

/-- Letters stand for numbers below the length of the alphabet. -/
theorem lt_of_letters {alphabet letters : List Char} {numbers : List Nat}
    (spelled : letters.map some = numbers.map (alphabet[·]?)) :
    ∀ n ∈ numbers, n < alphabet.length := by
  intro n mem
  have written : alphabet[n]? ∈ letters.map some := by
    rw [spelled]
    exact List.mem_map_of_mem mem
  obtain ⟨c, -, here⟩ := List.mem_map.mp written
  exact (List.getElem?_eq_some_iff.mp here.symm).1

/-- The same numbers stand for the same letters. -/
theorem eq_of_letters {alphabet letters letters' : List Char} {numbers : List Nat}
    (spelled : letters.map some = numbers.map (alphabet[·]?))
    (spelled' : letters'.map some = numbers.map (alphabet[·]?)) : letters = letters' :=
  (List.map_inj_right fun _ _ => Option.some.inj).mp (spelled.trans spelled'.symm)

/-! ## Hexadecimal -/

namespace Hex

variable {bytes : Bytes} {text other : String}

/-- **Bytes are spelled in one way only.** -/
theorem Spells.unique (spells : Spells bytes text) (spells' : Spells bytes other) :
    text = other := by
  obtain ⟨numbers, spelled, stands⟩ := spells
  obtain ⟨numbers', spelled', stands'⟩ := spells'
  have same := eq_of_flatMap_bits_eq (by decide) (lt_of_letters spelled) (lt_of_letters spelled')
    (stands.trans stands'.symm)
  subst same
  exact String.toList_inj.mp (eq_of_letters spelled spelled')

/-- What is documented of a codec, for sequences without a mark.  Both letter cases are
digits.  An odd length is complained of before any digit is looked at, and then the first
byte that is no digit, together with its index. -/
structure Documented (codec : Bytes → Except Refusal Bytes) : Prop where
  reads {shown : String} {bytes : Bytes} (spells : Spells bytes shown.toLower) :
    codec (Utf8.encode shown) = .ok bytes
  odd {s : Bytes} (odd : s.length % 2 = 1) : codec s = .error .oddLength
  invalid {front back : Bytes} {byte : UInt8} (even : (front ++ byte :: back).length % 2 = 0)
    (before : ∀ b ∈ front, b ∈ letters) (outside : byte ∉ letters) :
    codec (front ++ byte :: back) = .error (.badDigit byte front.length)

/-- A codec of hexadecimal. -/
structure Codec where
  write : Bytes → String
  read : Bytes → Except Refusal Bytes
  /-- It writes the bits of the bytes in lowercase digits. -/
  writes : ∀ bytes, Spells bytes (write bytes)
  reads : Documented read

namespace Codec

/-- The reader of texts over a codec, which takes off the mark. -/
def decode (codec : Codec) (text : String) : Except BoundaryError Bytes :=
  (codec.read (Utf8.encode (unmarked text))).mapError BoundaryError.ofHex

/-- The writer behind a mark over a codec. -/
def encodeMarked (codec : Codec) (bytes : Bytes) : String := "0x" ++ codec.write bytes

theorem write_eq (codec : Codec) : codec.write = encode := by
  funext bytes
  exact (codec.writes bytes).unique (spells_encode bytes)

/-- **The reader over a codec is the reader.** -/
theorem decode_eq (codec : Codec) : codec.decode = decodeHex := by
  funext text
  rw [decode]
  cases outcome : decodeHex text with
  | ok bytes =>
    have spells : Spells bytes (unmarked text).toLower := by
      rw [decodeHex_eq_ok_iff.mp outcome]
      exact spells_encode bytes
    rw [codec.reads.reads spells]
    rfl
  | error error =>
    cases decodeHex_eq_error_iff.mp outcome with
    | oddLength odd =>
      rw [codec.reads.odd odd]
      rfl
    | badDigit front byte back even whole before here =>
      rw [whole] at even ⊢
      rw [codec.reads.invalid even before here]
      rfl

/-- **What every text is read as, or refused for**, by any codec that behaves as
documented. -/
theorem characterized (codec : Codec) (text : String) (bytes : Bytes) :
    (codec.decode text = .ok bytes ↔ (unmarked text).toLower = (codec.write bytes).toLower) ∧
    codec.decode (codec.write bytes) = .ok bytes ∧
    codec.decode (codec.encodeMarked bytes) = .ok bytes ∧
    (codec.decode text = .ok bytes → codec.write bytes = (unmarked text).toLower) ∧
    ((∀ other, codec.decode text ≠ .ok other) ↔ ∃ error, Refused text error) ∧
    ∀ error, codec.decode text = .error error ↔ Refused text error := by
  simp only [decode_eq, encodeMarked, write_eq, toLower_encode]
  exact ⟨decodeHex_eq_ok_iff, decodeHex_encode bytes, decodeHex_encodeMarked bytes,
    fun read => (decodeHex_eq_ok_iff.mp read).symm, unread_iff_refused,
    fun error => decodeHex_eq_error_iff⟩

/-- There is such a codec. -/
def standard : Codec where
  write := encode
  read s := if s.length % 2 = 1 then .error .oddLength else pairs 0 s
  writes := spells_encode
  reads := {
    reads := by
      intro shown bytes spells
      have digits := congrArg Utf8.encode (spells.unique (spells_encode bytes))
      rw [encode_toLower, utf8_encode] at digits
      have even : ¬ (Utf8.encode shown).length % 2 = 1 := by
        have length := congrArg List.length digits
        rw [List.length_map, length_digits] at length
        omega
      rw [if_neg even]
      exact pairs_eq_ok_iff.mpr digits
    odd := fun odd => if_pos odd
    invalid := by
      intro front back byte even before outside
      rw [if_neg (by omega)]
      refine (pairs_eq_error_iff even).mpr ⟨front, byte, back, rfl, before, outside, ?_⟩
      rw [Nat.zero_add] }

end Codec

end Hex

/-! ## Base64 -/

namespace Base64

variable {bytes : Bytes} {text other : String}

/-- As many symbols and fillings are written as the bytes need. -/
theorem lengths_of_spelled {numbers : List Nat} {letters : List Char} {fill : Nat}
    (written : text.toList = letters ++ List.replicate fill '=')
    (spelled : letters.map some = numbers.map (alphabet[·]?))
    (stands : numbers.flatMap (HostBoundary.bits 6)
      = bytes.bits ++ List.replicate (2 * fill) false)
    (whole : text.length % 4 = 0) :
    6 * numbers.length = 8 * bytes.length + 2 * fill ∧ (numbers.length + fill) % 4 = 0 := by
  have bits := congrArg List.length stands
  rw [length_flatMap_bits, List.length_append, Bytes.length_bits, List.length_replicate] at bits
  have size := congrArg List.length spelled
  rw [List.length_map, List.length_map] at size
  rw [← String.length_toList, written, List.length_append, List.length_replicate, size] at whole
  exact ⟨bits, whole⟩

/-- **Bytes are spelled in one way only.** -/
theorem Spells.unique (spells : Spells bytes text) (spells' : Spells bytes other) :
    text = other := by
  obtain ⟨numbers, letters, fill, written, spelled, stands, whole, few⟩ := spells
  obtain ⟨numbers', letters', fill', written', spelled', stands', whole', few'⟩ := spells'
  -- the count of the fillings is told by that of the bytes
  have sameFill : fill = fill' := by
    obtain ⟨bits, groups⟩ := lengths_of_spelled written spelled stands whole
    obtain ⟨bits', groups'⟩ := lengths_of_spelled written' spelled' stands' whole'
    omega
  subst sameFill
  have same := eq_of_flatMap_bits_eq (by decide) (lt_of_letters spelled) (lt_of_letters spelled')
    (stands.trans stands'.symm)
  subst same
  apply String.toList_inj.mp
  rw [written, written', eq_of_letters spelled spelled']

/-- A codec of base64. -/
structure Codec where
  write : Bytes → String
  read : Bytes → Except Complaint Bytes
  /-- It writes the bits of the bytes in the standard alphabet. -/
  writes : ∀ bytes, Spells bytes (write bytes)
  reads : Documented read

namespace Codec

/-- The reader of texts over a codec, which drops the padding first. -/
def decode (codec : Codec) (text : String) : Except BoundaryError Bytes :=
  (decodeBy codec.read (Utf8.encode text)).mapError BoundaryError.ofBase64

/-- The bytes of a text, none for an unreadable text. -/
def decodeOrEmpty (codec : Codec) (text : String) : Bytes :=
  (codec.decode text).toOption.getD []

theorem write_eq (codec : Codec) : codec.write = encode := by
  funext bytes
  exact (codec.writes bytes).unique (spells_encode bytes)

/-- **The reader over a codec is the reader.** -/
theorem decode_eq (codec : Codec) : codec.decode = decodeBase64 := by
  funext text
  rw [decode, decodeBy_eq_decode codec.reads, decodeBase64]

/-- **What is written is read back, whatever became of its padding**, by any codec that
follows the standard. -/
theorem reads_back (codec : Codec) (bytes : Bytes) :
    (∀ text, stripped text = stripped (codec.write bytes) →
      codec.decode text = .ok bytes ∧ codec.decodeOrEmpty text = bytes) ∧
    (codec.write bytes).length = 4 * ((bytes.length + 2) / 3) ∧
    (∀ other, codec.write other = codec.write bytes → other = bytes) ∧
    codec.decode (codec.write bytes) = .ok bytes := by
  simp only [decodeOrEmpty, decode_eq, write_eq]
  refine ⟨fun text same => ?_, length_encode bytes, fun other same => encode_injective same,
    decodeBase64_encode bytes⟩
  have read : decodeBase64 text = .ok bytes := by
    rw [decodeBase64, decode_of_stripped same]
    rfl
  exact ⟨read, by rw [read]; rfl⟩

/-- **Exactly the whole sequences of letters are read**, and what was read is written with
the same letters, but for the spare bits of the last one, by any codec that follows the
standard. -/
theorem language (codec : Codec) (text : String) :
    ((∃ bytes, codec.decode text = .ok bytes) ↔
      (∀ b ∈ stripped text, b ∈ letters) ∧ (stripped text).length % 4 ≠ 1) ∧
    ∀ bytes, codec.decode text = .ok bytes →
      bytes.length = 3 * (stripped text).length / 4 ∧
      stripped (codec.write bytes) = canonical (stripped text) := by
  rw [decode_eq, write_eq]
  exact ⟨isOk_decodeBase64_iff, fun _ => rewritten_of_decodeBase64⟩

/-- There is such a codec. -/
def standard : Codec := ⟨encode, lenient, spells_encode, lenient_documented⟩

end Codec

end Base64

end HostBoundary
