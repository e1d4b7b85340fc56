import HostBoundary.Proofs.Encodings

/-!
# Which texts base64 reads

Reading is lenient in two ways: it drops every `=`, wherever it stands, and it
ignores the bits of the last symbol that fill no byte.  Writing is strict.  So
many texts are read as the same bytes, and exactly one of them is written.

## What is left of a text

All that counts of a text are its bytes other than `=` (`Base64.stripped`).  A
text is read when each of these is a letter of the alphabet and there is not
just one of them behind whole groups of four (`decodeBase64_eq_ok_iff`), and two
texts with the same bytes left are read alike.

## The form that is written

Bytes that were read are written with the same letters, except for the last one
of an incomplete group: its spare low bits are cleared (`Base64.canonical`).  The
clearing is stated in the printed alphabet, as the letter at the number that is
left, and not through the codec.

## Main results

* `Base64.decode_whatever_padding` — what is written is read back, whatever
  became of its padding.
* `Base64.decode_language` — which texts are read, and what is written of what was
  read.
-/

namespace HostBoundary

namespace Base64

/-- The bytes of a text other than the padding. -/
def stripped (text : String) : Bytes := (Utf8.encode text).filter (· != pad)

/-- The letters of the alphabet, as bytes. -/
def letters : Bytes := alphabet.map fun c => UInt8.ofNat c.toNat

/-! ## Letters and numbers -/

theorem letters_getElem? {n : UInt8} (small : n < 64) : letters[n.toNat]? = some (symbol n) := by
  refine Bytes.forall_lt small ?_
  decide

/-- A byte that stands for a number is the symbol of that number. -/
theorem symbol_of_value? {b n : UInt8} (value : value? b = some n) : n < 64 ∧ symbol n = b := by
  have each : ∀ k < 256, ∀ n ∈ value? (UInt8.ofNat k), n < 64 ∧ symbol n = UInt8.ofNat k := by
    decide +kernel
  have here := each b.toNat b.toNat_lt n
  rw [UInt8.ofNat_toNat] at here
  exact here value

/-- The symbols are the letters of the alphabet. -/
theorem isSymbol_iff_mem_letters {b : UInt8} : isSymbol b = true ↔ b ∈ letters := by
  constructor
  · intro isSymbol
    obtain ⟨n, value⟩ := Option.isSome_iff_exists.mp isSymbol
    obtain ⟨small, rfl⟩ := symbol_of_value? value
    exact List.mem_of_getElem? (letters_getElem? small)
  · have all : letters.all isSymbol = true := by decide
    exact List.all_eq_true.mp all b

/-! ## Padding -/

theorem stripped_encode (bytes : Bytes) :
    stripped (encode bytes) = (sextets bytes).map symbol := by
  rw [stripped, utf8_encode, filter_symbols]

theorem length_symbols (bytes : Bytes) :
    (symbols bytes).length = 4 * ((bytes.length + 2) / 3) := by
  fun_induction symbols bytes with
  | case1 => rfl
  | case2 a => simp
  | case3 a b => simp
  | case4 a b c rest ih =>
    simp only [List.length_cons, ih]
    omega

theorem length_encode (bytes : Bytes) : (encode bytes).length = 4 * ((bytes.length + 2) / 3) := by
  rw [encode, Ascii.text, String.length_ofList, List.length_map, length_symbols]

/-- A text with the letters of what is written is read as that. -/
theorem decode_of_stripped {text : String} {bytes : Bytes}
    (same : stripped text = stripped (encode bytes)) : decode (Utf8.encode text) = .ok bytes := by
  rw [stripped_encode] at same
  rw [decode_of_symbols (sextets_lt bytes) same (length_sextets_mod bytes), join_sextets]

/-- **What is written is read back, whatever became of its padding.**  The text
may have lost it, or hold more of it anywhere.  What is written has four letters
for each group of three bytes, the incomplete one included, and tells the bytes.

The same holds of every codec that follows the standard (`Codec.reads_back`). -/
theorem decode_whatever_padding (bytes : Bytes) :
    (∀ text, stripped text = stripped (encode bytes) →
      decodeBase64 text = .ok bytes ∧ decodeBase64OrEmpty text = bytes) ∧
    (encode bytes).length = 4 * ((bytes.length + 2) / 3) ∧
    (∀ other, encode other = encode bytes → other = bytes) ∧
    decodeBase64 (encode bytes) = .ok bytes := by
  refine ⟨fun text same => ?_, length_encode bytes, fun other same => encode_injective same,
    decodeBase64_encode bytes⟩
  have read := decode_of_stripped same
  constructor
  · rw [decodeBase64, read]
    rfl
  · rw [decodeBase64OrEmpty, decodeOrEmpty, read]

/-- Padding in front, in between and doubled, and none where it belongs. -/
theorem decode_whatever_padding_misplaced :
    stripped "=SGV=sbG8==" = stripped (encode (Utf8.encode "Hello")) ∧
    decodeBase64 "=SGV=sbG8==" = .ok (Utf8.encode "Hello") := by
  have same : stripped "=SGV=sbG8==" = stripped (encode (Utf8.encode "Hello")) := by decide
  exact ⟨same, ((decode_whatever_padding _).1 _ same).1⟩

/-! ## The language -/

/-- Nothing is blamed when all bytes are symbols and none of them is left alone. -/
theorem blame?_eq_none_iff {entries : List (UInt8 × Nat)} :
    blame? entries = none ↔
      (∀ entry ∈ entries, isSymbol entry.1 = true) ∧ entries.length % 4 ≠ 1 := by
  have outside : entries.find? (fun entry => !isSymbol entry.1) = none ↔
      ∀ entry ∈ entries, isSymbol entry.1 = true := by
    simp [List.find?_eq_none]
  rw [← outside, blame?]
  by_cases alone : entries.length % 4 = 1
  · have nonempty : entries ≠ [] := by
      rintro rfl
      cases alone
    simp only [if_pos alone, List.getLast?_eq_some_getLast nonempty]
    refine iff_of_false ?_ fun both => both.2 alone
    -- a lone symbol is blamed itself, if nothing else is
    split <;> simp
  · simp only [if_neg alone]
    exact (and_iff_left alone).symm

theorem filterMap_value?_lt (s : Bytes) : ∀ n ∈ s.filterMap value?, n < 64 := by
  intro n mem
  obtain ⟨b, -, value⟩ := List.mem_filterMap.mp mem
  exact (symbol_of_value? value).1

/-- Symbols are those of the numbers that they stand for. -/
theorem map_symbol_filterMap {s : Bytes} (symbols : ∀ b ∈ s, isSymbol b = true) :
    (s.filterMap value?).map symbol = s := by
  induction s with
  | nil => rfl
  | cons b s ih =>
    rw [List.forall_mem_cons] at symbols
    obtain ⟨n, value⟩ := Option.isSome_iff_exists.mp symbols.1
    rw [List.filterMap_cons_some value, List.map_cons, ih symbols.2, (symbol_of_value? value).2]

/-- **What is read of a text**: the bytes that the numbers of its letters make up,
if there is not just one letter behind whole groups. -/
theorem decodeBase64_eq_ok_iff {text : String} {bytes : Bytes} :
    decodeBase64 text = .ok bytes ↔
      ∃ numbers, (∀ n ∈ numbers, n < 64) ∧ stripped text = numbers.map symbol ∧
        numbers.length % 4 ≠ 1 ∧ join numbers = bytes := by
  have reads : decodeBase64 text = .ok bytes ↔ decode (Utf8.encode text) = .ok bytes := by
    rw [decodeBase64]
    cases decode (Utf8.encode text) <;> simp [Except.mapError]
  rw [reads]
  constructor
  · intro read
    have remaining := map_fst_kept (Utf8.encode text)
    rw [← stripped] at remaining
    rw [decode] at read
    split at read
    · cases read
    · next blameless =>
      obtain ⟨symbols, whole⟩ := blame?_eq_none_iff.mp blameless
      rw [← List.forall_mem_map (P := fun b => isSymbol b = true), remaining] at symbols
      rw [← List.length_map (f := Prod.fst), remaining] at whole
      have numbered : (kept (Utf8.encode text)).filterMap (fun entry => value? entry.1)
          = (stripped text).filterMap value? := by
        rw [← remaining, List.filterMap_map]
        rfl
      have letters := map_symbol_filterMap symbols
      refine ⟨(stripped text).filterMap value?, filterMap_value?_lt _, letters.symm, ?_, ?_⟩
      · rwa [← List.length_map (f := symbol), letters]
      · rw [← numbered]
        exact Except.ok.inj read
  · rintro ⟨numbers, small, written, whole, rfl⟩
    exact decode_of_symbols small written whole

/-- The bytes that whole numbers make up. -/
theorem length_join (numbers : List UInt8) : (join numbers).length = 3 * numbers.length / 4 := by
  fun_induction join numbers with
  | case1 a b c d rest ih =>
    simp only [List.length_cons, ih]
    omega
  | case2 | case3 | case4 | case5 => simp

/-! ## The form that is written -/

/-- The letter whose number has its lowest bits cleared. -/
def clearBits (spare : Nat) (letter : UInt8) : UInt8 :=
  letters.getD (letters.idxOf letter / 2 ^ spare * 2 ^ spare) letter

/-- The same letters, but for the lowest bits of the last one. -/
def clearLast (spare : Nat) (s : Bytes) : Bytes :=
  s.dropLast ++ (s.getLast?.map (clearBits spare)).toList

/-- The same letters, but for the bits of the last one that fill no byte. -/
def canonical (s : Bytes) : Bytes :=
  match s.length % 4 with
  | 2 => clearLast 4 s
  | 3 => clearLast 2 s
  | _ => s

theorem clearBits_symbol {n : UInt8} (small : n < 64) {spare : Nat} (few : spare ∈ [2, 4]) :
    clearBits spare (symbol n) = symbol (UInt8.ofNat (n.toNat / 2 ^ spare * 2 ^ spare)) := by
  have each : ∀ k < 64, ∀ spare ∈ [2, 4], clearBits spare (symbol (UInt8.ofNat k))
      = symbol (UInt8.ofNat (k / 2 ^ spare * 2 ^ spare)) := by
    decide +kernel
  have here := each n.toNat (UInt8.lt_iff_toNat_lt.mp small) spare few
  rwa [UInt8.ofNat_toNat] at here

theorem clearLast_append {front s : Bytes} (nonempty : s ≠ []) (spare : Nat) :
    clearLast spare (front ++ s) = front ++ clearLast spare s := by
  rw [clearLast, List.dropLast_append_of_ne_nil nonempty, List.getLast?_append,
    List.getLast?_eq_some_getLast nonempty, Option.some_or, List.append_assoc, clearLast,
    List.getLast?_eq_some_getLast nonempty]

/-- Whole groups in front are written as they are. -/
theorem canonical_append {front s : Bytes} (whole : front.length % 4 = 0) :
    canonical (front ++ s) = front ++ canonical s := by
  have same : (front ++ s).length % 4 = s.length % 4 := by
    rw [List.length_append]
    omega
  rw [canonical, canonical, same]
  split
  · next two => exact clearLast_append (by rintro rfl; cases two) 4
  · next three => exact clearLast_append (by rintro rfl; cases three) 2
  · rfl

section Numbers

/-! ### A number is put together from two neighbouring bytes -/

variable {a b c d : UInt8}

theorem first_number (ha : a < 64) (hb : b < 64) : (a * 4 + b / 16) / 4 = a := by
  rw [UInt8.lt_iff_toNat_lt] at ha hb
  apply UInt8.toNat_inj.mp
  simp at ha hb ⊢
  omega

theorem second_number (hb : b < 64) (hc : c < 64) :
    (a * 4 + b / 16) % 4 * 16 + (b % 16 * 16 + c / 4) / 16 = b := by
  rw [UInt8.lt_iff_toNat_lt] at hb hc
  apply UInt8.toNat_inj.mp
  simp at hb hc ⊢
  omega

theorem third_number (hc : c < 64) (hd : d < 64) :
    (b % 16 * 16 + c / 4) % 16 * 4 + (c % 4 * 64 + d) / 64 = c := by
  rw [UInt8.lt_iff_toNat_lt] at hc hd
  apply UInt8.toNat_inj.mp
  simp at hc hd ⊢
  omega

theorem fourth_number (hd : d < 64) : (c % 4 * 64 + d) % 64 = d := by
  rw [UInt8.lt_iff_toNat_lt] at hd
  apply UInt8.toNat_inj.mp
  simp at hd ⊢
  omega

/-- A last number is made up from one byte only. -/
theorem second_cleared (hb : b < 64) :
    (a * 4 + b / 16) % 4 * 16 = UInt8.ofNat (b.toNat / 2 ^ 4 * 2 ^ 4) := by
  rw [UInt8.lt_iff_toNat_lt] at hb
  apply UInt8.toNat_inj.mp
  simp at hb ⊢
  omega

theorem third_cleared (hc : c < 64) :
    (b % 16 * 16 + c / 4) % 16 * 4 = UInt8.ofNat (c.toNat / 2 ^ 2 * 2 ^ 2) := by
  rw [UInt8.lt_iff_toNat_lt] at hc
  apply UInt8.toNat_inj.mp
  simp at hc ⊢
  omega

end Numbers

/-- **What is written of the bytes that numbers make up**: their letters, but for
the spare bits of the last one. -/
theorem sextets_join {numbers : List UInt8} (small : ∀ n ∈ numbers, n < 64)
    (whole : numbers.length % 4 ≠ 1) :
    (sextets (join numbers)).map symbol = canonical (numbers.map symbol) := by
  fun_induction join numbers with
  | case1 a b c d rest ih =>
    simp only [List.forall_mem_cons] at small
    obtain ⟨ha, hb, hc, hd, small⟩ := small
    have group : (a :: b :: c :: d :: rest).map symbol
        = [a, b, c, d].map symbol ++ rest.map symbol := rfl
    have four : ([a, b, c, d].map symbol).length % 4 = 0 := by simp
    have wholeRest : rest.length % 4 ≠ 1 := by
      simp only [List.length_cons] at whole
      omega
    rw [group, canonical_append four, ← ih small wholeRest, sextets, first_number ha hb,
      second_number hb hc, third_number hc hd, fourth_number hd]
    rfl
  | case2 a b c =>
    simp only [List.forall_mem_cons] at small
    obtain ⟨ha, hb, hc, -⟩ := small
    have written : canonical ([a, b, c].map symbol)
        = [symbol a, symbol b, clearBits 2 (symbol c)] := rfl
    rw [sextets, first_number ha hb, second_number hb hc, third_cleared hc, written,
      clearBits_symbol hc (by decide)]
    rfl
  | case3 a b =>
    simp only [List.forall_mem_cons] at small
    obtain ⟨ha, hb, -⟩ := small
    have written : canonical ([a, b].map symbol) = [symbol a, clearBits 4 (symbol b)] := rfl
    rw [sextets, first_number ha hb, second_cleared hb, written, clearBits_symbol hb (by decide)]
    rfl
  | case4 => exact absurd rfl whole
  | case5 => rfl

/-! ## The language, and its image -/

/-- A text is read when all of it but the padding are letters, and none of them is left
alone behind whole groups. -/
theorem isOk_decodeBase64_iff {text : String} :
    (∃ bytes, decodeBase64 text = .ok bytes) ↔
      (∀ b ∈ stripped text, b ∈ letters) ∧ (stripped text).length % 4 ≠ 1 := by
  constructor
  · rintro ⟨bytes, read⟩
    obtain ⟨numbers, small, written, whole, -⟩ := decodeBase64_eq_ok_iff.mp read
    rw [written, List.forall_mem_map, List.length_map]
    exact ⟨fun n mem => List.mem_of_getElem? (letters_getElem? (small n mem)), whole⟩
  · rintro ⟨inside, whole⟩
    have letters := map_symbol_filterMap fun b mem => isSymbol_iff_mem_letters.mpr (inside b mem)
    refine ⟨_, decodeBase64_eq_ok_iff.mpr ⟨_, filterMap_value?_lt _, letters.symm, ?_, rfl⟩⟩
    rwa [← List.length_map (f := symbol), letters]

/-- What was read has three bytes for each four letters, and is written with the same
letters, but for the spare bits of the last one. -/
theorem rewritten_of_decodeBase64 {text : String} {bytes : Bytes}
    (read : decodeBase64 text = .ok bytes) :
    bytes.length = 3 * (stripped text).length / 4 ∧
      stripped (encode bytes) = canonical (stripped text) := by
  obtain ⟨numbers, small, written, whole, rfl⟩ := decodeBase64_eq_ok_iff.mp read
  rw [written, stripped_encode, sextets_join small whole, length_join, List.length_map]
  exact ⟨rfl, rfl⟩

/-- **Exactly the whole sequences of letters are read**, wherever the padding
stands, and what was read is written with the same letters, but for the spare
bits of the last one.

The same holds of every codec that follows the standard (`Codec.language`). -/
theorem decode_language (text : String) :
    ((∃ bytes, decodeBase64 text = .ok bytes) ↔
      (∀ b ∈ stripped text, b ∈ letters) ∧ (stripped text).length % 4 ≠ 1) ∧
    ∀ bytes, decodeBase64 text = .ok bytes →
      bytes.length = 3 * (stripped text).length / 4 ∧
      stripped (encode bytes) = canonical (stripped text) :=
  ⟨isOk_decodeBase64_iff, fun _ => rewritten_of_decodeBase64⟩

/-- The letters `QR` are read, their four spare bits are ignored, and `QQ` is written. -/
theorem decode_language_spare :
    (∃ bytes, decodeBase64 "=Q=R" = .ok bytes ∧ bytes.length = 1 ∧
      stripped (encode bytes) = stripped "QQ") ∧
    ¬ ∃ bytes, decodeBase64 "QQQQR===" = .ok bytes := by
  obtain ⟨bytes, read⟩ := (decode_language "=Q=R").1.mpr (by decide +kernel)
  obtain ⟨length, written⟩ := (decode_language "=Q=R").2 bytes read
  have last : canonical (stripped "=Q=R") = stripped "QQ" := by decide +kernel
  refine ⟨⟨bytes, read, length, written.trans last⟩, fun accepted => ?_⟩
  exact ((decode_language "QQQQR===").1.mp accepted).2 (by decide)

end Base64

end HostBoundary
