import HostBoundary.Proofs.ReceiptError

/-!
# Where a receipt ends

The host does not say how much of the buffer for a receipt it filled, so the
end of the text is looked for from the back.  The search has three ways to go
wrong: it could stop at a brace inside the padding, cut the text at a brace of
its own, or end within a character.

None of them happens, since the text and the padding are told apart by their
bytes: a padding byte is never a closing brace, and a closing brace is never a
part of another character.  So a byte string is a text that ends at a brace,
followed by padding, in one way at most (`jsonEnd_cases`, `jsonEnd_of_brace`),
and the parser accepts it in exactly this way.

## Main results

* `Receipt.parse_eq_ok_iff` — the bytes that hold a given receipt.
* `Receipt.parse_trims` — with the rejection of all others, and what follows:
  padding is ignored, trimming twice is trimming once, and a buffer with zeros
  behind a text shows the length of the text.
-/

namespace HostBoundary

open Bytes Utf8

namespace Receipt

variable {raw padding : Bytes} {text : String}

/-- Space, tab, line feed, carriage return and zero. -/
def paddingBytes : Bytes := [32, 9, 10, 13, 0]

/-- The last character of the text is a closing brace. -/
def EndsAtBrace (text : String) : Prop := ∃ front, text = front ++ "\x7d"

/-- The bytes are those of the receipt with padding behind, and the receipt is a
usable one. -/
def IsTrimOf (receipt : Receipt) (raw : Bytes) : Prop :=
  ∃ padding, raw = encode receipt.json ++ padding ∧ (∀ b ∈ padding, b ∈ paddingBytes) ∧
    EndsAtBrace receipt.json ∧ hasError receipt.json = false

theorem isPadding_iff {b : UInt8} : isPadding b = true ↔ b ∈ paddingBytes := by
  simp [isPadding, paddingBytes, or_assoc]

/-! ## The end in bytes -/

/-- The search finds nothing, or the last closing brace with only padding behind. -/
theorem jsonEnd_cases (raw : Bytes) :
    jsonEnd raw = 0 ∨ ∃ front padding, raw = front ++ closeBrace :: padding ∧
      (∀ b ∈ padding, isPadding b = true) ∧ jsonEnd raw = front.length + 1 := by
  have parts := List.takeWhile_append_dropWhile (p := isPadding) (l := raw.reverse)
  rw [jsonEnd]
  cases found : raw.reverse.dropWhile isPadding with
  | nil => exact .inl rfl
  | cons b before =>
    by_cases brace : b = closeBrace
    · subst brace
      refine .inr ⟨before.reverse, (raw.reverse.takeWhile isPadding).reverse, ?_, ?_, ?_⟩
      · rw [found] at parts
        refine (List.reverse_eq_iff.mp parts.symm).trans ?_
        rw [List.reverse_append, List.reverse_cons, List.append_assoc, List.singleton_append]
      · intro b mem
        exact List.all_eq_true.mp List.all_takeWhile b (List.mem_reverse.mp mem)
      · simp
    · exact .inl (if_neg brace)

/-- Wherever a brace stands before padding alone, the search ends there. -/
theorem jsonEnd_of_brace (front : Bytes) (padded : ∀ b ∈ padding, isPadding b = true) :
    jsonEnd (front ++ closeBrace :: padding) = front.length + 1 := by
  rw [List.append_cons, jsonEnd_append_padding _ padded, jsonEnd_brace]

/-! ## The end in characters -/

/-- A closing brace is never a part of another character, so a text ends at one
when its bytes do. -/
theorem endsAtBrace_iff : EndsAtBrace text ↔ ∃ front, encode text = front ++ [closeBrace] := by
  constructor
  · rintro ⟨front, rfl⟩
    exact ⟨encode front, encode_append _ _⟩
  · rintro ⟨front, bytes⟩
    rw [encode_eq_spell] at bytes
    have brace : String.utf8EncodeChar '}' = [closeBrace] := by decide
    obtain ⟨s, whole, -⟩ := eq_concat_of_spell (by decide) brace bytes
    exact ⟨String.ofList s, by rw [← String.ofList_toList (s := text), whole, String.ofList_append]⟩

/-- A text that ends at a brace is as long as its padded buffer shows. -/
theorem jsonEnd_padded (ends : EndsAtBrace text) (capacity : Nat) :
    jsonEnd (padded text capacity) = (encode text).length := by
  obtain ⟨front, bytes⟩ := endsAtBrace_iff.mp ends
  rw [padded, jsonEnd_append_padding _ isPadding_of_mem_zeros, bytes, jsonEnd_brace,
    List.length_append, List.length_singleton]

/-! ## The receipts that are accepted -/

/-- **The bytes that hold a receipt**: its text, which ends at a brace and shows
no error, with padding behind. -/
theorem parse_eq_ok_iff (raw : Bytes) (receipt : Receipt) :
    parse raw = .ok receipt ↔ receipt.IsTrimOf raw := by
  constructor
  · intro parsed
    simp only [parse] at parsed
    split at parsed
    · cases parsed
    · next found =>
      rcases jsonEnd_cases raw with nothing | ⟨front, padding, whole, padded, length⟩
      · exact absurd nothing found
      · have cut : raw.take (front.length + 1) = front ++ [closeBrace] := by
          rw [whole, List.append_cons]
          exact List.take_left' (by simp)
        rw [length, cut] at parsed
        split at parsed
        · cases parsed
        · next json decoded =>
          have bytes := encode_of_decode? decoded
          split at parsed
          · cases parsed
          · next hidden =>
            cases parsed
            refine ⟨padding, ?_, fun b mem => isPadding_iff.mp (padded b mem),
              endsAtBrace_iff.mpr ⟨front, bytes⟩, Bool.eq_false_iff.mpr hidden⟩
            rw [whole, bytes, List.append_cons]
  · rintro ⟨padding, rfl, padded, ends, hidden⟩
    obtain ⟨front, bytes⟩ := endsAtBrace_iff.mp ends
    have behind : ∀ b ∈ padding, isPadding b = true := fun b mem => isPadding_iff.mpr (padded b mem)
    rw [bytes, ← List.append_cons, parse_of_brace bytes behind, hidden]
    rfl

/-- Every other byte string is a failed execution. -/
theorem parse_eq_error_of_not (none : ∀ receipt : Receipt, ¬ receipt.IsTrimOf raw) :
    parse raw = .error (.host .executionFailed) := by
  cases outcome : parse raw with
  | error error => rw [parse_eq_error outcome]
  | ok receipt => exact absurd ((parse_eq_ok_iff raw receipt).mp outcome) (none receipt)

/-- A receipt holds itself, with no padding. -/
theorem IsTrimOf.again {receipt : Receipt} (trims : receipt.IsTrimOf raw) :
    receipt.IsTrimOf (encode receipt.json) := by
  obtain ⟨-, -, -, ends, hidden⟩ := trims
  exact ⟨[], (List.append_nil _).symm, List.forall_mem_nil _, ends, hidden⟩

/-- **Trimming finds the receipt and nothing else.**  The receipts that are read
off a byte string are those whose text stands at its front, ends at a brace,
shows no error and has only padding behind it; all other byte strings are failed
executions.  Hence more padding changes nothing, a receipt reads back as itself,
and a text in a buffer of any capacity is found at its full length. -/
theorem parse_trims (raw : Bytes) :
    (∀ receipt, parse raw = .ok receipt ↔ receipt.IsTrimOf raw) ∧
    ((∀ receipt : Receipt, ¬ receipt.IsTrimOf raw) →
      parse raw = .error (.host .executionFailed)) ∧
    (∀ padding : Bytes, (∀ b ∈ padding, b ∈ paddingBytes) → parse (raw ++ padding) = parse raw) ∧
    (∀ receipt, parse raw = .ok receipt → parse (encode receipt.json) = .ok receipt) ∧
    (∀ text capacity, EndsAtBrace text →
      jsonEnd (padded text capacity) = (encode text).length) := by
  refine ⟨parse_eq_ok_iff raw, parse_eq_error_of_not, ?_, ?_, ?_⟩
  · intro padding padded
    exact parse_append_padding raw fun b mem => isPadding_iff.mpr (padded b mem)
  · intro receipt parsed
    exact (parse_eq_ok_iff _ receipt).mpr ((parse_eq_ok_iff raw receipt).mp parsed).again
  · intro text capacity ends
    exact jsonEnd_padded ends capacity

/-- A small receipt with every kind of padding behind it, and the same bytes with
a letter in the padding, which are no receipt. -/
theorem parse_trims_small :
    parse (encode "\x7b\"ok\":1\x7d" ++ [32, 9, 10, 13, 0]) = .ok ⟨"\x7b\"ok\":1\x7d"⟩ ∧
    parse (encode "\x7b\"ok\":1\x7d" ++ [32, 9, 10, 13, 0] ++ [0, 0])
      = parse (encode "\x7b\"ok\":1\x7d" ++ [32, 9, 10, 13, 0]) ∧
    parse (encode "\x7b\"ok\":1\x7d") = .ok ⟨"\x7b\"ok\":1\x7d"⟩ ∧
    jsonEnd (padded "\x7b\"ok\":1\x7d" 16) = 8 ∧
    parse (encode "\x7b\"ok\":1\x7d" ++ [120, 0]) = .error (.host .executionFailed) := by
  have ends : EndsAtBrace "\x7b\"ok\":1\x7d" := ⟨"\x7b\"ok\":1", rfl⟩
  have hidden : hasError "\x7b\"ok\":1\x7d" = false := by decide
  obtain ⟨accepted, -, ignored, again, length⟩ :=
    parse_trims (encode "\x7b\"ok\":1\x7d" ++ [32, 9, 10, 13, 0])
  have parsed := (accepted ⟨"\x7b\"ok\":1\x7d"⟩).mpr ⟨_, rfl, fun b mem => mem, ends, hidden⟩
  have zeros : ∀ b ∈ ([0, 0] : Bytes), b ∈ paddingBytes := by simp [paddingBytes]
  refine ⟨parsed, ignored [0, 0] zeros, again _ parsed, length _ 16 ends, ?_⟩
  refine (parse_trims _).2.1 ?_
  rintro ⟨json⟩ ⟨padding, whole, padded, ends, -⟩
  -- the letter stands behind the last brace, so it would have to be padding
  obtain ⟨front, bytes⟩ := endsAtBrace_iff.mp ends
  have search := jsonEnd_of_brace front fun b mem => isPadding_iff.mpr (padded b mem)
  rw [List.append_cons, ← bytes, ← whole] at search
  have nothing : jsonEnd (encode "\x7b\"ok\":1\x7d" ++ [120, 0]) = 0 := by decide
  rw [nothing] at search
  exact absurd search (Nat.succ_ne_zero _).symm

end Receipt

end HostBoundary
